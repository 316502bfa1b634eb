import Haystack.Collections.Text
import Haystack.Kinds

/-!
# Printed numbers, dates and times

The texts that the codecs share.  Times, fractions and offsets are printed digit
by digit.  What the standard library and the calendar library print and read,
the digits of a binary64 value and of a calendar date, is a `Formats`: it reads
back what it prints.
-/

namespace Haystack

open Collections

/-! ## Binary64 values -/

variable {x : F64}

namespace F64

def isInfinite (x : F64) : Bool := x.magnitude = 0x7FF0000000000000

def isFinite (x : F64) : Bool := x.magnitude < 0x7FF0000000000000

/-- The canonical value that is not a number. -/
def nan : F64 := ⟨0x7FF8000000000000⟩

def infinity : F64 := ⟨0x7FF0000000000000⟩

def negInfinity : F64 := ⟨0xFFF0000000000000⟩

/-- A value is finite, infinite or not a number. -/
theorem finite_or_infinite_or_nan (x : F64) :
    x.isFinite = true ∨ x.isInfinite = true ∨ x.isNaN = true := by
  simp only [isFinite, isInfinite, isNaN, decide_eq_true_eq]
  omega

theorem isNaN_of_isFinite (finite : x.isFinite = true) : x.isNaN = false := by
  simp only [isFinite, isNaN, decide_eq_true_eq, decide_eq_false_iff_not] at finite ⊢
  omega

theorem isInfinite_of_isFinite (finite : x.isFinite = true) : x.isInfinite = false := by
  simp only [isFinite, isInfinite, decide_eq_true_eq, decide_eq_false_iff_not] at finite ⊢
  omega

theorem isNaN_of_isInfinite (infinite : x.isInfinite = true) : x.isNaN = false := by
  simp only [isInfinite, isNaN, decide_eq_true_eq, decide_eq_false_iff_not] at infinite ⊢
  omega

/-- The two infinities differ in their sign. -/
theorem eq_of_isInfinite (infinite : x.isInfinite = true) :
    x = if x.isNegative then negInfinity else infinity := by
  simp only [isInfinite, decide_eq_true_eq] at infinite
  cases sign : x.isNegative with
  | false | true =>
    apply ext_sign_magnitude
    · rw [sign]
      decide
    · rw [infinite]
      decide

end F64

/-! ## Dates and times -/

/-- Nanoseconds of a second. -/
def nanosPerSecond : Nat := 1000000000

/-- Seconds of a day. -/
def secondsPerDay : Int := 86400

namespace NaiveDate

/-- The days that the calendar library represents. -/
def Valid (date : NaiveDate) : Prop := -95745764 ≤ date.days ∧ date.days ≤ 95745764

/-- The year has at most four digits: it is one of `0..=9999`. -/
def hasShortYear (date : NaiveDate) : Bool := 0 ≤ date.days && date.days < 3652425

end NaiveDate

namespace NaiveTime

/-- What the calendar library guarantees of a time. -/
structure Valid (time : NaiveTime) : Prop where
  secs : time.secs < 86400
  frac : time.frac < 2000000000

def hour (time : NaiveTime) : Nat := time.secs / 3600

def minute (time : NaiveTime) : Nat := time.secs / 60 % 60

def second (time : NaiveTime) : Nat := time.secs % 60

/-- Excess nanoseconds, if any, are those of a leap second at the end of a
minute. -/
def isCalendar (time : NaiveTime) : Bool := time.frac < nanosPerSecond || time.second = 59

variable {time : NaiveTime}

theorem isCalendar_iff :
    time.isCalendar = true ↔ time.frac < 1000000000 ∨ time.secs % 60 = 59 := by
  rw [isCalendar, Bool.or_eq_true, decide_eq_true_iff, decide_eq_true_iff]
  rfl

/-- The time that the printed digits stand for: away from the end of a minute,
excess nanoseconds are a whole second. -/
def normalized (time : NaiveTime) : NaiveTime :=
  if time.isCalendar then time
  else ⟨time.secs + 1, time.frac - nanosPerSecond⟩

theorem normalized_of_isCalendar (calendar : time.isCalendar = true) : time.normalized = time :=
  if_pos calendar

end NaiveTime

namespace DateTime

/-- The seconds of the local day, which may be before or after the day in UTC. -/
def localSeconds (value : DateTime) : Int := value.time.secs + value.offset

/-- The local date. -/
def localDate (value : DateTime) : NaiveDate :=
  ⟨value.date.days + value.localSeconds / secondsPerDay⟩

/-- The local time of day. -/
def localTime (value : DateTime) : NaiveTime :=
  ⟨(value.localSeconds % secondsPerDay).toNat, value.time.frac⟩

/-- What the calendar library guarantees of a datetime. -/
structure Valid (value : DateTime) : Prop where
  date : value.date.Valid
  time : value.time.Valid
  offset : -86400 < value.offset ∧ value.offset < 86400

/-- The calendar text preserves every field of the datetime. -/
def h4Representable (value : DateTime) : Bool :=
  value.offset % 60 = 0 && value.time.frac < 2000000000 &&
    value.time.isCalendar && value.localDate.hasShortYear &&
    value.localTime.isCalendar

end DateTime

/-! ## Digits -/

/-- Two digits. -/
def twoDigits (n : Nat) : List Char := [Nat.digitChar (n / 10 % 10), Nat.digitChar (n % 10)]

/-- A number with leading zeros. -/
def padded : Nat → Nat → List Char
  | 0, _ => []
  | width + 1, n => padded width (n / 10) ++ [Nat.digitChar (n % 10)]

/-- Remove the zeros at the end. -/
def trimZeros (text : List Char) : List Char := (text.reverse.dropWhile (· = '0')).reverse

/-- `HH:MM:SS`.  A leap second is second 60. -/
def NaiveTime.hms (time : NaiveTime) : List Char :=
  twoDigits time.hour ++ ':' :: twoDigits time.minute ++ ':' ::
    twoDigits (time.second + time.frac / nanosPerSecond)

/-- The fraction of a second, or nothing if it is zero. -/
def formatFracSeconds (nanos : Nat) : List Char :=
  if nanos % nanosPerSecond > 0 then
    trimZeros ('.' :: padded 9 (nanos % nanosPerSecond))
  else []

/-- `HH:MM:SS[.frac]`. -/
def formatTime (time : NaiveTime) : List Char := time.hms ++ formatFracSeconds time.frac

/-- `±HH:MM`. -/
def offsetText (offset : Int) : List Char :=
  (if offset < 0 then '-' else '+') :: (twoDigits (offset.natAbs / 3600) ++ ':' ::
      twoDigits (offset.natAbs / 60 % 60))

/-! ## Formats -/

/-- The formats in which a time is read. -/
inductive TimeFormat
  | fraction
  | seconds
  | minutes
  deriving DecidableEq, Repr

/-- The formats in which a datetime is read. -/
inductive DateTimeFormat
  | rfc3339
  | fraction
  | seconds
  deriving DecidableEq, Repr

/-- The digits of a finite number: a sign, whole digits, and a fraction that does
not end in zero. -/
structure PlainDigits (text : List Char) where
  negative : Bool
  whole : List Char
  fraction : List Char
  wholeDigits : ∀ c ∈ whole, c.isDigit = true
  fractionDigits : ∀ c ∈ fraction, c.isDigit = true
  whole_ne_nil : whole ≠ []
  fraction_trimmed : fraction.getLast? ≠ some '0'
  text_eq : text = (if negative then ['-'] else []) ++ whole ++
    (if fraction = [] then [] else '.' :: fraction)

/-- A date text `YYYY-MM-DD`. -/
def isYmd : List Char → Bool
  | [a, b, c, d, '-', e, f, '-', g, h] =>
    [a, b, c, d, e, f, g, h].all Char.isDigit
  | _ => false

variable {c : Char}

/-- A digit takes one byte. -/
theorem utf8Size_of_isDigit (digit : c.isDigit = true) : c.utf8Size = 1 := by
  simp only [Char.isDigit, Bool.and_eq_true, decide_eq_true_eq] at digit
  apply utf8Size_of_ascii
  have bound := UInt32.le_iff_toNat_le.mp digit.2
  exact le_trans bound (by decide)

variable {text : List Char}

/-- A date text has ten characters of one byte each. -/
theorem utf8Length_of_isYmd (shape : isYmd text = true) : utf8Length text = 10 := by
  unfold isYmd at shape
  split at shape
  · simp only [List.all_cons, List.all_nil, Bool.and_true, Bool.and_eq_true] at shape
    obtain ⟨a, b, c, d, e, f, g, h⟩ := shape
    have dash : Char.utf8Size '-' = 1 := by decide
    simp [dash, utf8Size_of_isDigit a, utf8Size_of_isDigit b, utf8Size_of_isDigit c,
      utf8Size_of_isDigit d, utf8Size_of_isDigit e, utf8Size_of_isDigit f, utf8Size_of_isDigit g,
      utf8Size_of_isDigit h]
  · cases shape

/-- `f64` display, given the digits of the finite values. -/
def displayFloat (digits : F64 → List Char) (x : F64) : List Char :=
  if x.isNaN then ['N', 'a', 'N']
  else if x.isInfinite then
    if x.isNegative then ['-', 'i', 'n', 'f'] else ['i', 'n', 'f']
  else digits x

/-- `YYYY-MM-DDTHH:MM:SS[.frac]±HH:MM`, given the text of dates. -/
def dateTimeText (ymd : NaiveDate → List Char) (value : DateTime) : List Char :=
  ymd value.localDate ++ 'T' :: value.localTime.hms ++
    formatFracSeconds value.time.frac ++ offsetText value.offset

/-- What the standard library and the calendar library print and read. -/
structure Formats where
  /-- The digits of a finite value. -/
  digits : F64 → List Char
  parseFloat : List Char → Option F64
  ofUnsigned : UInt64 → F64
  ofSigned : Int64 → F64
  /-- `%Y-%m-%d`. -/
  ymd : NaiveDate → List Char
  parseYmd : List Char → Option NaiveDate
  parseTime : TimeFormat → List Char → Option NaiveTime
  parseDateTime : DateTimeFormat → List Char → Option DateTime
  /-- The display text of a date, with a sign for years of more digits. -/
  displayDate : NaiveDate → List Char
  parseDate : List Char → Option NaiveDate
  plainDigits : ∀ x, x.isFinite = true → Nonempty (PlainDigits (digits x))
  parseFloat_digits : ∀ x, x.isFinite = true → parseFloat (digits x) = some x
  parseFloat_nan : parseFloat ['N', 'a', 'N'] = some F64.nan
  parseFloat_inf : parseFloat ['i', 'n', 'f'] = some F64.infinity
  parseFloat_negInf : parseFloat ['-', 'i', 'n', 'f'] = some F64.negInfinity
  isYmd_ymd : ∀ date, date.hasShortYear = true → isYmd (ymd date) = true
  parseYmd_ymd : ∀ date, date.hasShortYear = true → parseYmd (ymd date) = some date
  parseTime_formatTime : ∀ time, time.Valid →
    parseTime .fraction (formatTime time) = some time.normalized
  parseDateTime_text : ∀ format value, value.Valid →
    value.h4Representable = true → format ≠ .seconds →
    parseDateTime format (dateTimeText ymd value) = some value
  parseDate_displayDate : ∀ date, date.Valid → parseDate (displayDate date) = some date

namespace Formats

variable (formats : Formats)

/-- `{}` of an `f64`. -/
def display (x : F64) : List Char := displayFloat formats.digits x

/-- `YYYY-MM-DDTHH:MM:SS[.frac]±HH:MM`. -/
def dateTime (value : DateTime) : List Char := dateTimeText formats.ymd value

/-- A number without a trailing `.0`. -/
def formatNumberVal (x : F64) : List Char :=
  if x.isInfinite then
    if x.isNegative then ['-', 'I', 'N', 'F'] else ['I', 'N', 'F']
  else if x.isNaN then ['N', 'a', 'N']
  else
    let text := formats.display x
    if ['.', '0'].isSuffixOf text && !text.contains 'e' && !text.contains 'E' then
      text.dropLast.dropLast
    else text

end Formats

/-! ## The characters of printed texts -/

theorem isDigit_digitChar : ∀ digit < 10, (Nat.digitChar digit).isDigit = true := by
  decide

theorem isDigit_of_mem_padded {width n : Nat} (member : c ∈ padded width n) :
    c.isDigit = true := by
  induction width generalizing n with
  | zero => cases member
  | succ width ih =>
    rw [padded, List.mem_append, List.mem_singleton] at member
    rcases member with member | rfl
    · exact ih member
    · exact isDigit_digitChar _ (by omega)

/-- The digits of a finite number are digits, a sign and a point. -/
theorem PlainDigits.mem (plain : PlainDigits text) (member : c ∈ text) :
    c.isDigit = true ∨ c = '-' ∨ c = '.' := by
  rw [plain.text_eq, List.mem_append, List.mem_append] at member
  rcases member with (sign | whole) | fraction
  · split at sign
    · exact .inr (.inl (List.mem_singleton.mp sign))
    · cases sign
  · exact .inl (plain.wholeDigits c whole)
  · split at fraction
    · cases fraction
    · rcases List.mem_cons.mp fraction with rfl | fraction
      · exact .inr (.inr rfl)
      · exact .inl (plain.fractionDigits c fraction)

/-- A character that is no digit, sign or point is in no printed number. -/
theorem PlainDigits.not_mem (plain : PlainDigits text)
    (other : (c.isDigit || c = '-' || c = '.') = false) : c ∉ text := by
  intro member
  simp only [Bool.or_eq_false_iff, decide_eq_false_iff_not] at other
  rcases plain.mem member with digit | rfl | rfl
  · rw [digit] at other
    simp at other
  · exact other.1.2 rfl
  · exact other.2 rfl

/-- The digits of a finite number end in a digit that is no trailing zero. -/
theorem PlainDigits.not_isSuffix (plain : PlainDigits text) : ¬ ['.', '0'] <:+ text := by
  rintro ⟨front, same⟩
  have last : text.getLast? = some '0' := by simp [← same]
  have point : '.' ∈ text := by simp [← same]
  rw [plain.text_eq] at last point
  by_cases whole : plain.fraction = []
  · rw [if_pos whole, List.append_nil, List.mem_append] at point
    rcases point with sign | digits
    · split at sign <;> simp at sign
    · have := plain.wholeDigits _ digits
      revert this
      decide
  · rw [if_neg whole, List.getLast?_append] at last
    obtain ⟨c, _, some⟩ := List.exists_cons_of_ne_nil whole
    rw [some, List.getLast?_cons_cons, ← some] at last
    cases found : plain.fraction.getLast? with
    | none => exact whole (List.getLast?_eq_none_iff.mp found)
    | some =>
      rw [found] at last
      cases last
      exact plain.fraction_trimmed found

namespace Formats

variable (formats : Formats)

theorem display_of_isFinite (finite : x.isFinite = true) :
    formats.display x = formats.digits x := by
  simp [display, displayFloat, F64.isNaN_of_isFinite finite, F64.isInfinite_of_isFinite finite]

/-- A displayed number is read, as itself or as the canonical value that is none. -/
theorem parseFloat_display (x : F64) :
    formats.parseFloat (formats.display x) = some (if x.isNaN then .nan else x) := by
  rcases x.finite_or_infinite_or_nan with finite | infinite | notNumber
  · rw [formats.display_of_isFinite finite, formats.parseFloat_digits x finite,
      F64.isNaN_of_isFinite finite]
    rfl
  · have same := F64.eq_of_isInfinite infinite
    rw [display, displayFloat, F64.isNaN_of_isInfinite infinite, infinite]
    cases sign : x.isNegative with
    | false =>
      rw [sign] at same
      exact formats.parseFloat_inf.trans (congrArg some same.symm)
    | true =>
      rw [sign] at same
      exact formats.parseFloat_negInf.trans (congrArg some same.symm)
  · rw [display, displayFloat, if_pos notNumber, formats.parseFloat_nan, if_pos notNumber]

/-- A displayed number is one word, without commas. -/
theorem not_mem_display (x : F64) (other : c = ' ' ∨ c = ',') : c ∉ formats.display x := by
  rcases x.finite_or_infinite_or_nan with finite | infinite | notNumber
  · obtain ⟨plain⟩ := formats.plainDigits x finite
    rw [formats.display_of_isFinite finite]
    rcases other with rfl | rfl
    · exact plain.not_mem (by decide)
    · exact plain.not_mem (by decide)
  · rw [display, displayFloat, F64.isNaN_of_isInfinite infinite, infinite]
    rcases other with rfl | rfl <;> cases x.isNegative <;> simp
  · rw [display, displayFloat, if_pos notNumber]
    rcases other with rfl | rfl <;> decide

/-- A number is printed by its digits, without a trailing zero to remove. -/
theorem formatNumberVal_of_isFinite (finite : x.isFinite = true) :
    formats.formatNumberVal x = formats.digits x := by
  obtain ⟨plain⟩ := formats.plainDigits x finite
  have kept : ['.', '0'].isSuffixOf (formats.digits x) = false := by
    rw [Bool.eq_false_iff]
    exact fun suffix => plain.not_isSuffix (List.isSuffixOf_iff_suffix.mp suffix)
  simp [formatNumberVal, F64.isNaN_of_isFinite finite,
    F64.isInfinite_of_isFinite finite, formats.display_of_isFinite finite, kept]

end Formats

/-- The characters of dates and times. -/
def isDateTimeChar (c : Char) : Bool :=
  c.isDigit || c = '-' || c = ':' || c = '.' || c = 'T' || c = '+'

theorem isDateTimeChar_of_isDigit (digit : c.isDigit = true) : isDateTimeChar c = true := by
  simp [isDateTimeChar, digit]

theorem all_twoDigits (n : Nat) : (twoDigits n).all isDateTimeChar = true := by
  have tens := isDigit_digitChar (n / 10 % 10) (Nat.mod_lt _ (by decide))
  have ones := isDigit_digitChar (n % 10) (Nat.mod_lt _ (by decide))
  simp [twoDigits, isDateTimeChar_of_isDigit, tens, ones]

theorem all_hms (time : NaiveTime) : time.hms.all isDateTimeChar = true := by
  have colon : isDateTimeChar ':' = true := by decide
  simp [NaiveTime.hms, all_twoDigits, colon]

theorem all_formatFracSeconds (nanos : Nat) :
    (formatFracSeconds nanos).all isDateTimeChar = true := by
  rw [formatFracSeconds]
  split
  · rw [List.all_eq_true]
    intro c member
    rw [trimZeros, List.mem_reverse] at member
    have printed := (List.dropWhile_sublist _).subset member
    rcases List.mem_cons.mp (List.mem_reverse.mp printed) with rfl | digit
    · decide
    · exact isDateTimeChar_of_isDigit (isDigit_of_mem_padded digit)
  · rfl

theorem all_offsetText (offset : Int) : (offsetText offset).all isDateTimeChar = true := by
  have colon : isDateTimeChar ':' = true := by decide
  rw [offsetText, List.all_cons, List.all_append, List.all_cons, all_twoDigits, all_twoDigits]
  split <;> decide

theorem all_isYmd (shape : isYmd text = true) : text.all isDateTimeChar = true := by
  unfold isYmd at shape
  split at shape
  · simp only [List.all_cons, Bool.and_eq_true] at shape
    obtain ⟨a, b, c, d, e, f, g, h⟩ := shape
    have dash : isDateTimeChar '-' = true := by decide
    simp [isDateTimeChar_of_isDigit, a, b, c, d, e, f, g, h, dash]
  · cases shape

/-- A printed datetime is one word. -/
theorem Formats.all_dateTime (formats : Formats) {value : DateTime}
    (short : value.localDate.hasShortYear = true) :
    (formats.dateTime value).all isDateTimeChar = true := by
  have separator : isDateTimeChar 'T' = true := by decide
  simp [Formats.dateTime, dateTimeText, all_isYmd (formats.isYmd_ymd _ short), all_hms,
    all_formatFracSeconds, all_offsetText, separator]

end Haystack
