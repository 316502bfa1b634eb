import Haystack.Formats

/-!
# Formats exist

A `Formats` whose digits of a value and of a date are those of the numbers that
the model keeps for them, and whose readers invert its printers.  That its laws
hold together rests on the printed times and offsets being read in one way only.
-/

namespace Haystack

open Collections

/-! ## Digits determine numbers -/

theorem digitChar_injective :
    ∀ left < 10, ∀ right < 10, Nat.digitChar left = Nat.digitChar right → left = right := by
  decide

variable {left right : Nat}

theorem twoDigits_injective (leftSmall : left < 100) (rightSmall : right < 100)
    (same : twoDigits left = twoDigits right) : left = right := by
  simp only [twoDigits, List.cons.injEq, and_true] at same
  have tens := digitChar_injective _ (by omega) _ (by omega) same.1
  have ones := digitChar_injective _ (by omega) _ (by omega) same.2
  omega

@[simp] theorem length_padded (width n : Nat) : (padded width n).length = width := by
  induction width generalizing n with
  | zero => rfl
  | succ width ih => simp [padded, ih]

theorem padded_injective {width : Nat} (leftSmall : left < 10 ^ width)
    (rightSmall : right < 10 ^ width) (same : padded width left = padded width right) :
    left = right := by
  induction width generalizing left right with
  | zero => omega
  | succ width ih =>
    obtain ⟨front, last⟩ := List.append_inj' same rfl
    have quotients := ih (by omega) (by omega) front
    have remainders := digitChar_injective _ (by omega) _ (by omega) (List.cons.inj last).1
    omega

/-- Digits of one length are determined by what is left without the zeros at the
end. -/
theorem trimZeros_injective {left right : List Char} (length : left.length = right.length)
    (same : trimZeros left = trimZeros right) : left = right := by
  have split : ∀ text : List Char, ∃ zeros,
      text = trimZeros text ++ List.replicate zeros '0' := by
    intro text
    refine ⟨(text.reverse.takeWhile (· = '0')).length, ?_⟩
    have zeros : text.reverse.takeWhile (· = '0') = List.replicate
        (text.reverse.takeWhile (· = '0')).length '0' := by
      rw [List.eq_replicate_iff]
      exact ⟨rfl, fun c member => by simpa using List.mem_takeWhile_imp member⟩
    have whole := congrArg List.reverse
      (List.takeWhile_append_dropWhile (p := (· = '0')) (l := text.reverse))
    rw [List.reverse_append, List.reverse_reverse] at whole
    rw [trimZeros, ← List.reverse_replicate, ← zeros, whole]
  obtain ⟨leftZeros, leftSplit⟩ := split left
  obtain ⟨rightZeros, rightSplit⟩ := split right
  have zeros : leftZeros = rightZeros := by
    have leftLength := congrArg List.length leftSplit
    have rightLength := congrArg List.length rightSplit
    rw [List.length_append, List.length_replicate] at leftLength rightLength
    rw [same] at leftLength
    omega
  rw [leftSplit, rightSplit, same, zeros]

/-- The point stays in front of a fraction. -/
theorem trimZeros_point (text : List Char) : trimZeros ('.' :: text) ≠ [] := by
  intro empty
  rw [trimZeros, List.reverse_eq_nil_iff, List.dropWhile_eq_nil_iff] at empty
  have point := empty '.' (by simp)
  simp at point

theorem formatFracSeconds_injective (same : formatFracSeconds left = formatFracSeconds right) :
    left % nanosPerSecond = right % nanosPerSecond := by
  have leftSmall : left % nanosPerSecond < 10 ^ 9 := Nat.mod_lt _ (by decide)
  have rightSmall : right % nanosPerSecond < 10 ^ 9 := Nat.mod_lt _ (by decide)
  unfold formatFracSeconds at same
  split_ifs at same with leftSome rightSome rightSome
  · have digits := trimZeros_injective (by simp) same
    exact padded_injective leftSmall rightSmall (List.cons.inj digits).2
  · exact absurd same (trimZeros_point _)
  · exact absurd same.symm (trimZeros_point _)
  · omega

/-! ## Times -/

@[simp] theorem length_hms (time : NaiveTime) : time.hms.length = 8 := by
  simp [NaiveTime.hms, twoDigits]

@[simp] theorem length_offsetText (offset : Int) : (offsetText offset).length = 6 := by
  simp [offsetText, twoDigits]

/-- The parts that a time is printed by. -/
theorem hms_injective {left right : NaiveTime} (leftValid : left.Valid) (rightValid : right.Valid)
    (same : left.hms = right.hms) :
    left.hour = right.hour ∧ left.minute = right.minute ∧
      left.second + left.frac / nanosPerSecond = right.second + right.frac / nanosPerSecond := by
  have bounds : ∀ time : NaiveTime, time.Valid → time.hour < 100 ∧ time.minute < 100 ∧
        time.second + time.frac / nanosPerSecond < 100 := by
    intro time valid
    have secs := valid.secs
    have frac := valid.frac
    simp only [NaiveTime.hour, NaiveTime.minute, NaiveTime.second, nanosPerSecond]
    omega
  obtain ⟨leftHour, leftMinute, leftSecond⟩ := bounds left leftValid
  obtain ⟨rightHour, rightMinute, rightSecond⟩ := bounds right rightValid
  obtain ⟨front, seconds⟩ := List.append_inj' same (by simp [twoDigits])
  obtain ⟨hours, minutes⟩ := List.append_inj front (by simp [twoDigits])
  exact ⟨twoDigits_injective leftHour rightHour hours,
    twoDigits_injective leftMinute rightMinute (List.cons.inj minutes).2,
    twoDigits_injective leftSecond rightSecond (List.cons.inj seconds).2⟩

/-- Calendar times are determined by their digits. -/
theorem eq_of_hms_frac
    {left right : NaiveTime} (leftValid : left.Valid) (rightValid : right.Valid)
    (leftCalendar : left.isCalendar = true)
    (rightCalendar : right.isCalendar = true) (hms : left.hms = right.hms)
    (frac : formatFracSeconds left.frac = formatFracSeconds right.frac) : left = right := by
  obtain ⟨hours, minutes, seconds⟩ := hms_injective leftValid rightValid hms
  have fractions := formatFracSeconds_injective frac
  rw [NaiveTime.isCalendar_iff] at leftCalendar rightCalendar
  simp only [NaiveTime.hour, NaiveTime.minute, NaiveTime.second,
    nanosPerSecond] at hours minutes seconds fractions
  cases left
  cases right
  simp only [NaiveTime.mk.injEq] at *
  omega

theorem formatTime_injective
    {left right : NaiveTime} (leftValid : left.Valid) (rightValid : right.Valid)
    (leftCalendar : left.isCalendar = true) (rightCalendar : right.isCalendar = true)
    (same : formatTime left = formatTime right) : left = right := by
  obtain ⟨hms, frac⟩ := List.append_inj same (by simp)
  exact eq_of_hms_frac leftValid rightValid leftCalendar rightCalendar hms frac

theorem valid_normalized {time : NaiveTime} (valid : time.Valid) :
    time.normalized.Valid ∧ time.normalized.isCalendar = true := by
  unfold NaiveTime.normalized
  split
  · exact ⟨valid, ‹_›⟩
  · rename_i off
    rw [NaiveTime.isCalendar_iff] at off
    obtain ⟨secs, frac⟩ := valid
    rw [NaiveTime.isCalendar_iff]
    refine ⟨⟨?_, ?_⟩, ?_⟩
    · change time.secs + 1 < 86400
      omega
    · change time.frac - 1000000000 < 2000000000
      omega
    · change time.frac - 1000000000 < 1000000000 ∨ (time.secs + 1) % 60 = 59
      omega

/-- A time prints as the one its digits stand for. -/
theorem formatTime_normalized (time : NaiveTime) :
    formatTime time.normalized = formatTime time := by
  unfold NaiveTime.normalized
  split
  · rfl
  · rename_i off
    rw [NaiveTime.isCalendar_iff] at off
    have hours : (time.secs + 1) / 3600 = time.secs / 3600 := by omega
    have minutes : (time.secs + 1) / 60 % 60 = time.secs / 60 % 60 := by omega
    have seconds : (time.secs + 1) % 60 + (time.frac - nanosPerSecond) / nanosPerSecond =
          time.secs % 60 + time.frac / nanosPerSecond := by
      unfold nanosPerSecond
      omega
    have nanos : (time.frac - nanosPerSecond) % nanosPerSecond = time.frac % nanosPerSecond := by
      unfold nanosPerSecond
      omega
    simp [formatTime, NaiveTime.hms, NaiveTime.hour, NaiveTime.minute,
      NaiveTime.second, formatFracSeconds, hours, minutes, seconds, nanos]

/-! ## Datetimes -/

theorem offsetText_injective {left right : Int} (leftBound : -86400 < left ∧ left < 86400)
    (rightBound : -86400 < right ∧ right < 86400) (leftMinutes : left % 60 = 0)
    (rightMinutes : right % 60 = 0) (same : offsetText left = offsetText right) :
    left = right := by
  obtain ⟨sign, digits⟩ := List.cons.inj same
  obtain ⟨hours, minutes⟩ := List.append_inj digits (by simp [twoDigits])
  have sameHours := twoDigits_injective (by omega) (by omega) hours
  have sameMinutes := twoDigits_injective (by omega) (by omega) (List.cons.inj minutes).2
  by_cases leftSign : left < 0 <;> by_cases rightSign : right < 0
  · omega
  · simp [leftSign, rightSign] at sign
  · simp [leftSign, rightSign] at sign
  · omega

/-- Datetimes with a calendar text are determined by it. -/
theorem dateTimeText_injective {ymd : NaiveDate → List Char}
    (width : ∀ date, date.hasShortYear = true → (ymd date).length = 10)
    (dates : ∀ left right : NaiveDate, left.hasShortYear = true →
      right.hasShortYear = true → ymd left = ymd right → left = right)
    {left right : DateTime} (leftValid : left.Valid) (rightValid : right.Valid)
    (leftExact : left.h4Representable = true) (rightExact : right.h4Representable = true)
    (same : dateTimeText ymd left = dateTimeText ymd right) : left = right := by
  simp only [DateTime.h4Representable, Bool.and_eq_true,
    decide_eq_true_eq] at leftExact rightExact
  obtain ⟨⟨⟨⟨leftMinutes, -⟩, -⟩, leftShort⟩, leftCalendar⟩ := leftExact
  obtain ⟨⟨⟨⟨rightMinutes, -⟩, -⟩, rightShort⟩, rightCalendar⟩ := rightExact
  obtain ⟨front, offsets⟩ := List.append_inj' same (by simp)
  have lengths : (ymd left.localDate ++ 'T' :: left.localTime.hms).length =
      (ymd right.localDate ++ 'T' :: right.localTime.hms).length := by
    simp [width _ leftShort, width _ rightShort]
  obtain ⟨front, fractions⟩ := List.append_inj front lengths
  obtain ⟨days, times⟩ := List.append_inj front (by rw [width _ leftShort, width _ rightShort])
  have localValid : ∀ value : DateTime, value.Valid → value.localTime.Valid := by
    intro value valid
    have frac := valid.time.frac
    refine ⟨?_, frac⟩
    simp only [DateTime.localTime, secondsPerDay]
    omega
  have sameOffset := offsetText_injective leftValid.offset rightValid.offset
    leftMinutes rightMinutes offsets
  have sameDate := dates _ _ leftShort rightShort days
  have sameTime := eq_of_hms_frac (localValid left leftValid)
    (localValid right rightValid) leftCalendar rightCalendar
    (List.cons.inj times).2 fractions
  have leftSecs := leftValid.time.secs
  have rightSecs := rightValid.time.secs
  obtain ⟨⟨_⟩, ⟨_, _⟩, _⟩ := left
  obtain ⟨⟨_⟩, ⟨_, _⟩, _⟩ := right
  simp only [DateTime.localDate, DateTime.localTime, DateTime.localSeconds,
    NaiveDate.mk.injEq, NaiveTime.mk.injEq, secondsPerDay, DateTime.mk.injEq]
    at sameDate sameTime sameOffset leftSecs rightSecs ⊢
  obtain ⟨_, sameNanos⟩ := sameTime
  refine ⟨?_, ⟨?_, sameNanos⟩, sameOffset⟩ <;> omega

/-! ## The formats -/

/-- The sign and the magnitude of a binary64 value. -/
def signedDigits (negative : Bool) (magnitude : Nat) : List Char :=
  (if negative then ['-'] else []) ++ decimal magnitude

theorem isDigit_decimal {n : Nat} {c : Char} (member : c ∈ decimal n) : c.isDigit = true := by
  have bounds := isDigit_of_mem_decimal member
  simp only [Char.isDigit, Bool.and_eq_true, decide_eq_true_eq]
  exact ⟨UInt32.le_iff_toNat_le.mpr bounds.1, UInt32.le_iff_toNat_le.mpr bounds.2⟩

theorem signedDigits_injective {leftSign rightSign : Bool}
    (same : signedDigits leftSign left = signedDigits rightSign right) :
    leftSign = rightSign ∧ left = right := by
  have unsigned : ∀ n rest, '-' :: rest ≠ decimal n := by
    intro n rest same
    have digit := isDigit_decimal (n := n) (same ▸ List.mem_cons_self)
    exact absurd digit (by decide)
  have numbers : decimal left = decimal right → left = right := by
    intro same
    have parsed := parseDecimal_decimal left
    rw [same, parseDecimal_decimal] at parsed
    exact (Option.some.inj parsed).symm
  unfold signedDigits at same
  cases leftSign <;> cases rightSign
  · exact ⟨rfl, numbers (by simpa using same)⟩
  · exact absurd same.symm (unsigned _ _)
  · exact absurd same (unsigned _ _)
  · exact ⟨rfl, numbers (by simpa using same)⟩

/-- The digits of a day, grouped as those of a calendar date. -/
def dayDigits (date : NaiveDate) : List Char :=
  let digits := padded 8 date.days.toNat
  digits.take 4 ++ '-' :: ((digits.drop 4).take 2 ++ '-' :: digits.drop 6)

theorem length_dayDigits (date : NaiveDate) : (dayDigits date).length = 10 := by
  simp [dayDigits]

theorem dayDigits_injective (left right : NaiveDate) (leftShort : left.hasShortYear = true)
    (rightShort : right.hasShortYear = true) (same : dayDigits left = dayDigits right) :
    left = right := by
  simp only [NaiveDate.hasShortYear, Bool.and_eq_true, decide_eq_true_eq] at leftShort rightShort
  obtain ⟨years, rest⟩ := List.append_inj same (by simp)
  obtain ⟨months, days⟩ := List.append_inj (List.cons.inj rest).2 (by simp)
  have parts : ∀ digits : List Char,
      digits = digits.take 4 ++ ((digits.drop 4).take 2 ++ digits.drop 6) := by
    intro digits
    have tail := List.take_append_drop 2 (digits.drop 4)
    rw [List.drop_drop] at tail
    rw [tail, List.take_append_drop]
  have digits : padded 8 left.days.toNat = padded 8 right.days.toNat := by
    rw [parts (padded 8 left.days.toNat), years, months, (List.cons.inj days).2, ← parts]
  have numbers := padded_injective (by omega) (by omega) digits
  cases left
  cases right
  simp only [NaiveDate.mk.injEq] at *
  omega

theorem isYmd_dayDigits (date : NaiveDate) : isYmd (dayDigits date) = true := by
  have digit : ∀ n, (Nat.digitChar (n % 10)).isDigit = true :=
    fun n => isDigit_digitChar _ (by omega)
  simp [dayDigits, padded, isYmd, digit]

theorem plainFloat_injective :
    Function.Injective fun x : F64 => signedDigits x.isNegative x.magnitude := by
  intro left right same
  obtain ⟨sign, magnitude⟩ := signedDigits_injective same
  exact F64.ext_sign_magnitude sign magnitude

theorem plainDigits_signedDigits (negative : Bool) (magnitude : Nat) :
    Nonempty (PlainDigits (signedDigits negative magnitude)) :=
  ⟨{ negative
     whole := decimal magnitude
     fraction := []
     wholeDigits := fun _ => isDigit_decimal
     fractionDigits := fun _ member => absurd member List.not_mem_nil
     whole_ne_nil := by
      intro empty
      have parsed := parseDecimal_decimal magnitude
      rw [empty] at parsed
      cases parsed
     fraction_trimmed := (Option.some_ne_none _).symm
     text_eq := by simp [signedDigits] }⟩

/-- A number that was printed, or one of the special values. -/
noncomputable def plainFloat (text : List Char) : Option F64 :=
  if text = ['N', 'a', 'N'] then some .nan
  else if text = ['i', 'n', 'f'] then some .infinity
  else if text = ['-', 'i', 'n', 'f'] then some .negInfinity
  else Function.partialInv (fun x : F64 => signedDigits x.isNegative x.magnitude) text

theorem plainFloat_signedDigits (x : F64) :
    plainFloat (signedDigits x.isNegative x.magnitude) = some x := by
  have letter : ∀ c ∈ ['N', 'i', 'n'], c ∉ signedDigits x.isNegative x.magnitude := by
    intro c letter member
    have kinds : c = '-' ∨ c ∈ decimal x.magnitude := by
      cases sign : x.isNegative <;> simp [signedDigits, sign] at member
      · exact .inr member
      · exact member
    rcases kinds with rfl | digit
    · exact absurd letter (by decide)
    · have digit := isDigit_decimal digit
      simp only [List.mem_cons, List.not_mem_nil, or_false] at letter
      rcases letter with rfl | rfl | rfl <;> exact absurd digit (by decide)
  rw [plainFloat, if_neg, if_neg, if_neg]
  · exact Function.partialInv_left plainFloat_injective x
  · exact fun same => letter 'i' (by decide) (same ▸ by decide)
  · exact fun same => letter 'i' (by decide) (same ▸ by decide)
  · exact fun same => letter 'N' (by decide) (same ▸ by decide)

/-- Formats that print what the model keeps, and read what they print. -/
noncomputable def Formats.plain : Formats where
  digits x := signedDigits x.isNegative x.magnitude
  parseFloat := plainFloat
  ofUnsigned value := ⟨value⟩
  ofSigned value := ⟨value.toUInt64⟩
  ymd := dayDigits
  parseYmd text :=
    (Function.partialInv (fun date : {date : NaiveDate // date.hasShortYear = true} =>
        dayDigits date.1) text).map Subtype.val
  parseTime _ text := (Function.partialInv
      (fun time : {time : NaiveTime // time.Valid ∧ time.isCalendar = true} =>
        formatTime time.1) text).map Subtype.val
  parseDateTime _ text := (Function.partialInv (fun value : {value : DateTime //
          value.Valid ∧ value.h4Representable = true} =>
        dateTimeText dayDigits value.1) text).map Subtype.val
  displayDate date := signedDigits (date.days < 0) date.days.natAbs
  parseDate := Function.partialInv fun date : NaiveDate =>
    signedDigits (date.days < 0) date.days.natAbs
  plainDigits x _ := plainDigits_signedDigits x.isNegative x.magnitude
  parseFloat_digits x _ := plainFloat_signedDigits x
  parseFloat_nan := rfl
  parseFloat_inf := rfl
  parseFloat_negInf := rfl
  isYmd_ymd date _ := isYmd_dayDigits date
  parseYmd_ymd date short := by
    have injective : Function.Injective
        fun date : {date : NaiveDate // date.hasShortYear = true} =>
          dayDigits date.1 :=
      fun left right same =>
        Subtype.ext (dayDigits_injective _ _ left.2 right.2 same)
    rw [Function.partialInv_left injective ⟨date, short⟩]
    rfl
  parseTime_formatTime time valid := by
    have injective : Function.Injective
        fun time : {time : NaiveTime // time.Valid ∧ time.isCalendar = true} =>
          formatTime time.1 :=
      fun left right same => Subtype.ext
        (formatTime_injective left.2.1 right.2.1 left.2.2 right.2.2 same)
    rw [← formatTime_normalized time,
      Function.partialInv_left injective ⟨time.normalized, valid_normalized valid⟩]
    rfl
  parseDateTime_text format value valid exact _ := by
    have injective : Function.Injective fun value : {value : DateTime //
            value.Valid ∧ value.h4Representable = true} =>
          dateTimeText dayDigits value.1 :=
      fun left right same => Subtype.ext
        (dateTimeText_injective (fun date _ => length_dayDigits date)
          dayDigits_injective left.2.1 right.2.1 left.2.2 right.2.2 same)
    rw [Function.partialInv_left injective ⟨value, valid, exact⟩]
    rfl
  parseDate_displayDate date _ := by
    have injective : Function.Injective fun date : NaiveDate =>
        signedDigits (date.days < 0) date.days.natAbs := by
      intro left right same
      obtain ⟨sign, magnitude⟩ := signedDigits_injective same
      rw [decide_eq_decide] at sign
      cases left
      cases right
      simp only [NaiveDate.mk.injEq] at *
      omega
    exact Function.partialInv_left injective date

end Haystack
