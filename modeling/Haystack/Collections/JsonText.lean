import Haystack.Collections.Text

/-!
# Compact JSON text

The documents that a serializer writes, and their text without white space.  A
control character, a quote and a backslash are escaped.  A text determines the
document it was written from: a reader of such texts gives it back.
-/

namespace Haystack
namespace Collections
namespace JsonText

/-- What a serializer writes.  Integers are those of 64 bits. -/
inductive Doc
  | null
  | bool (value : Bool)
  | int (value : Int64)
  | string (value : String)
  | array (items : List Doc)
  | object (fields : List (String × Doc))
  deriving Repr

/-! ## Strings and integers -/

/-- A character in a quoted text. -/
def escapeChar (c : Char) : List Char :=
  if c = '"' then ['\\', '"']
  else if c = '\\' then ['\\', '\\']
  else if c = '\x08' then ['\\', 'b']
  else if c = '\x0c' then ['\\', 'f']
  else if c = '\n' then ['\\', 'n']
  else if c = '\r' then ['\\', 'r']
  else if c = '\t' then ['\\', 't']
  else if c.toNat < 32 then
    ['\\', 'u', '0', '0', Nat.digitChar (c.toNat / 16), Nat.digitChar (c.toNat % 16)]
  else [c]

/-- The characters of a text, each escaped. -/
def escaped (text : List Char) : List Char := text.flatMap escapeChar

/-- A text between quotes. -/
def quote (text : List Char) : List Char := '"' :: escaped text ++ ['"']

/-- Put a character in front of a text that is read. -/
def prepend (c : Char) (read : Option (List Char × List Char)) : Option (List Char × List Char) :=
  read.map fun (text, after) => (c :: text, after)

/-- Read a text up to the closing quote. -/
def readString : List Char → Option (List Char × List Char)
  | '"' :: rest => some ([], rest)
  | '\\' :: '"' :: rest => prepend '"' (readString rest)
  | '\\' :: '\\' :: rest => prepend '\\' (readString rest)
  | '\\' :: 'b' :: rest => prepend '\x08' (readString rest)
  | '\\' :: 'f' :: rest => prepend '\x0c' (readString rest)
  | '\\' :: 'n' :: rest => prepend '\n' (readString rest)
  | '\\' :: 'r' :: rest => prepend '\r' (readString rest)
  | '\\' :: 't' :: rest => prepend '\t' (readString rest)
  | '\\' :: 'u' :: '0' :: '0' :: high :: low :: rest =>
    match hexDigit high, hexDigit low with
    | some high, some low =>
      prepend (Char.ofNat (16 * high + low)) (readString rest)
    | _, _ => none
  | '\\' :: _ => none
  | c :: rest => prepend c (readString rest)
  | [] => none

/-- An escaped character is read back. -/
theorem readString_escapeChar (c : Char) (rest : List Char) :
    readString (escapeChar c ++ rest) = prepend c (readString rest) := by
  unfold escapeChar
  split_ifs with quote backslash backspace feed newline carriage tab control
  · subst quote
    rfl
  · subst backslash
    rfl
  · subst backspace
    rfl
  · subst feed
    rfl
  · subst newline
    rfl
  · subst carriage
    rfl
  · subst tab
    rfl
  · have high := hexDigit_digitChar (c.toNat / 16) (by omega)
    have low := hexDigit_digitChar (c.toNat % 16) (Nat.mod_lt _ (by decide))
    have code : 16 * (c.toNat / 16) + c.toNat % 16 = c.toNat := Nat.div_add_mod _ _
    simp only [List.cons_append, List.nil_append]
    rw [readString, high, low]
    simp [code]
  · rw [readString.eq_def]
    split <;> simp_all

/-- A quoted text is read back, whatever follows it. -/
theorem readString_escaped (text rest : List Char) :
    readString (escaped text ++ '"' :: rest) = some (text, rest) := by
  induction text with
  | nil => rfl
  | cons c text ih =>
    have split : escaped (c :: text) = escapeChar c ++ escaped text := rfl
    rw [split, List.append_assoc, readString_escapeChar, ih]
    rfl

/-- The decimal digits of an integer. -/
def intText (value : Int) : List Char :=
  if value < 0 then '-' :: decimal value.natAbs else decimal value.natAbs

/-- Read the digits at the start of a text. -/
def readNat (text : List Char) : Option (Nat × List Char) :=
  (parseDecimal (text.takeWhile Char.isDigit)).map fun value =>
    (value, text.dropWhile Char.isDigit)

/-- Read an integer of 64 bits at the start of a text. -/
def readInt (text : List Char) : Option (Int64 × List Char) := do
  let (value, rest) ← match text with
    | '-' :: digits => (readNat digits).map fun (value, rest) => (-(value : Int), rest)
    | digits => (readNat digits).map fun (value, rest) => ((value : Int), rest)
  if -2 ^ 63 ≤ value ∧ value < 2 ^ 63 then some (Int64.ofInt value, rest) else none

/-- What may follow a number: no digit. -/
def Stops (rest : List Char) : Prop := ∀ c, rest.head? = some c → c.isDigit = false

theorem stops_nil : Stops [] := fun _ first => by cases first

theorem stops_cons {c : Char} (rest : List Char) (other : c.isDigit = false) :
    Stops (c :: rest) := by
  rintro _ ⟨⟩
  exact other

theorem isDigit_decimal {n : Nat} {c : Char} (member : c ∈ decimal n) : c.isDigit = true := by
  obtain ⟨low, high⟩ := isDigit_of_mem_decimal member
  simp only [Char.isDigit, Bool.and_eq_true, decide_eq_true_eq]
  exact ⟨low, high⟩

theorem decimal_ne_nil (n : Nat) : decimal n ≠ [] := by
  intro empty
  have read := parseDecimal_decimal n
  rw [empty] at read
  cases read

variable {rest : List Char}

theorem readNat_decimal (n : Nat) (stops : Stops rest) :
    readNat (decimal n ++ rest) = some (n, rest) := by
  have digits : ∀ c ∈ decimal n, c.isDigit = true := fun c => isDigit_decimal
  have none : rest.takeWhile Char.isDigit = [] ∧ rest.dropWhile Char.isDigit = rest := by
    cases rest with
    | nil => exact ⟨rfl, rfl⟩
    | cons c =>
      have other := stops c rfl
      exact ⟨List.takeWhile_cons_of_neg (by simp [other]),
        List.dropWhile_cons_of_neg (by simp [other])⟩
  rw [readNat, List.takeWhile_append_of_pos digits, List.dropWhile_append_of_pos digits,
    none.1, none.2, List.append_nil, parseDecimal_decimal]
  rfl

theorem readInt_intText (value : Int64) (stops : Stops rest) :
    readInt (intText value.toInt ++ rest) = some (value, rest) := by
  have low := value.le_toInt
  have high := value.toInt_lt
  have within : -2 ^ 63 ≤ value.toInt ∧ value.toInt < 2 ^ 63 := ⟨low, high⟩
  rw [intText]
  split
  · have magnitude : -((value.toInt.natAbs : Nat) : Int) = value.toInt := by omega
    simp only [List.cons_append, readInt, readNat_decimal _ stops, Option.map_some,
      bind, Option.bind, magnitude]
    rw [if_pos within, Int64.ofInt_toInt]
  · have magnitude : ((value.toInt.natAbs : Nat) : Int) = value.toInt := by omega
    obtain ⟨c, digits, shape⟩ := List.exists_cons_of_ne_nil (decimal_ne_nil value.toInt.natAbs)
    have unsigned : c ≠ '-' := by
      rintro rfl
      have digit := isDigit_decimal (n := value.toInt.natAbs) (c := '-') (by simp [shape])
      revert digit
      decide
    have read := readNat_decimal value.toInt.natAbs stops
    rw [shape] at read ⊢
    rw [readInt.eq_def]
    split
    · next digits same =>
      exact absurd (List.cons.inj same).1 unsigned
    · simp only [read, Option.map_some, bind, Option.bind, magnitude]
      rw [if_pos within, Int64.ofInt_toInt]

/-! ## Documents -/

mutual

/-- The text of a document. -/
def write : Doc → List Char
  | .null => ['n', 'u', 'l', 'l']
  | .bool true => ['t', 'r', 'u', 'e']
  | .bool false => ['f', 'a', 'l', 's', 'e']
  | .int value => intText value.toInt
  | .string text => quote text.toList
  | .array [] => ['[', ']']
  | .array (first :: rest) => '[' :: write first ++ writeItems rest
  | .object [] => ['\x7b', '\x7d']
  | .object ((name, value) :: rest) =>
    '\x7b' :: quote name.toList ++ ':' :: write value ++ writeFields rest

/-- The items of an array after the first, up to the closing bracket. -/
def writeItems : List Doc → List Char
  | [] => [']']
  | item :: rest => ',' :: write item ++ writeItems rest

/-- The fields of an object after the first, up to the closing brace. -/
def writeFields : List (String × Doc) → List Char
  | [] => ['\x7d']
  | (name, value) :: rest =>
    ',' :: quote name.toList ++ ':' :: write value ++ writeFields rest

end

/-- Read one of the three words. -/
def readWord : List Char → Option (Doc × List Char)
  | 'n' :: 'u' :: 'l' :: 'l' :: after => some (.null, after)
  | 't' :: 'r' :: 'u' :: 'e' :: after => some (.bool true, after)
  | 'f' :: 'a' :: 'l' :: 's' :: 'e' :: after => some (.bool false, after)
  | _ => none

/-- Read what is in brackets: nothing up to the closing one, or a first part and
the others. -/
def readBracketed (closing : Char) (readFirst : List Char → Option (α × List Char))
    (readOthers : List Char → Option (List α × List Char))
    (text : List Char) : Option (List α × List Char) :=
  if text.head? = some closing then some ([], text.tail)
  else do
    let (first, after) ← readFirst text
    let (others, after) ← readOthers after
    some (first :: others, after)

mutual

/-- Read a document at the start of a text. -/
def readDoc : Nat → List Char → Option (Doc × List Char)
  | 0, _ => none
  | _ + 1, [] => none
  | fuel + 1, c :: rest =>
    if c = '-' || c.isDigit then
      (readInt (c :: rest)).map fun (value, after) => (.int value, after)
    else if c = '"' then
      (readString rest).map fun (text, after) =>
        (.string (String.ofList text), after)
    else if c = '[' then
      (readBracketed ']' (readDoc fuel) (readItems fuel) rest).map
        fun (items, after) => (.array items, after)
    else if c = '\x7b' then
      (readBracketed '\x7d' (readField fuel) (readFields fuel) rest).map
        fun (fields, after) => (.object fields, after)
    else readWord (c :: rest)

/-- Read the items of an array after the first. -/
def readItems : Nat → List Char → Option (List Doc × List Char)
  | fuel + 1, ',' :: rest => do
    let (first, after) ← readDoc fuel rest
    let (others, after) ← readItems fuel after
    some (first :: others, after)
  | _ + 1, ']' :: rest => some ([], rest)
  | _, _ => none

/-- Read a field. -/
def readField : Nat → List Char → Option ((String × Doc) × List Char)
  | fuel + 1, '"' :: rest =>
    match readString rest with
    | some (name, ':' :: after) =>
      (readDoc fuel after).map fun (value, after) =>
        ((String.ofList name, value), after)
    | _ => none
  | _, _ => none

/-- Read the fields of an object after the first. -/
def readFields : Nat → List Char → Option (List (String × Doc) × List Char)
  | fuel + 1, ',' :: rest => do
    let (first, after) ← readField fuel rest
    let (others, after) ← readFields fuel after
    some (first :: others, after)
  | _ + 1, '\x7d' :: rest => some ([], rest)
  | _, _ => none

end

/-- Read a text that is a document. -/
def read (text : List Char) : Option Doc :=
  match readDoc (text.length + 1) text with
  | some (doc, []) => some doc
  | _ => none

theorem stops_writeItems (items : List Doc) (rest : List Char) :
    Stops (writeItems items ++ rest) := by
  cases items with
  | nil | cons item items => exact stops_cons _ (by decide)

theorem stops_writeFields (fields : List (String × Doc)) (rest : List Char) :
    Stops (writeFields fields ++ rest) := by
  cases fields with
  | nil | cons field fields => exact stops_cons _ (by decide)

/-- A text starts with a character that closes nothing. -/
theorem write_ne_closing (doc : Doc) (rest : List Char) :
    ∃ c text, write doc ++ rest = c :: text ∧ c ≠ ']' := by
  cases doc with
  | null | string => exact ⟨_, _, rfl, by decide⟩
  | bool value => cases value <;> exact ⟨_, _, rfl, by decide⟩
  | int value =>
    rw [write, intText]
    split
    · exact ⟨_, _, rfl, by decide⟩
    · obtain ⟨c, digits, shape⟩ := List.exists_cons_of_ne_nil (decimal_ne_nil value.toInt.natAbs)
      refine ⟨c, digits ++ rest, by rw [shape]; rfl, ?_⟩
      rintro rfl
      have digit := isDigit_decimal (n := value.toInt.natAbs) (c := ']') (by simp [shape])
      revert digit
      decide
  | array items => cases items <;> exact ⟨_, _, rfl, by decide⟩
  | object fields => cases fields <;> exact ⟨_, _, rfl, by decide⟩

theorem readDoc_int (value : Int64) {fuel : Nat} (stops : Stops rest) :
    readDoc (fuel + 1) (intText value.toInt ++ rest) = some (.int value, rest) := by
  have read := readInt_intText value stops
  obtain ⟨c, text, shape, numeric⟩ : ∃ c text,
      intText value.toInt ++ rest = c :: text ∧ (c = '-' || c.isDigit) = true := by
    rw [intText]
    split
    · exact ⟨_, _, rfl, by decide⟩
    · obtain ⟨c, digits, shape⟩ := List.exists_cons_of_ne_nil (decimal_ne_nil value.toInt.natAbs)
      have digit := isDigit_decimal (n := value.toInt.natAbs) (c := c) (by simp [shape])
      exact ⟨c, digits ++ rest, by rw [shape]; rfl, by simp [digit]⟩
  rw [shape] at read ⊢
  rw [readDoc, if_pos numeric, read]
  rfl

theorem quote_append (text rest : List Char) :
    quote text ++ rest = '"' :: (escaped text ++ '"' :: rest) := by
  simp [quote]

theorem readDoc_quote (text rest : List Char) (fuel : Nat) :
    readDoc (fuel + 1) (quote text ++ rest) = some (.string (String.ofList text), rest) := by
  rw [quote_append, readDoc, readString_escaped]
  rfl

theorem readField_quote (name : String) {value : Doc} {text after : List Char} {fuel : Nat}
    (read : readDoc fuel text = some (value, after)) :
    readField (fuel + 1) (quote name.toList ++ ':' :: text) = some ((name, value), after) := by
  rw [quote_append, readField, readString_escaped]
  simp [read]

/-- Brackets around something are read part by part. -/
theorem readBracketed_eq {closing : Char} {readFirst : List Char → Option (α × List Char)}
    {readOthers : List Char → Option (List α × List Char)}
    {text middle after : List Char} {first : α} {others : List α}
    (opens : text.head? ≠ some closing) (head : readFirst text = some (first, middle))
    (tail : readOthers middle = some (others, after)) :
    readBracketed closing readFirst readOthers text = some (first :: others, after) := by
  rw [readBracketed, if_neg opens, head]
  simp [tail]

mutual

/-- A document is read back from its text, whatever follows it. -/
theorem readDoc_write (doc : Doc) (fuel : Nat) {rest : List Char}
    (enough : (write doc).length ≤ fuel) (stops : Stops rest) :
    readDoc fuel (write doc ++ rest) = some (doc, rest) := by
  match doc, fuel, enough with
  | doc, 0, enough =>
    obtain ⟨c, text, shape, -⟩ := write_ne_closing doc []
    rw [List.append_nil] at shape
    rw [shape] at enough
    cases enough
  | .null, fuel + 1, _ => rfl
  | .bool true, fuel + 1, _ => rfl
  | .bool false, fuel + 1, _ => rfl
  | .int value, fuel + 1, _ => exact readDoc_int value stops
  | .string text, fuel + 1, _ => rw [write, readDoc_quote, String.ofList_toList]
  | .array [], fuel + 1, _ => rfl
  | .array (first :: others), fuel + 1, enough =>
    rw [write, List.length_append, List.length_cons] at enough
    obtain ⟨c, text, shape, opens⟩ := write_ne_closing first (writeItems others ++ rest)
    have head := readDoc_write first fuel (by omega) (stops_writeItems others rest)
    have tail := readItems_writeItems others fuel rest (by omega)
    have unclosed : (write first ++ (writeItems others ++ rest)).head? ≠ some ']' := by
      rw [shape]
      simpa using opens
    rw [write, List.cons_append, List.cons_append, List.append_assoc, readDoc,
      if_neg (by decide), if_neg (by decide), if_pos rfl,
      readBracketed_eq unclosed head tail]
    rfl
  | .object [], fuel + 1, _ => rfl
  | .object ((name, value) :: others), fuel + 1, enough =>
    have head := readField_write name value fuel
      (by simp [write] at enough ⊢; omega) (stops_writeFields others rest)
    have tail := readFields_writeFields others fuel rest (by simp [write] at enough; omega)
    have unclosed : (quote name.toList ++ ':' ::
        (write value ++ (writeFields others ++ rest))).head? ≠ some '\x7d' := by
      simp [quote]
    have shape : write (.object ((name, value) :: others)) ++ rest =
        '\x7b' :: (quote name.toList ++ ':' ::
          (write value ++ (writeFields others ++ rest))) := by
      simp [write]
    rw [shape, readDoc, if_neg (by decide), if_neg (by decide),
      if_neg (by decide), if_pos rfl, readBracketed_eq unclosed head tail]
    rfl
termination_by fuel

theorem readField_write (name : String) (value : Doc) (fuel : Nat) {rest : List Char}
    (enough : (quote name.toList ++ ':' :: write value).length ≤ fuel) (stops : Stops rest) :
    readField fuel (quote name.toList ++ ':' :: (write value ++ rest)) =
      some ((name, value), rest) := by
  match fuel, enough with
  | fuel + 1, enough =>
    refine readField_quote name (readDoc_write value fuel ?_ stops)
    simp at enough
    omega
termination_by fuel

theorem readItems_writeItems (items : List Doc) (fuel : Nat) (rest : List Char)
    (enough : (writeItems items).length ≤ fuel) :
    readItems fuel (writeItems items ++ rest) = some (items, rest) := by
  match items, fuel, enough with
  | [], fuel + 1, _ => rfl
  | item :: others, fuel + 1, enough =>
    rw [writeItems, List.length_append, List.length_cons] at enough
    have head := readDoc_write item fuel (by omega) (stops_writeItems others rest)
    have tail := readItems_writeItems others fuel rest (by omega)
    rw [writeItems, List.cons_append, List.cons_append, List.append_assoc, readItems, head]
    simp only [bind, Option.bind, tail]
termination_by fuel

theorem readFields_writeFields (fields : List (String × Doc)) (fuel : Nat) (rest : List Char)
    (enough : (writeFields fields).length ≤ fuel) :
    readFields fuel (writeFields fields ++ rest) = some (fields, rest) := by
  match fields, fuel, enough with
  | [], fuel + 1, _ => rfl
  | (name, value) :: others, fuel + 1, enough =>
    have head := readField_write name value fuel
      (by simp [writeFields] at enough ⊢; omega) (stops_writeFields others rest)
    have tail := readFields_writeFields others fuel rest (by simp [writeFields] at enough; omega)
    have shape : writeFields ((name, value) :: others) ++ rest =
        ',' :: (quote name.toList ++ ':' :: (write value ++ (writeFields others ++ rest))) := by
      simp [writeFields]
    rw [shape, readFields, head]
    simp only [bind, Option.bind, tail]
termination_by fuel

end

/-- A document is read back from its text. -/
theorem read_write (doc : Doc) : read (write doc) = some doc := by
  have whole := readDoc_write doc ((write doc).length + 1) (by omega) stops_nil
  rw [List.append_nil] at whole
  rw [read, whole]

end JsonText
end Collections
end Haystack
