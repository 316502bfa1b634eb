import Haystack.Collections.Bytes

/-!
# Texts

Texts as lists of characters: their UTF-8 bytes, decimal numbers, fields between
separators, the padded base64 alphabet, and hexadecimal digits.  What is printed
is parsed again.
-/

namespace Haystack
namespace Collections

/-! ## Bytes of a text -/

/-- The UTF-8 bytes of a text. -/
def utf8Bytes (text : List Char) : List UInt8 := text.flatMap String.utf8EncodeChar

/-- The number of UTF-8 bytes of a text. -/
def utf8Length (text : List Char) : Nat := (text.map Char.utf8Size).sum

/-- The text of UTF-8 bytes. -/
def ofUtf8 (bytes : List UInt8) : Option (List Char) :=
  bytes.toByteArray.utf8Decode?.map Array.toList

@[simp] theorem ofUtf8_utf8Bytes (text : List Char) : ofUtf8 (utf8Bytes text) = some text := by
  have decoded : text.utf8Encode.utf8Decode? = some text.toArray := List.utf8Decode?_utf8Encode
  rw [List.utf8Encode] at decoded
  simp [ofUtf8, utf8Bytes, decoded]

@[simp] theorem length_utf8Bytes (text : List Char) :
    (utf8Bytes text).length = utf8Length text := by
  simp [utf8Bytes, utf8Length]

theorem utf8Bytes_append (left right : List Char) :
    utf8Bytes (left ++ right) = utf8Bytes left ++ utf8Bytes right :=
  List.flatMap_append

theorem utf8Bytes_injective : Function.Injective utf8Bytes := by
  intro left right same
  have decoded := congrArg ofUtf8 same
  simpa using decoded

@[simp] theorem utf8Length_nil : utf8Length [] = 0 := rfl

@[simp] theorem utf8Length_cons (c : Char) (text : List Char) :
    utf8Length (c :: text) = c.utf8Size + utf8Length text := rfl

@[simp] theorem utf8Length_append (left right : List Char) :
    utf8Length (left ++ right) = utf8Length left + utf8Length right := by
  simp [utf8Length]

variable {c : Char}

theorem utf8Size_of_ascii (ascii : c.toNat ≤ 0x7f) : c.utf8Size = 1 := by
  have small : c.val ≤ 0x7f := UInt32.le_iff_toNat_le.mpr ascii
  exact if_pos small

variable {text : List Char}

theorem utf8Length_pos (some : text ≠ []) : 0 < utf8Length text := by
  cases text with
  | nil => exact absurd rfl some
  | cons c =>
    have size := c.utf8Size_pos
    rw [utf8Length_cons]
    omega

/-- A text of one-byte characters is as long as it has characters. -/
theorem utf8Length_eq_length (single : ∀ c ∈ text, c.utf8Size = 1) :
    utf8Length text = text.length := by
  induction text with
  | nil => rfl
  | cons c text ih =>
    rw [utf8Length_cons, single c List.mem_cons_self, ih fun other member =>
        single other (List.mem_cons_of_mem c member),
      List.length_cons, Nat.add_comm]

/-! ## Decimal numbers -/

/-- The decimal digits of a number. -/
def decimal (n : Nat) : List Char :=
  if n = 0 then ['0'] else ((Nat.digits 10 n).map Nat.digitChar).reverse

/-- The value of a decimal digit. -/
def digitValue (c : Char) : Option Nat :=
  if 48 ≤ c.toNat ∧ c.toNat ≤ 57 then some (c.toNat - 48) else none

/-- The number that decimal digits stand for. -/
def parseDecimal (text : List Char) : Option Nat :=
  if text.isEmpty then none
  else text.foldlM (fun n c => (digitValue c).map (n * 10 + ·)) 0

theorem digitValue_digitChar : ∀ digit < 10, digitValue (Nat.digitChar digit) = some digit := by
  decide

private theorem foldlM_digits (digits : List Nat) (small : ∀ d ∈ digits, d < 10) :
    ((digits.map Nat.digitChar).reverse.foldlM (fun n c => (digitValue c).map (n * 10 + ·)) 0) =
        some (Nat.ofDigits 10 digits) := by
  induction digits with
  | nil => rfl
  | cons digit digits ih =>
    rw [List.map_cons, List.reverse_cons, List.foldlM_append,
      ih fun d member => small d (List.mem_cons_of_mem _ member)]
    simp [digitValue_digitChar digit (small digit List.mem_cons_self),
      Nat.ofDigits_cons, Nat.mul_comm, Nat.add_comm]

theorem parseDecimal_decimal (n : Nat) : parseDecimal (decimal n) = some n := by
  unfold parseDecimal decimal
  split_ifs with zero empty empty
  · cases empty
  · subst zero
    rfl
  · simp [Nat.digits_eq_nil_iff_eq_zero, zero] at empty
  · rw [foldlM_digits _ fun d member => Nat.digits_lt_base (by decide) member,
      Nat.ofDigits_digits]

theorem isDigit_of_mem_decimal {n : Nat} (member : c ∈ decimal n) :
    48 ≤ c.toNat ∧ c.toNat ≤ 57 := by
  unfold decimal at member
  split at member
  · rw [List.mem_singleton.mp member]
    decide
  · rw [List.mem_reverse, List.mem_map] at member
    obtain ⟨digit, listed, rfl⟩ := member
    have small : digit < 10 := Nat.digits_lt_base (by decide) listed
    interval_cases digit <;> decide

theorem length_decimal_le {n width : Nat} (positive : 0 < width) (small : n < 10 ^ width) :
    (decimal n).length ≤ width := by
  unfold decimal
  split
  · exact positive
  · rw [List.length_reverse, List.length_map]
    exact (Nat.digits_length_le_iff (by decide) n).mpr small

/-! ## Fields -/

/-- `str::split_once`: the texts around the first occurrence of a pattern. -/
def splitOnce (pattern : List Char) : List Char → Option (List Char × List Char)
  | [] => if pattern.isEmpty then some ([], []) else none
  | c :: rest =>
    match (c :: rest).dropPrefix? pattern with
    | some after => some ([], after)
    | none => (splitOnce pattern rest).map fun (left, right) => (c :: left, right)

theorem splitOnce_eq_some {pattern left right : List Char}
    (found : splitOnce pattern text = some (left, right)) : text = left ++ pattern ++ right := by
  induction text generalizing left with
  | nil =>
    rw [splitOnce] at found
    split at found
    · next empty =>
      cases found
      rw [List.isEmpty_iff.mp empty]
      rfl
    · cases found
  | cons c rest ih =>
    rw [splitOnce] at found
    split at found
    · next after dropped =>
      cases found
      obtain ⟨_, same, equal⟩ := List.dropPrefix?_eq_some_iff.mp dropped
      rw [same, eq_of_beq equal]
      rfl
    · obtain ⟨⟨_, _⟩, inner, same⟩ := Option.map_eq_some_iff.mp found
      cases same
      rw [ih inner]
      rfl

/-- A pattern whose first character does not occur before it is found. -/
theorem splitOnce_append {first : Char} {pattern left : List Char} (right : List Char)
    (absent : first ∉ left) :
    splitOnce (first :: pattern) (left ++ first :: pattern ++ right) = some (left, right) := by
  induction left with
  | nil =>
    rw [List.nil_append, List.cons_append, splitOnce]
    have dropped : (first :: (pattern ++ right)).dropPrefix? (first :: pattern) = some right :=
      List.dropPrefix?_eq_some_iff.mpr ⟨first :: pattern, rfl, by simp⟩
    rw [dropped]
  | cons c left ih =>
    rw [List.mem_cons, not_or] at absent
    rw [List.cons_append, List.cons_append, splitOnce]
    have kept : (c :: (left ++ first :: pattern ++ right)).dropPrefix?
        (first :: pattern) = none := by
      rw [List.dropPrefix?]
      simp [Ne.symm absent.1]
    rw [kept, ih absent.2]
    rfl

/-- A character is found where it occurs first. -/
theorem splitOnce_singleton {left : List Char} (right : List Char) (absent : c ∉ left) :
    splitOnce [c] (left ++ c :: right) = some (left, right) := by
  have found := @splitOnce_append c [] left right absent
  rwa [List.append_assoc] at found

/-- A character that does not occur is not found. -/
theorem splitOnce_eq_none (absent : c ∉ text) : splitOnce [c] text = none := by
  cases found : splitOnce [c] text with
  | none => rfl
  | some =>
    have whole := splitOnce_eq_some found
    exact absurd (by simp [whole]) absent

/-- A character that occurs is found. -/
theorem exists_splitOnce (member : c ∈ text) :
    ∃ left right, splitOnce [c] text = some (left, right) := by
  obtain ⟨left, right, rfl, absent⟩ := List.eq_append_cons_of_mem member
  exact ⟨left, right, splitOnce_singleton right absent⟩

@[simp] theorem dropPrefix?_append (pattern right : List Char) :
    (pattern ++ right).dropPrefix? pattern = some right :=
  List.dropPrefix?_eq_some_iff.mpr ⟨pattern, rfl, by simp⟩

theorem dropPrefix?_eq_some {pattern text right : List Char} :
    text.dropPrefix? pattern = some right ↔ text = pattern ++ right := by
  rw [List.dropPrefix?_eq_some_iff]
  simp

/-- Fields with a separator between them. -/
def joined (separator : Char) (fields : List (List Char)) : List Char :=
  [separator].intercalate fields

variable {separator : Char}

theorem splitOn_joined {fields : List (List Char)} (free : ∀ field ∈ fields, separator ∉ field)
    (some : fields ≠ []) : (joined separator fields).splitOn separator = fields :=
  List.splitOn_intercalate separator free some

theorem joined_splitOn (separator : Char) (text : List Char) :
    joined separator (text.splitOn separator) = text :=
  List.intercalate_splitOn separator

/-- Fields without the separator are determined by their text. -/
theorem joined_injective {left right : List (List Char)}
    (leftFree : ∀ field ∈ left, separator ∉ field)
    (rightFree : ∀ field ∈ right, separator ∉ field) (leftSome : left ≠ [])
    (rightSome : right ≠ []) (same : joined separator left = joined separator right) :
    left = right := by
  rw [← splitOn_joined leftFree leftSome, same, splitOn_joined rightFree rightSome]

theorem joined_cons_cons (separator : Char) (first second : List Char) (rest : List (List Char)) :
    joined separator (first :: second :: rest) =
      first ++ separator :: joined separator (second :: rest) := by
  simp [joined]

@[simp] theorem joined_singleton (separator : Char) (field : List Char) :
    joined separator [field] = field := by
  simp [joined]

/-- No field contains the separator. -/
theorem not_mem_of_mem_splitOn {field : List Char} (member : field ∈ text.splitOn separator) :
    separator ∉ field := by
  unfold List.splitOn at member
  induction text generalizing field with
  | nil =>
    rw [List.splitOnP_nil, List.mem_singleton] at member
    rw [member]
    exact List.not_mem_nil
  | cons c text ih =>
    rw [List.splitOnP_cons_eq_if_modifyHead] at member
    split at member
    · rcases List.mem_cons.mp member with rfl | later
      · exact List.not_mem_nil
      · exact ih later
    · next different =>
      cases fields : List.splitOnP (· == separator) text with
      | nil => exact absurd fields (List.splitOnP_ne_nil _ _)
      | cons first =>
        rw [fields] at member
        rw [fields] at ih
        rcases List.mem_cons.mp member with rfl | later
        · rw [List.mem_cons, not_or]
          refine ⟨fun same => ?_, ih List.mem_cons_self⟩
          exact different (by simp [same])
        · exact ih (List.mem_cons_of_mem first later)

/-! ## Padded base64 -/

/-- The standard symbol for a symbol of the URL-safe alphabet. -/
def standardSymbol (c : Char) : Char :=
  if c = '-' then '+' else if c = '_' then '/' else c

/-- The URL-safe symbol for a standard symbol. -/
def urlSymbol (c : Char) : Option Char :=
  if c = '+' then some '-'
  else if c = '/' then some '_'
  else if c = '-' ∨ c = '_' then none
  else some c

/-- The symbols of bytes, padded to groups of four. -/
def standardEncode (bytes : List UInt8) : List Char :=
  (base64Encode bytes).map standardSymbol ++ List.replicate ((3 - bytes.length % 3) % 3) '='

/-- The text without its padding, which has at most two symbols. -/
def dropPadding (text : List Char) : List Char :=
  match text.reverse with
  | '=' :: '=' :: rest => rest.reverse
  | '=' :: rest => rest.reverse
  | rest => rest.reverse

/-- The bytes of padded symbols. -/
def standardDecode (text : List Char) : Option (List UInt8) :=
  if text.length % 4 ≠ 0 then none
  else ((dropPadding text).mapM urlSymbol).bind base64Decode

/-- What can be said of a symbol. -/
theorem base64Symbol_plain : ∀ index < 64,
    urlSymbol (standardSymbol (base64Symbol index)) = some (base64Symbol index) ∧
      0x21 ≤ (standardSymbol (base64Symbol index)).toNat ∧
      (standardSymbol (base64Symbol index)).toNat ≤ 0x7e ∧
      standardSymbol (base64Symbol index) ≠ ',' ∧
      standardSymbol (base64Symbol index) ≠ '=' ∧
      (standardSymbol (base64Symbol index)).utf8Size = 1 := by
  decide

theorem mapM_urlSymbol (bytes : List UInt8) :
    ((base64Encode bytes).map standardSymbol).mapM urlSymbol = some (base64Encode bytes) := by
  have symbols := exists_index_of_mem_base64Encode bytes
  generalize base64Encode bytes = encoded at symbols
  induction encoded with
  | nil => rfl
  | cons symbol rest ih =>
    obtain ⟨index, bound, rfl⟩ := symbols symbol List.mem_cons_self
    rw [List.map_cons, List.mapM_cons, (base64Symbol_plain index bound).1, ih fun other member =>
        symbols other (List.mem_cons_of_mem _ member)]
    rfl

theorem length_standardEncode (bytes : List UInt8) :
    (standardEncode bytes).length = (bytes.length + 2) / 3 * 4 := by
  rw [standardEncode, List.length_append, List.length_map, length_base64Encode,
    List.length_replicate]
  omega

theorem dropPadding_append {count : Nat} (few : count ≤ 2) (last : ∀ c ∈ text, c ≠ '=') :
    dropPadding (text ++ List.replicate count '=') = text := by
  have plain : dropPadding text = text := by
    unfold dropPadding
    split
    · next rest shape =>
      exact absurd rfl (last '=' (List.mem_reverse.mp (shape ▸ List.mem_cons_self)))
    · next rest _ shape =>
      exact absurd rfl (last '=' (List.mem_reverse.mp (shape ▸ List.mem_cons_self)))
    · exact List.reverse_reverse text
  interval_cases count
  · simpa using plain
  · unfold dropPadding
    simp only [List.replicate_one, List.reverse_append, List.reverse_singleton,
      List.singleton_append]
    split
    · next rest shape =>
      have second := (List.cons.inj shape).2
      exact absurd rfl (last '=' (List.mem_reverse.mp (second ▸ List.mem_cons_self)))
    · next rest _ shape =>
      rw [← (List.cons.inj shape).2, List.reverse_reverse]
    · next other => exact absurd rfl (other _)
  · unfold dropPadding
    simp

theorem standardSymbols (bytes : List UInt8) :
    ∀ symbol ∈ standardEncode bytes, 0x21 ≤ symbol.toNat ∧
      symbol.toNat ≤ 0x7e ∧ symbol ≠ ',' ∧ symbol.utf8Size = 1 := by
  intro symbol member
  rw [standardEncode, List.mem_append] at member
  rcases member with encoded | padding
  · obtain ⟨plain, listed, rfl⟩ := List.mem_map.mp encoded
    obtain ⟨index, bound, rfl⟩ := exists_index_of_mem_base64Encode bytes plain listed
    obtain ⟨_, low, high, comma, _, single⟩ := base64Symbol_plain index bound
    exact ⟨low, high, comma, single⟩
  · rw [(List.mem_replicate.mp padding).2]
    decide

theorem utf8Length_standardEncode (bytes : List UInt8) :
    utf8Length (standardEncode bytes) = (bytes.length + 2) / 3 * 4 := by
  rw [utf8Length_eq_length fun symbol member =>
    (standardSymbols bytes symbol member).2.2.2, length_standardEncode]

theorem standardDecode_encode (bytes : List UInt8) :
    standardDecode (standardEncode bytes) = some bytes := by
  have unpadded : dropPadding (standardEncode bytes) =
      (base64Encode bytes).map standardSymbol := by
    refine dropPadding_append (by omega) fun c member => ?_
    obtain ⟨plain, listed, rfl⟩ := List.mem_map.mp member
    obtain ⟨index, bound, rfl⟩ := exists_index_of_mem_base64Encode bytes plain listed
    exact (base64Symbol_plain index bound).2.2.2.2.1
  rw [standardDecode, length_standardEncode, if_neg (by omega), unpadded,
    mapM_urlSymbol, Option.bind_some, base64Decode_encode]

/-! ## Unpadded base64 -/

theorem utf8Length_base64Encode (bytes : List UInt8) :
    utf8Length (base64Encode bytes) = (bytes.length * 4 + 2) / 3 := by
  rw [utf8Length_eq_length (utf8Size_base64Encode bytes), length_base64Encode]

/-! ## Hexadecimal digits of a fixed width -/

/-- The value of a lower-case hexadecimal digit. -/
def hexDigit (c : Char) : Option Nat :=
  if 48 ≤ c.toNat ∧ c.toNat ≤ 57 then some (c.toNat - 48)
  else if 97 ≤ c.toNat ∧ c.toNat ≤ 102 then some (c.toNat - 87)
  else none

/-- A number as digits of a fixed width. -/
def fixedHex : Nat → Nat → List Char
  | 0, _ => []
  | width + 1, n => fixedHex width (n / 16) ++ [Nat.digitChar (n % 16)]

/-- The number that hexadecimal digits stand for. -/
def parseHex (text : List Char) : Option Nat :=
  text.foldlM (fun value c => (hexDigit c).map (value * 16 + ·)) 0

theorem hexDigit_digitChar : ∀ digit < 16, hexDigit (Nat.digitChar digit) = some digit := by
  decide

/-- A digit is the text of its value. -/
theorem digitChar_of_hexDigit {c : Char} {digit : Nat} (read : hexDigit c = some digit) :
    digit < 16 ∧ Nat.digitChar digit = c := by
  unfold hexDigit at read
  split_ifs at read with number letter
  · obtain rfl := Option.some.inj read
    refine ⟨by omega, ?_⟩
    have code : ∀ n, 48 ≤ n → n ≤ 57 → (Nat.digitChar (n - 48)).toNat = n := by
      intro n low high
      interval_cases n <;> rfl
    exact Char.toNat_inj.mp (code _ number.1 number.2)
  · obtain rfl := Option.some.inj read
    refine ⟨by omega, ?_⟩
    have code : ∀ n, 97 ≤ n → n ≤ 102 → (Nat.digitChar (n - 87)).toNat = n := by
      intro n low high
      interval_cases n <;> rfl
    exact Char.toNat_inj.mp (code _ letter.1 letter.2)

@[simp] theorem length_fixedHex (width n : Nat) : (fixedHex width n).length = width := by
  induction width generalizing n with
  | zero => rfl
  | succ width ih => simp [fixedHex, ih]

theorem parseHex_append (text : List Char) (c : Char) :
    parseHex (text ++ [c]) = (parseHex text).bind fun value =>
      (hexDigit c).map (value * 16 + ·) := by
  rw [parseHex, List.foldlM_append]
  congr 1
  funext value
  rw [List.foldlM_cons]
  cases hexDigit c <;> rfl

/-- A number is read back from its digits. -/
theorem parseHex_fixedHex {width n : Nat} (small : n < 16 ^ width) :
    parseHex (fixedHex width n) = some n := by
  induction width generalizing n with
  | zero =>
    obtain rfl : n = 0 := by omega
    rfl
  | succ width ih =>
    have quotient : n / 16 < 16 ^ width := by
      omega
    rw [fixedHex, parseHex_append, ih quotient, hexDigit_digitChar _ (Nat.mod_lt _ (by decide))]
    simp only [Option.bind_some, Option.map_some, Option.some.injEq]
    omega

/-- Digits are the text of the number they stand for. -/
theorem fixedHex_of_parseHex {text : List Char} {n : Nat} (read : parseHex text = some n) :
    n < 16 ^ text.length ∧ fixedHex text.length n = text := by
  induction text using List.reverseRecOn generalizing n with
  | nil =>
    obtain rfl := Option.some.inj read
    exact ⟨by decide, rfl⟩
  | append_singleton text c ih =>
    rw [parseHex_append] at read
    obtain ⟨value, front, last⟩ := Option.bind_eq_some_iff.mp read
    obtain ⟨digit, shown, rfl⟩ := Option.map_eq_some_iff.mp last
    obtain ⟨_, text_eq⟩ := ih front
    obtain ⟨_, char⟩ := digitChar_of_hexDigit shown
    have quotient : (value * 16 + digit) / 16 = value := by omega
    have remainder : (value * 16 + digit) % 16 = digit := by omega
    rw [List.length_append, List.length_singleton, fixedHex, quotient, remainder, text_eq, char]
    exact ⟨by omega, rfl⟩

end Collections
end Haystack
