import Haystack.Codecs.TypedExact

/-!
# Messages in typed payloads

A message is a dictionary with exactly the fields of its type, in a typed
payload.  Numbers are canonical decimal texts, identities are 32 lower-case
hexadecimal digits, and rows are kept as they are.  Every function that reads a
part is described by what it accepts: the part that is written for its result.
-/

namespace Haystack
namespace Codecs

open Collections
open Typed (TypedPayloadError)

/-- A message type: how it becomes a value, and how it is read from one. -/
structure EntityWire (T : Type) where
  toKind : T → Except TypedPayloadError Kind
  fromKind : Kind → Except TypedPayloadError T

namespace EntityWire

variable {T : Type} (wire : EntityWire T) (formats : Formats) (reader : Typed.JsonReader)

def encode (message : T) : Except TypedPayloadError (List UInt8) := do
  let value ← wire.toKind message
  Typed.encode formats reader value

def decode (bytes : List UInt8) : Except TypedPayloadError T := do
  let value ← Typed.decode formats reader bytes
  wire.fromKind value

end EntityWire

namespace Messages

/-! ## Parts of messages -/

def text (value : String) : Kind := .str value

/-- The decimal text of a number. -/
def decimalText (n : Nat) : String := String.ofList (decimal n)

def uint (n : Nat) : Kind := text (decimalText n)

/-- The digits of an identity of sixteen bytes. -/
def hexText (id : BitVec 128) : String := String.ofList (fixedHex 32 id.toNat)

def hex (id : BitVec 128) : Kind := text (hexText id)

/-- The dictionary of some entries, which are set one by one. -/
def dict (entries : List (String × Kind)) : Kind := .dict (Assoc.ofList entries)

/-- A row as a value. -/
def rowKind (row : HDict) : Kind := .dict row.iter

/-- The row of the tags of a value. -/
def rowOf (tags : List (String × Kind)) : HDict :=
  ⟨tags.foldl (fun map tag => map.insert tag.1 tag.2) ∅⟩

/-- Digits without their sign. -/
def unsigned : List Char → List Char
  | '+' :: digits => digits
  | digits => digits

/-- `str::parse` of an unsigned integer of 64 bits. -/
def parseU64 (digits : List Char) : Option Nat :=
  (parseDecimal (unsigned digits)).bind fun (n : Nat) =>
    if n ≤ u64Max then some n else none

section Reading

variable (failure : TypedPayloadError)

def parseNumber (digits : String) : Except TypedPayloadError Nat :=
  match parseU64 digits.toList with
  | none => .error failure
  | some n => if decimalText n = digits then .ok n else .error failure

/-- The identity of 32 lower-case hexadecimal digits. -/
def parseHexText (digits : String) : Except TypedPayloadError (BitVec 128) :=
  match parseHex digits.toList with
  | none => .error failure
  | some n =>
    if digits.toList.length = 32 then .ok (BitVec.ofNat 128 n)
    else .error failure

/-- The value of a field. -/
def field (tags : List (String × Kind)) (key : String) : Except TypedPayloadError Kind :=
  match Assoc.lookup key tags with
  | some value => .ok value
  | none => .error failure

def string (tags : List (String × Kind)) (key : String) : Except TypedPayloadError String :=
  match Assoc.lookup key tags with
  | some (.str value) => .ok value
  | _ => .error failure

def number (tags : List (String × Kind)) (key : String) : Except TypedPayloadError Nat := do
  let digits ← string failure tags key
  parseNumber failure digits

/-- The flag of a field. -/
def flag (tags : List (String × Kind)) (key : String) : Except TypedPayloadError Bool :=
  match Assoc.lookup key tags with
  | some (.bool value) => .ok value
  | _ => .error failure

/-- The list of a field. -/
def list (tags : List (String × Kind)) (key : String) : Except TypedPayloadError (List Kind) :=
  match Assoc.lookup key tags with
  | some (.list items) => .ok items
  | _ => .error failure

def checkedRow : Kind → Except TypedPayloadError HDict
  | .dict tags => .ok (rowOf tags)
  | _ => .error failure

end Reading

/-! ## What is read -/

section Reads

variable {failure : TypedPayloadError} {tags : List (String × Kind)} {key : String}

theorem unsigned_decimal (n : Nat) : unsigned (decimal n) = decimal n := by
  unfold unsigned
  split
  · next rest shape =>
    have digit : '+'.isDigit = true := JsonText.isDigit_decimal (n := n) (by simp [shape])
    exact absurd digit (by decide)
  · rfl

variable {n : Nat}

theorem parseU64_decimal (small : n ≤ u64Max) : parseU64 (decimal n) = some n := by
  rw [parseU64, unsigned_decimal, parseDecimal_decimal, Option.bind_some, if_pos small]

theorem le_of_parseU64 {digits : List Char} (read : parseU64 digits = some n) : n ≤ u64Max := by
  obtain ⟨_, -, same⟩ := Option.bind_eq_some_iff.mp read
  split at same
  · next small =>
    cases same
    exact small
  · cases same

variable {digits : String}

/-- A number is read from its decimal text alone. -/
theorem parseNumber_eq_ok :
    parseNumber failure digits = .ok n ↔ digits = decimalText n ∧ n ≤ u64Max := by
  unfold parseNumber
  constructor
  · intro read
    cases parsed : parseU64 digits.toList with
    | none =>
      rw [parsed] at read
      cases read
    | some =>
      rw [parsed] at read
      simp only at read
      split_ifs at read with canonical
      cases read
      exact ⟨canonical.symm, le_of_parseU64 parsed⟩
  · rintro ⟨rfl, small⟩
    have text : (decimalText n).toList = decimal n := String.toList_ofList
    rw [text, parseU64_decimal small]
    exact if_pos rfl

/-- An identity is read from its digits alone. -/
theorem parseHexText_eq_ok {id : BitVec 128} :
    parseHexText failure digits = .ok id ↔ digits = hexText id := by
  unfold parseHexText
  constructor
  · intro read
    cases parsed : parseHex digits.toList with
    | none =>
      rw [parsed] at read
      cases read
    | some value =>
      rw [parsed] at read
      split_ifs at read with length
      cases read
      obtain ⟨small, same⟩ := fixedHex_of_parseHex parsed
      rw [length] at small same
      have whole : (BitVec.ofNat 128 value).toNat = value := by
        exact Nat.mod_eq_of_lt (lt_of_lt_of_eq small (by decide))
      rw [hexText, whole, same, String.ofList_toList]
  · rintro rfl
    have text : (hexText id).toList = fixedHex 32 id.toNat := String.toList_ofList
    have small : id.toNat < 16 ^ 32 := lt_of_lt_of_eq id.isLt (by decide)
    rw [text, parseHex_fixedHex small]
    simp

@[simp] theorem parseHexText_hexText (id : BitVec 128) :
    parseHexText failure (hexText id) = .ok id :=
  parseHexText_eq_ok.mpr rfl

theorem parseNumber_decimalText (small : n ≤ u64Max) :
    parseNumber failure (decimalText n) = .ok n :=
  parseNumber_eq_ok.mpr ⟨rfl, small⟩

end Reads

/-! ## Rows -/

section Rows

theorem get_foldl_insert (tags : List (String × Kind)) (nodup : (tags.map Prod.fst).Nodup)
    (row : HDict) (name : String) :
    (HDict.mk (tags.foldl (fun map tag => map.insert tag.1 tag.2) row.tags)).get name =
      (Assoc.lookup name tags).or (row.get name) := by
  induction tags generalizing row with
  | nil => rfl
  | cons first rest ih =>
    obtain ⟨other, value⟩ := first
    obtain ⟨fresh, nodup⟩ := List.nodup_cons.mp nodup
    have step := ih nodup (row.set other value)
    rw [Assoc.lookup_cons]
    refine step.trans ?_
    rw [HDict.get_set]
    split
    · next same =>
      subst same
      rw [Assoc.lookup_eq_none fresh]
      rfl
    · rfl

theorem get_rowOf {tags : List (String × Kind)} (sorted : Assoc.Sorted tags) (name : String) :
    (rowOf tags).get name = Assoc.lookup name tags := by
  have folded := get_foldl_insert tags sorted.nodup_keys HDict.new name
  rw [HDict.get_new, Option.or_none] at folded
  exact folded

theorem sorted_iter (row : HDict) : Assoc.Sorted row.iter := Std.ExtTreeMap.ordered_keys_toList

/-- A row is rebuilt from its tags. -/
@[simp] theorem rowOf_iter (row : HDict) : rowOf row.iter = row := by
  refine HDict.ext_get fun name => ?_
  rw [get_rowOf (sorted_iter row)]
  cases found : row.get name with
  | none =>
    refine Assoc.lookup_eq_none fun member => ?_
    obtain ⟨_, listed, rfl⟩ := List.mem_map.mp member
    rw [HDict.mem_iter.mp listed] at found
    cases found
  | some =>
    exact Assoc.lookup_eq_some_of_mem (sorted_iter row).nodup_keys (HDict.mem_iter.mpr found)

end Rows

/-! ## Dictionaries -/

@[simp] theorem checkedRow_rowKind (failure : TypedPayloadError) (row : HDict) :
    checkedRow failure (rowKind row) = .ok row := by
  rw [rowKind, checkedRow, rowOf_iter]

/-- The entries of a map with the fields of a message, and no others. -/
structure HasFields (names : List String) (tags : List (String × Kind)) : Prop where
  length : tags.length = names.length
  listed : ∀ tag ∈ tags, tag.1 ∈ names

section Fields

variable {entries tags : List (String × Kind)}

theorem lookup_entry {key : String} {value : Kind} (nodup : (entries.map Prod.fst).Nodup)
    (member : (key, value) ∈ entries) : Assoc.lookup key (Assoc.ofList entries) = some value :=
  Assoc.lookup_ofList nodup member

theorem hasFields_ofList (nodup : (entries.map Prod.fst).Nodup) :
    HasFields (entries.map Prod.fst) (Assoc.ofList entries) where
  length := by rw [(Assoc.ofList_perm nodup).length_eq, List.length_map]
  listed tag member := List.mem_map_of_mem ((Assoc.mem_ofList nodup).mp member)

end Fields

/-! ## Well-formed messages -/

section WellFormed

@[simp] theorem wellFormed_text (value : String) : (text value).WellFormed :=
  Kind.everywhere_of_isScalar rfl trivial

@[simp] theorem wellFormed_uint (n : Nat) : (uint n).WellFormed := wellFormed_text _

@[simp] theorem wellFormed_hex (id : BitVec 128) : (hex id).WellFormed := wellFormed_text _

@[simp] theorem wellFormed_bool (value : Bool) : (Kind.bool value).WellFormed :=
  Kind.everywhere_of_isScalar rfl trivial

theorem wellFormed_list {items : List Kind} (each : ∀ item ∈ items, item.WellFormed) :
    (Kind.list items).WellFormed := by
  refine Kind.everywhere_of_contains trivial fun tag inner contains => ?_
  cases contains with
  | item member => exact each inner member

/-- A dictionary of well-formed values is well-formed. -/
theorem wellFormed_dict {entries : List (String × Kind)}
    (each : ∀ entry ∈ entries, entry.2.WellFormed) : (dict entries).WellFormed := by
  refine Kind.everywhere_of_contains (Assoc.sorted_ofList entries) fun tag inner contains => ?_
  cases contains with
  | entry member =>
    rcases Assoc.mem_foldl_insert member with member | member
    · exact each _ member
    · cases member

end WellFormed
end Messages

/-- A message whose value is well-formed and is read back is decoded from its
bytes. -/
theorem EntityWire.decode_encode {T : Type} {wire : EntityWire T} {formats : Formats}
    {reader : Typed.JsonReader} {message : T} {bytes : List UInt8}
    (encoded : wire.encode formats reader message = .ok bytes)
    (form : ∀ value, wire.toKind message = .ok value → value.WellFormed) :
    ∃ value, wire.toKind message = .ok value ∧
      wire.decode formats reader bytes = wire.fromKind value := by
  obtain ⟨value, built, encoded⟩ := except_bind_eq_ok.mp encoded
  refine ⟨value, built, ?_⟩
  rw [EntityWire.decode, Typed.decode_encode (form value built) encoded]
  rfl

end Codecs
end Haystack
