import Haystack.Collections.Map

/-!
# Haystack values

Tag values (`Kind`), numbers and tag dictionaries.  A binary64 value is kept as
its bit pattern, so the two orders of the program, the total order of the value
index and the partial order of filter evaluation, are functions of the bits.

A dictionary is a finite map from tag names to values.  The source iterates its
hash maps in an unspecified order; here a map is iterated in key order.  A
dictionary nested in a value is stored as its list of entries.
-/

namespace Haystack

open Std (ExtTreeMap)

/-! ## Machine integers -/

/-- Largest `u64` and, on the supported platforms, largest `usize`. -/
def u64Max : Nat := 2 ^ 64 - 1

/-- Largest `usize`. -/
def usizeMax : Nat := 2 ^ 64 - 1

/-- Largest `u32`. -/
def u32Max : Nat := 2 ^ 32 - 1

/-- Addition that fails above `limit`. -/
def checkedAdd (limit left right : Nat) : Option Nat :=
  if left + right ≤ limit then some (left + right) else none

/-- `usize` addition that stops at the largest value. -/
def saturatingAdd (left right : Nat) : Nat := min (left + right) usizeMax

/-- `usize` multiplication that stops at the largest value. -/
def saturatingMul (left right : Nat) : Nat := min (left * right) usizeMax

/-- A successful checked addition is the sum, and the sum is within the limit. -/
theorem checkedAdd_eq_some_iff {limit left right sum : Nat} :
    checkedAdd limit left right = some sum ↔ sum = left + right ∧ left + right ≤ limit := by
  unfold checkedAdd
  by_cases fits : left + right ≤ limit
  · simp [fits, eq_comm]
  · simp [fits]

/-! ## Binary64 values -/

/-- A binary64 value, identified with its bit pattern. -/
structure F64 where
  bits : UInt64
  deriving DecidableEq, Repr

namespace F64

/-- The exponent and fraction bits. -/
def magnitude (x : F64) : Nat := x.bits.toNat % 2 ^ 63

/-- The sign bit. -/
def isNegative (x : F64) : Bool := 2 ^ 63 ≤ x.bits.toNat

/-- Not a number: the exponent is all ones and the fraction is not zero. -/
def isNaN (x : F64) : Bool := 0x7FF0000000000000 < x.magnitude

/-- Either zero, the comparison `x == 0.0` of the source. -/
def isZero (x : F64) : Bool := x.magnitude = 0

/-- The integer that `f64::total_cmp` compares: the bits as an `i64`, with the
lower 63 bits flipped for negative values. -/
def totalKey (x : F64) : Int :=
  if x.isNegative then -1 - x.magnitude else x.magnitude

/-- Signed magnitude. It orders the values that are numbers, and maps both zeros
to zero. -/
def signedMagnitude (x : F64) : Int :=
  if x.isNegative then -x.magnitude else x.magnitude

/-- `f64::total_cmp`. -/
def totalCmp (x y : F64) : Ordering := compare x.totalKey y.totalKey

/-- `f64::partial_cmp`. -/
def partialCmp (x y : F64) : Option Ordering :=
  if x.isNaN || y.isNaN then none
  else some (compare x.signedMagnitude y.signedMagnitude)

variable {x y : F64}

/-- Bits are determined by the sign and the magnitude. -/
theorem ext_sign_magnitude (sign : x.isNegative = y.isNegative)
    (magnitude : x.magnitude = y.magnitude) : x = y := by
  have xBound := x.bits.toNat_lt
  have yBound := y.bits.toNat_lt
  simp only [isNegative, decide_eq_decide] at sign
  simp only [F64.magnitude] at magnitude
  have bits : x.bits.toNat = y.bits.toNat := by omega
  cases x
  cases y
  simp only [mk.injEq]
  exact UInt64.toNat_inj.mp bits

/-- The key of the total order determines the bits. -/
theorem totalKey_injective (same : x.totalKey = y.totalKey) : x = y := by
  unfold totalKey at same
  apply ext_sign_magnitude
  · cases xSign : x.isNegative <;> cases ySign : y.isNegative <;>
      simp at same ⊢ <;> grind
  · cases xSign : x.isNegative <;> cases ySign : y.isNegative <;>
      simp [ySign] at same <;> grind

/-- Away from the pair of zeros, the partial order of numbers is the total
order. -/
theorem partialCmp_eq_totalCmp (xNumber : x.isNaN = false) (yNumber : y.isNaN = false)
    (nonzero : ¬(x.isZero = true ∧ y.isZero = true)) : x.partialCmp y = some (x.totalCmp y) := by
  simp only [partialCmp]
  simp only [isZero] at nonzero
  unfold totalCmp signedMagnitude totalKey
  simp only [compare, compareOfLessAndEq]
  cases x.isNegative <;> cases y.isNegative <;> grind

end F64

/-! ## Scalars -/

/-- A number with an optional unit. -/
structure Number where
  val : F64
  unit : Option String
  deriving DecidableEq, Repr

/-- Numbers of different units are not comparable. -/
def Number.partialCmp (x y : Number) : Option Ordering :=
  if x.unit = y.unit then x.val.partialCmp y.val else none

/-- An entity reference with an optional display name. -/
structure HRef where
  val : String
  dis : Option String
  deriving DecidableEq, Repr

/-- A nominal scalar records its catalog identity and its exact text. -/
structure NominalScalar where
  spec : String
  catalog : String
  revision : String
  text : String
  deriving DecidableEq, Repr

/-- A calendar date, by the number of days since year zero. -/
structure NaiveDate where
  days : Int
  deriving DecidableEq, Repr

/-- A time of day. The fraction in nanoseconds reaches two seconds for leap
seconds. -/
structure NaiveTime where
  secs : Nat
  frac : Nat
  deriving DecidableEq, Repr

/-- An instant in UTC together with the offset it is displayed in. -/
structure DateTime where
  date : NaiveDate
  time : NaiveTime
  offset : Int
  deriving DecidableEq, Repr

/-- A zoned datetime. -/
structure HDateTime where
  dt : DateTime
  tzName : String
  deriving DecidableEq, Repr

/-- A geographic coordinate. -/
structure Coord where
  lat : F64
  lng : F64
  deriving DecidableEq, Repr

/-- An extended string. -/
structure XStr where
  typeName : String
  val : String
  deriving DecidableEq, Repr

def NaiveDate.cmp (x y : NaiveDate) : Ordering := compare x.days y.days

def NaiveTime.cmp (x y : NaiveTime) : Ordering :=
  (compare x.secs y.secs).then (compare x.frac y.frac)

/-- Datetimes are ordered by their instant, whatever their offset. -/
def DateTime.cmp (x y : DateTime) : Ordering := (x.date.cmp y.date).then (x.time.cmp y.time)

/-! ## Values -/

/-- The central value type. -/
inductive Kind
  | null
  | none
  | int (value : Int64)
  | float (value : F64)
  | buf (bytes : List UInt8)
  | nominal (value : NominalScalar)
  | marker
  | na
  | remove
  | bool (value : Bool)
  | number (value : Number)
  | str (value : String)
  | ref (value : HRef)
  | uri (value : String)
  | symbol (value : String)
  | date (value : NaiveDate)
  | time (value : NaiveTime)
  | dateTime (value : HDateTime)
  | coord (value : Coord)
  | xstr (value : XStr)
  | list (items : List Kind)
  | dict (tags : List (String × Kind))
  | grid (gridMeta : List (String × Kind)) (cols : List (String × List (String × Kind)))
      (rows : List (List (String × Kind)))
  deriving Repr

/-! ## Dictionaries -/

/-- A tag dictionary. -/
@[ext] structure HDict where
  tags : ExtTreeMap String Kind

namespace HDict

/-- The empty dictionary. -/
def new : HDict := ⟨∅⟩

/-- The value of a tag. -/
def get (dict : HDict) (name : String) : Option Kind := dict.tags[name]?

/-- Whether a tag is present. -/
def has (dict : HDict) (name : String) : Bool := dict.tags.contains name

/-- The `id` tag, when it is a reference. -/
def id (dict : HDict) : Option HRef :=
  match dict.get "id" with
  | some (.ref r) => some r
  | _ => .none

/-- Whether the dictionary has no tags. -/
def isEmpty (dict : HDict) : Bool := dict.tags.isEmpty

/-- Insert or overwrite a tag. -/
def set (dict : HDict) (name : String) (value : Kind) : HDict := ⟨dict.tags.insert name value⟩

/-- Remove a tag. -/
def removeTag (dict : HDict) (name : String) : HDict := ⟨dict.tags.erase name⟩

/-- The tags with their values. -/
def iter (dict : HDict) : List (String × Kind) := dict.tags.toList

/-- The tag names. -/
def tagNames (dict : HDict) : List String := dict.tags.toList.map Prod.fst

/-- One tag of a merge: a `remove` value deletes the tag, every other value
overwrites it. -/
def mergeTag (dict : HDict) (tag : String × Kind) : HDict :=
  match tag.2 with
  | .remove => dict.removeTag tag.1
  | value => dict.set tag.1 value

/-- Merge another dictionary into this one. -/
def merge (dict other : HDict) : HDict := other.iter.foldl mergeTag dict

/-- Dictionaries with the same lookups are equal. -/
theorem ext_get {left right : HDict}
    (same : ∀ name, left.get name = right.get name) : left = right :=
  HDict.ext (ExtTreeMap.ext_getElem? same)

@[simp] theorem get_new (name : String) : new.get name = .none := by
  simp [new, get]

@[simp] theorem get_set (dict : HDict) (name other : String) (value : Kind) :
    (dict.set name value).get other = if name = other then some value else dict.get other := by
  simp [set, get, ExtTreeMap.getElem?_insert]

@[simp] theorem get_removeTag (dict : HDict) (name other : String) :
    (dict.removeTag name).get other = if name = other then .none else dict.get other := by
  simp [removeTag, get, ExtTreeMap.getElem?_erase]

variable {dict : HDict}

theorem id_eq_some_iff {r : HRef} : dict.id = some r ↔ dict.get "id" = some (.ref r) := by
  unfold id
  split
  · rename_i tagged
    simp [tagged]
  · rename_i other
    simpa using other r

variable {name : String}

theorem has_iff : dict.has name = true ↔ ∃ value, dict.get name = some value := by
  simp only [has, get, ExtTreeMap.contains_eq_isSome_getElem?, Option.isSome_iff_exists]

@[simp] theorem mem_iter {value : Kind} :
    (name, value) ∈ dict.iter ↔ dict.get name = some value :=
  ExtTreeMap.mem_toList_iff_getElem?_eq_some

@[simp] theorem mem_tagNames : name ∈ dict.tagNames ↔ dict.has name = true := by
  simp only [tagNames, List.mem_map, has_iff]
  simp [get]

/-- A dictionary without tags is the empty one. -/
theorem isEmpty_iff : dict.isEmpty = true ↔ dict = new := by
  simp [isEmpty, new, HDict.ext_iff]

/-- What a merge makes of a tag. -/
def mergedTag (patch original : Option Kind) : Option Kind :=
  match patch with
  | .none => original
  | some .remove => .none
  | some value => some value

/-- A merge rewrites the tags of the patch and keeps all others. -/
@[simp] theorem get_merge (dict other : HDict) (name : String) :
    (dict.merge other).get name = mergedTag (other.get name) (dict.get name) := by
  unfold merge iter
  rw [Collections.observe_foldl_toList (HDict.get · name)
    fun entry slot => mergedTag (some entry.2) slot]
  · change (other.get name).elim _ _ = _
    cases other.get name <;> rfl
  · rintro dict ⟨key, value⟩
    cases value <;> simp [mergeTag, mergedTag, set, removeTag, get,
        ExtTreeMap.getElem?_insert, ExtTreeMap.getElem?_erase]

/-- The empty patch changes nothing. -/
@[simp] theorem merge_new (dict : HDict) : dict.merge new = dict := by
  apply ext_get
  simp [mergedTag]

end HDict
end Haystack
