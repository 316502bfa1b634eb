import Haystack.Graph.IndexChange

/-!
# Value index

For every registered field, an ordered map from the values of the field to the
ids whose row holds the value.  Only numbers, by their binary64 value and
without their unit, and strings are indexed.
-/

namespace Haystack
namespace Graph

open Std (ExtTreeMap TransOrd LawfulEqOrd)
open Collections

/-- An indexed value. -/
inductive OrderableKind
  | num (val : F64)
  | str (val : String)
  deriving DecidableEq

namespace OrderableKind

/-- Numbers by their total order, then strings. -/
def cmp : OrderableKind → OrderableKind → Ordering
  | num a, num b => a.totalCmp b
  | str a, str b => compare a b
  | num _, str _ => .lt
  | str _, num _ => .gt

instance : Ord OrderableKind := ⟨cmp⟩

theorem compare_num (a b : F64) : compare (num a) (num b) = compare a.totalKey b.totalKey := rfl

theorem compare_str (a b : String) : compare (str a) (str b) = compare a b := rfl

instance : LawfulEqOrd OrderableKind where
  compare_self {a} := by
    cases a with
    | num a =>
      rw [compare_num]
      exact Std.ReflCmp.compare_self
    | str a =>
      rw [compare_str]
      exact Std.ReflCmp.compare_self
  eq_of_compare {a b} same := by
    cases a with
    | num a =>
      cases b with
      | num b =>
        rw [compare_num] at same
        rw [F64.totalKey_injective (Std.LawfulEqCmp.eq_of_compare same)]
      | str b => cases same
    | str a =>
      cases b with
      | num b => cases same
      | str b =>
        rw [compare_str] at same
        rw [Std.LawfulEqCmp.eq_of_compare same]

instance : TransOrd OrderableKind where
  eq_swap {a b} := by
    cases a with
    | num a =>
      cases b with
      | num b =>
        rw [compare_num, compare_num]
        exact Std.OrientedCmp.eq_swap
      | str b => rfl
    | str a =>
      cases b with
      | num b => rfl
      | str b =>
        rw [compare_str, compare_str]
        exact Std.OrientedCmp.eq_swap
  isLE_trans {a b c} first second := by
    cases b with
    | num b =>
      cases a with
      | num a =>
        cases c with
        | num c =>
          rw [compare_num] at first second ⊢
          exact Std.TransCmp.isLE_trans first second
        | str c => rfl
      | str a => cases first
    | str b =>
      cases c with
      | num c => cases second
      | str c =>
        cases a with
        | num a => rfl
        | str a =>
          rw [compare_str] at first second ⊢
          exact Std.TransCmp.isLE_trans first second

instance : Ord (String × OrderableKind) := lexOrd

/-- The indexed form of a tag value, for numbers and strings. -/
def fromKind : Kind → Option OrderableKind
  | .number n => some (num n.val)
  | .str s => some (str s)
  | _ => none

end OrderableKind

/-- The values of one field, with their ids. -/
abbrev FieldTree := ExtTreeMap OrderableKind (List Nat)

structure ValueIndex where
  indexes : ExtTreeMap String FieldTree

namespace ValueIndex

def new : ValueIndex := ⟨∅⟩

/-- Register a field; a registered field keeps its values. -/
def indexField (index : ValueIndex) (field : String) : ValueIndex :=
  ⟨index.indexes.insert field (index.indexes[field]?.getD ∅)⟩

def hasIndex (index : ValueIndex) (field : String) : Bool := index.indexes.contains field

/-- Add the value of an entity to the tree of a field. -/
def add (index : ValueIndex) (entityId : Nat) (field : String) (value : Kind) : ValueIndex :=
  match index.indexes[field]?, OrderableKind.fromKind value with
  | some tree, some key =>
    ⟨index.indexes.insert field (tree.insert key (tree[key]?.getD [] ++ [entityId]))⟩
  | _, _ => index

/-- Remove an entity from the bucket of a value; an empty bucket is dropped. -/
def remove (index : ValueIndex) (entityId : Nat) (field : String) (value : Kind) : ValueIndex :=
  match index.indexes[field]?, OrderableKind.fromKind value with
  | some tree, some key =>
    match tree[key]? with
    | some ids =>
      let ids := ids.filter (· ≠ entityId)
      ⟨index.indexes.insert field (if ids.isEmpty then tree.erase key else tree.insert key ids)⟩
    | none => index
  | _, _ => index

/-- Forget all values and keep the registered fields. -/
def clear (index : ValueIndex) : ValueIndex :=
  ⟨index.indexes.toList.foldl (fun indexes entry => indexes.insert entry.1 ∅) index.indexes⟩

/-- Add the values of the registered fields of a row. -/
def addTags (index : ValueIndex) (entityId : Nat) (row : HDict) : ValueIndex :=
  row.iter.foldl (fun index tag =>
      if index.hasIndex tag.1 then index.add entityId tag.1 tag.2 else index)
    index

/-- Remove the values of the registered fields of a row. -/
def removeTags (index : ValueIndex) (entityId : Nat) (row : HDict) : ValueIndex :=
  row.iter.foldl (fun index tag =>
      if index.hasIndex tag.1 then index.remove entityId tag.1 tag.2 else index)
    index

/-- Add the value of a newly registered field of a row. -/
def backfill (index : ValueIndex) (field : String) (entityId : Nat) (row : HDict) : ValueIndex :=
  match row.get field with
  | some value => index.add entityId field value
  | none => index

/-! ## Lookups -/

/-- Ids whose value of the field equals a value. -/
def eqLookup (index : ValueIndex) (field : String) (val : Kind) : List Nat :=
  match OrderableKind.fromKind val with
  | none => []
  | some key => ((index.indexes[field]?).bind (·[key]?)).getD []

/-- Ids whose value of the field differs from a value. -/
def neLookup (index : ValueIndex) (field : String) (val : Kind) : List Nat :=
  match OrderableKind.fromKind val with
  | none => []
  | some key =>
    match index.indexes[field]? with
    | none => []
    | some tree =>
      if (tree[key]?.getD []).isEmpty then tree.toList.flatMap Prod.snd
      else (tree.toList.filter (·.1 ≠ key)).flatMap Prod.snd

/-- Ids whose value of the field lies in a range: `keep` decides on the
comparison of the value with the bound. -/
def rangeLookup (keep : Ordering → Bool) (index : ValueIndex) (field : String)
    (val : Kind) : List Nat :=
  match OrderableKind.fromKind val with
  | none => []
  | some key =>
    match index.indexes[field]? with
    | none => []
    | some tree =>
      (tree.toList.filter fun entry =>
        keep (compare entry.1 key)).flatMap Prod.snd

def gtLookup : ValueIndex → String → Kind → List Nat := rangeLookup (·.isGT)

def geLookup : ValueIndex → String → Kind → List Nat := rangeLookup (·.isGE)

def ltLookup : ValueIndex → String → Kind → List Nat := rangeLookup (·.isLT)

def leLookup : ValueIndex → String → Kind → List Nat := rangeLookup (·.isLE)

/-! ## Prepared changes -/

/-- Staged buckets, by field and value. -/
abbrev PreparedValues := ExtTreeMap (String × OrderableKind) (List Nat)

/-- Bytes of the indexed form of a value. -/
def keyBytes : Kind → Nat
  | .str text => text.utf8ByteSize
  | _ => 8

/-- The bucket of a field and value; empty when the field is not registered. -/
def bucketOf (index : ValueIndex) (slot : String × OrderableKind) : List Nat :=
  (index.indexes[slot.1]?.map (bucket · slot.2)).getD []

/-- Charge the copy of a bucket that is not staged yet. -/
def chargeCopy (possibleAdditions : Nat) (entries : PreparedValues)
    (slot : String × OrderableKind) (current : Option (List Nat))
    (budget : ValueBudget) : Option ValueBudget :=
  if entries.contains slot then some budget
  else do
    let len := (current.map List.length).getD 0
    let capacity ← checkedAdd usizeMax len possibleAdditions
    let layout ← layoutArray 8 capacity
    let bytes ← checkedAdd usizeMax layout 64
    budget.charge len bytes

/-- Charge the scan of a staged bucket for a removal. -/
def chargeRetain (staged : List Nat) (add : Bool) (budget : ValueBudget) : Option ValueBudget :=
  if add then some budget else budget.charge staged.length 0

/-- Append or remove one id. -/
def editIds (add : Bool) (id : Nat) (ids : List Nat) : List Nat :=
  if add then ids ++ [id] else ids.filter (· ≠ id)

/-- Stage one visited tag. -/
def prepareValue (index : ValueIndex) (possibleAdditions : Nat)
    (state : PreparedValues × ValueBudget)
    (edit : TagEdit) : Option (PreparedValues × ValueBudget) := do
  let budget ← state.2.charge (saturatingAdd edit.name.utf8ByteSize 1) 0
  match index.indexes[edit.name]? with
  | none => some (state.1, budget)
  | some tree =>
    let budget ← budget.charge 1 (saturatingAdd (saturatingMul
          (saturatingAdd edit.name.utf8ByteSize (keyBytes edit.value)) 2) 256)
    match OrderableKind.fromKind edit.value with
    | none => some (state.1, budget)
    | some key =>
      let comparisons := Nat.log2 tree.size + 1
      let budget ← budget.charge (saturatingMul (saturatingMul
            (saturatingAdd (keyBytes edit.value) edit.name.utf8ByteSize)
            comparisons) 4) 0
      let slot := (edit.name, key)
      let budget ← chargeCopy possibleAdditions state.1 slot tree[key]? budget
      let budget ← chargeRetain (state.1[slot]?.getD (index.bucketOf slot)) edit.add budget
      some (stageEdit index.bucketOf state.1 slot (editIds edit.add edit.id), budget)

/-- Stage the tags of one change. -/
def prepareChange (index : ValueIndex) (possibleAdditions : Nat)
    (state : PreparedValues × ValueBudget)
    (change : IndexChange) : Option (PreparedValues × ValueBudget) :=
  (changeEdits change).foldlM (index.prepareValue possibleAdditions) state

def prepareChanges (index : ValueIndex) (changes : List IndexChange)
    (budget : ValueBudget) : Option (PreparedValues × ValueBudget) := do
  let budget ← budget.charge changes.length 0
  let possibleAdditions := (changes.filter (·.after.isSome)).length
  changes.foldlM (index.prepareChange possibleAdditions) (∅, budget)

/-- Install one staged bucket in the tree of its field.  The index generation
recorded in a plan guarantees that the field is registered. -/
def installBucket (index : ValueIndex)
    (entry : (String × OrderableKind) × List Nat) : ValueIndex :=
  match index.indexes[entry.1.1]? with
  | none => index
  | some tree =>
    ⟨index.indexes.insert entry.1.1 (if entry.2.isEmpty then tree.erase entry.1.2
      else tree.insert entry.1.2 entry.2)⟩

def applyPrepared (index : ValueIndex) (prepared : PreparedValues) : ValueIndex :=
  prepared.toList.foldl installBucket index

end ValueIndex
end Graph
end Haystack
