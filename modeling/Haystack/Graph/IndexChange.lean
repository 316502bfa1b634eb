import Haystack.Graph.Size
import Haystack.Collections.InvertedIndex
import Haystack.Collections.Loop

/-!
# Changes of indexed rows

A batch presents its effect to the three indexes as a list of changes.  A change
replaces the row of one numeric identifier; an addition has no row before and a
removal none after.  Every index visits the tags of the old row, which it
removes, and then the tags of the new row, which it adds.  An index is
determined by the slot that it gives to a visited tag.
-/

namespace Haystack
namespace Graph

open Std (ExtTreeMap TransOrd)
open Collections

/-- One changed row, by its numeric identifier. -/
abbrev IndexChange := RowChange Nat HDict

/-- One visited tag of a change. -/
structure TagEdit where
  id : Nat
  add : Bool
  name : String
  value : Kind

/-- The tags of one side of a change. -/
def rowEdits (id : Nat) (add : Bool) (row : Option HDict) : List TagEdit :=
  match row with
  | none => []
  | some row => row.iter.map fun tag => ⟨id, add, tag.1, tag.2⟩

/-- The visited tags of a change: the old row first, then the new one. -/
def changeEdits (change : IndexChange) : List TagEdit :=
  rowEdits change.id false change.before ++ rowEdits change.id true change.after

/-- Capacities and sizes that the allocator decides.  They only enter the
budget of a batch. -/
structure Allocation where
  idMap : Nat
  reverseId : Nat
  changelog : Nat
  freeIds : Nat
  bitmaps : Nat
  forward : Nat
  reverse : Nat
  /-- `RoaringBitmap::serialized_size`. -/
  serializedSize : Finset Nat → Nat
  /-- Sizes of the records of a plan. -/
  preparedChangeSize : Nat
  graphDiffSize : Nat
  indexChangeSize : Nat

/-- `Layout::array` for records of a size: the bytes of a vector. -/
def layoutArray (size count : Nat) : Option Nat :=
  if size * count ≤ 2 ^ 63 - 8 then some (size * count) else none

/-- Charge the growth of a hash map of `len` entries by `additional` ones. -/
def ValueBudget.chargeGrowth (budget : ValueBudget)
    (len capacity additional entryBytes : Nat) : Option ValueBudget :=
  if additional > capacity - len then
    budget.charge len (saturatingMul (saturatingAdd len additional) entryBytes)
  else some budget

section Slots

variable {κ : Type u} {ι : Type v}

/-- The slots of a row in the index that gives `slot id name value` to a tag. -/
def rowSlots (slot : Nat → String → Kind → Option (κ × ι)) (id : Nat)
    (row : HDict) : List (κ × ι) :=
  row.iter.filterMap fun tag => slot id tag.1 tag.2

/-- The index edit made at a visited tag. -/
def editPosting (slot : Nat → String → Kind → Option (κ × ι))
    (edit : TagEdit) : Option (Posting κ ι) :=
  (slot edit.id edit.name edit.value).map fun slot =>
    ⟨edit.add, slot.1, slot.2⟩

variable {slot : Nat → String → Kind → Option (κ × ι)}

theorem mem_rowSlots {id : Nat} {row : HDict} {entry : κ × ι} :
    entry ∈ rowSlots slot id row ↔ ∃ name value, row.get name = some value ∧
        slot id name value = some entry := by
  simp [rowSlots]

/-- A slot that names its tag is given at most once by a row. -/
theorem nodup_rowSlots (nameOf : κ × ι → String)
    (named : ∀ {id name value entry}, slot id name value = some entry → nameOf entry = name)
    (id : Nat) (row : HDict) : (rowSlots slot id row).Nodup := by
  refine (pairwise_toList row.tags).filterMap _ ?_
  intro left right different entry given other otherGiven same
  subst same
  exact different ((named given).symm.trans (named otherGiven))

/-- The index edits made while visiting one side of a change. -/
theorem filterMap_rowEdits (slot : Nat → String → Kind → Option (κ × ι)) (id : Nat) (add : Bool)
    (row : Option HDict) :
    (rowEdits id add row).filterMap (editPosting slot) =
      (row.toList.flatMap (rowSlots slot id)).map fun entry => ⟨add, entry.1, entry.2⟩ := by
  cases row with
  | none => rfl
  | some =>
    simp [rowEdits, rowSlots, List.map_filterMap, editPosting, Function.comp_def]

/-- The index edits made while visiting a change are its postings. -/
theorem filterMap_changeEdits
    (slot : Nat → String → Kind → Option (κ × ι)) (change : IndexChange) :
    (changeEdits change).filterMap (editPosting slot) = change.postings (rowSlots slot) := by
  rw [changeEdits, List.filterMap_append, filterMap_rowEdits, filterMap_rowEdits]
  rfl

variable {β : Type w} [Ord κ] [TransOrd κ]

/-- Stage the index edit made at a visited tag. -/
def stageTag (slot : Nat → String → Kind → Option (κ × ι)) (base : κ → β)
    (edit : Posting κ ι → β → β) (staged : ExtTreeMap κ β)
    (visited : TagEdit) : ExtTreeMap κ β :=
  match editPosting slot visited with
  | some posting => stageEdit base staged posting.key (edit posting)
  | none => staged

/-- A loop that stages the visited tags of every change stages its postings. -/
theorem observe_changes {σ : Type x} {step : σ → IndexChange → Option σ}
    (slot : Nat → String → Kind → Option (κ × ι)) (base : κ → β)
    (edit : Posting κ ι → β → β) (observe : σ → ExtTreeMap κ β)
    (stepSpec : ∀ state change after, step state change = some after →
      observe after = (changeEdits change).foldl (stageTag slot base edit) (observe state))
    {changes : List IndexChange} {state after : σ}
    (loop : changes.foldlM step state = some after) :
    observe after = (changes.flatMap (RowChange.postings (rowSlots slot))).foldl
        (fun staged posting =>
          stageEdit base staged posting.key (edit posting))
        (observe state) := by
  have observed := foldlM_option_observe observe (fun staged change =>
      (changeEdits change).foldl (stageTag slot base edit) staged)
    stepSpec loop
  rw [observed, List.foldl_flatMap]
  simp only [← filterMap_changeEdits, List.foldl_filterMap]
  congr 2
  funext staged change
  congr 2
  funext staged visited
  unfold stageTag
  cases editPosting slot visited <;> rfl

end Slots
end Graph
end Haystack
