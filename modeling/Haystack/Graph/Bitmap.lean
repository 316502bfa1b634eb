import Haystack.Graph.IndexChange

/-!
# Tag bitmaps

For every tag, the bitmap of the numeric ids whose row has the tag.  A bitmap is
a finite set.  Numeric ids are at most `u32::MAX`, which the graph checks before
it hands out an id, so the narrowing in `add` and `remove` never fails.

Native operations edit the bitmaps in place.  A batch stages edited copies of the
touched bitmaps and installs them later.
-/

namespace Haystack
namespace Graph

open Std (ExtTreeMap)
open Collections

structure TagBitmapIndex where
  bitmaps : ExtTreeMap String (Finset Nat)

namespace TagBitmapIndex

def new : TagBitmapIndex := ⟨∅⟩

/-- Record an entity under each of its tags. -/
def add (index : TagBitmapIndex) (entityId : Nat) (tags : List String) : TagBitmapIndex :=
  ⟨tags.foldl (fun bitmaps tag =>
      bitmaps.insert tag (insert entityId (bitmaps[tag]?.getD ∅)))
    index.bitmaps⟩

/-- Forget an entity under each of its tags, and drop empty bitmaps. -/
def remove (index : TagBitmapIndex) (entityId : Nat) (tags : List String) : TagBitmapIndex :=
  ⟨retain (fun _ bitmap => decide (bitmap ≠ ∅)) (tags.foldl (fun bitmaps tag =>
        match bitmaps[tag]? with
        | some bitmap => bitmaps.insert tag (bitmap.erase entityId)
        | none => bitmaps)
      index.bitmaps)⟩

def hasTag (index : TagBitmapIndex) (tag : String) : Option (Finset Nat) := index.bitmaps[tag]?

/-- The intersection of a list of bitmaps; of no bitmap, the empty one. -/
def intersect : List (Finset Nat) → Finset Nat
  | [] => ∅
  | first :: rest => rest.foldl (· ∩ ·) first

def union (bitmaps : List (Finset Nat)) : Finset Nat := bitmaps.foldl (· ∪ ·) ∅

def negate (bitmap all : Finset Nat) : Finset Nat := all \ bitmap

/-! ## Prepared changes -/

/-- Insert or remove one id. -/
def editBitmap (add : Bool) (id : Nat) (bitmap : Finset Nat) : Finset Nat :=
  if add then insert id bitmap else bitmap.erase id

/-- Charge the copy of a bitmap that is not staged yet. -/
def chargeCopy (index : TagBitmapIndex) (allocation : Allocation)
    (entries : ExtTreeMap String (Finset Nat)) (tag : String)
    (budget : ValueBudget) : Option ValueBudget :=
  if entries.contains tag then some budget
  else match index.bitmaps[tag]? with
    | some current => budget.charge current.card
        (saturatingAdd (saturatingMul (allocation.serializedSize current) 4) 256)
    | none => some budget

/-- Stage one visited tag: charge its name, then edit the staged bitmap. -/
def prepareTag (index : TagBitmapIndex) (allocation : Allocation)
    (state : ExtTreeMap String (Finset Nat) × ValueBudget) (edit : TagEdit) :
    Option (ExtTreeMap String (Finset Nat) × ValueBudget) := do
  let budget ← state.2.charge (saturatingAdd edit.name.utf8ByteSize 1)
    (saturatingAdd edit.name.utf8ByteSize 64)
  let budget ← index.chargeCopy allocation state.1 edit.name budget
  some (stageEdit (bucket index.bitmaps) state.1 edit.name (editBitmap edit.add edit.id), budget)

/-- Stage the tags of one change, whose id must fit in 32 bits. -/
def prepareChange (index : TagBitmapIndex) (allocation : Allocation)
    (state : ExtTreeMap String (Finset Nat) × ValueBudget)
    (change : IndexChange) : Option (ExtTreeMap String (Finset Nat) × ValueBudget) :=
  if change.id > u32Max then none
  else (changeEdits change).foldlM (index.prepareTag allocation) state

def prepareChanges (index : TagBitmapIndex) (allocation : Allocation)
    (changes : List IndexChange) (budget : ValueBudget) :
    Option (ExtTreeMap String (Finset Nat) × ValueBudget) := do
  let (entries, budget) ← changes.foldlM (index.prepareChange allocation) (∅, budget)
  let budget ← budget.chargeGrowth index.bitmaps.size allocation.bitmaps entries.size 256
  some (entries, budget)

def applyPrepared (index : TagBitmapIndex)
    (prepared : ExtTreeMap String (Finset Nat)) : TagBitmapIndex :=
  ⟨install (fun bitmap => decide (bitmap = ∅)) index.bitmaps prepared⟩

/-! ## The edits of a change -/

/-- A tag posts the id under its name. -/
def slot (id : Nat) (name : String) (_ : Kind) : Option (String × Nat) := some (name, id)

/-- The edit of a bitmap by a posting. -/
def post (posting : Posting String Nat) : Finset Nat → Finset Nat :=
  editBitmap posting.add posting.item

theorem post_law : EditLaw (· ∈ ·) post := by
  rintro ⟨add, tag, id⟩ bitmap other
  cases add <;> simp [post, editBitmap, and_comm]

/-- A row posts its id under each of its tag names. -/
theorem rowSlots_slot (id : Nat) (row : HDict) :
    rowSlots slot id row = row.tagNames.map fun tag => (tag, id) := by
  rw [HDict.tagNames, List.map_map, ← List.filterMap_eq_map]
  rfl

theorem mem_rowSlots_slot {id n : Nat} {row : HDict} {tag : String} :
    (tag, n) ∈ rowSlots slot id row ↔ n = id ∧ row.has tag := by
  rw [rowSlots_slot, List.mem_map]
  constructor
  · rintro ⟨name, member, same⟩
    cases same
    exact ⟨rfl, HDict.mem_tagNames.mp member⟩
  · rintro ⟨rfl, present⟩
    exact ⟨tag, HDict.mem_tagNames.mpr present, rfl⟩

/-- Every bitmap of the index is exact for the live rows. -/
def Exact (index : TagBitmapIndex) (live : Nat → Option HDict) : Prop :=
  Reflects (· ∈ ·) (rowSlots slot) (bucket index.bitmaps) live ∧ NoEmptyBucket index.bitmaps

theorem exact_new : Exact new fun _ => none := by
  refine ⟨?_, NoEmptyBucket.empty⟩
  intro tag id
  simp [new]

/-! ## Native operations -/

private theorem editBucket_rowSlots
    (add : Bool) (id : Nat) (row : HDict) (tag : String) (bitmap : Finset Nat) :
    editBucket post ((rowSlots slot id row).map fun entry => ⟨add, entry.1, entry.2⟩) tag bitmap =
      (row.tagNames.filter (· = tag)).foldl
        (fun bitmap _ => editBitmap add id bitmap) bitmap := by
  rw [rowSlots_slot, editBucket, List.map_map, List.filter_map, List.foldl_map]
  rfl

variable {live : Nat → Option HDict}

/-- The rows determine the bitmaps. -/
theorem Exact.unique {left right : TagBitmapIndex} (leftExact : left.Exact live)
    (rightExact : right.Exact live) : left = right := by
  refine congrArg TagBitmapIndex.mk (ext_bucket leftExact.2 rightExact.2 ?_)
  intro tag
  ext n
  exact (leftExact.1 tag n).trans (rightExact.1 tag n).symm

/-- Recording a row adds its postings. -/
theorem bucket_add (index : TagBitmapIndex) (id : Nat) (row : HDict) (tag : String) :
    bucket (index.add id row.tagNames).bitmaps tag = editBucket post
        ((rowSlots slot id row).map fun entry => ⟨true, entry.1, entry.2⟩) tag
        (bucket index.bitmaps tag) := by
  rw [editBucket_rowSlots]
  refine observe_foldl (bucket · tag) (fun name => name)
    (fun _ => editBitmap true id) ?_ index.bitmaps row.tagNames
  intro bitmaps name
  rw [bucket_insert]
  by_cases same : name = tag
  · subst same
    simp [editBitmap, bucket]
  · simp [same]

private theorem bucket_retain_nonempty (bitmaps : ExtTreeMap String (Finset Nat)) (tag : String) :
    bucket (retain (fun _ bitmap => decide (bitmap ≠ ∅)) bitmaps) tag = bucket bitmaps tag := by
  unfold bucket
  rw [getElem?_retain]
  cases bitmaps[tag]? with
  | none => rfl
  | some bitmap => by_cases empty : bitmap = ∅ <;> simp [Option.filter, empty]

/-- Forgetting a row removes its postings. -/
theorem bucket_remove (index : TagBitmapIndex) (id : Nat) (row : HDict) (tag : String) :
    bucket (index.remove id row.tagNames).bitmaps tag = editBucket post
        ((rowSlots slot id row).map fun entry => ⟨false, entry.1, entry.2⟩) tag
        (bucket index.bitmaps tag) := by
  rw [editBucket_rowSlots]
  unfold remove
  rw [bucket_retain_nonempty]
  refine observe_foldl (bucket · tag) (fun name => name)
    (fun _ => editBitmap false id) ?_ index.bitmaps row.tagNames
  intro bitmaps name
  cases found : bitmaps[name]? with
  | none =>
    by_cases same : name = tag
    · subst same
      simp [editBitmap, bucket, found]
    · simp [same]
  | some =>
    rw [bucket_insert]
    by_cases same : name = tag
    · subst same
      simp [editBitmap, bucket, found]
    · simp [same]

private theorem slot_owned (n : Nat) (row : HDict) (entry : String × Nat)
    (member : entry ∈ rowSlots slot n row) : entry.2 = n :=
  (mem_rowSlots_slot.mp member).1

variable {index : TagBitmapIndex}

/-- Recording the row of a fresh id keeps the bitmaps exact. -/
theorem Exact.add (exactBefore : index.Exact live) {id : Nat} (fresh : live id = none)
    (row : HDict) : (index.add id row.tagNames).Exact (Function.update live id (some row)) := by
  have reflects := exactBefore.1.change post_law (fun item => item) slot_owned
    (show live (RowChange.mk id none (some row)).id = none from fresh)
  refine ⟨?_, ?_⟩
  · intro tag item
    rw [bucket_add]
    simpa [RowChange.postings, RowChange.apply] using reflects tag item
  · unfold TagBitmapIndex.add
    generalize row.tagNames = tags
    have nonempty := exactBefore.2
    generalize index.bitmaps = bitmaps at nonempty
    induction tags generalizing bitmaps with
    | nil => exact nonempty
    | cons tag tags ih =>
      refine ih _ (nonempty.insert ?_)
      exact Finset.insert_ne_empty _ _

/-- Forgetting the row of a live id keeps the bitmaps exact. -/
theorem Exact.remove (exactBefore : index.Exact live) {id : Nat} {row : HDict}
    (found : live id = some row) :
    (index.remove id row.tagNames).Exact (Function.update live id none) := by
  have reflects := exactBefore.1.change post_law (fun item => item) slot_owned
    (show live (RowChange.mk id (some row) none).id = some row from found)
  refine ⟨?_, ?_⟩
  · intro tag item
    rw [bucket_remove]
    simpa [RowChange.postings, RowChange.apply] using reflects tag item
  · intro tag bitmap present
    simp only [TagBitmapIndex.remove, getElem?_retain] at present
    simpa using (Option.filter_eq_some_iff.mp present).2

/-! ## Batches -/

variable {entries : ExtTreeMap String (Finset Nat)} {changes : List IndexChange}

variable {budget after : ValueBudget} {allocation : Allocation}

/-- The staged bitmaps of a successful preparation. -/
theorem entries_of_prepareChanges
    (prepared : index.prepareChanges allocation changes budget = some (entries, after)) :
    entries = (changes.flatMap (RowChange.postings (rowSlots slot))).foldl (fun staged posting =>
        stageEdit (bucket index.bitmaps) staged posting.key (post posting))
      ∅ := by
  obtain ⟨⟨_, _⟩, loop, finish⟩ := Option.bind_eq_some_iff.mp prepared
  obtain ⟨_, _, finish⟩ := Option.bind_eq_some_iff.mp finish
  obtain ⟨rfl, -⟩ := Prod.mk.inj (Option.some.inj finish)
  refine observe_changes slot (bucket index.bitmaps) post Prod.fst ?_ loop
  intro state change result stepped
  unfold prepareChange at stepped
  split at stepped
  · cases stepped
  · refine foldlM_option_observe Prod.fst _ ?_ stepped
    intro state edit result stepped
    obtain ⟨_, _, stepped⟩ := Option.bind_eq_some_iff.mp stepped
    obtain ⟨_, _, stepped⟩ := Option.bind_eq_some_iff.mp stepped
    obtain rfl := Option.some.inj stepped
    rfl

/-- A batch whose changes start from the live rows keeps the bitmaps exact. -/
theorem Exact.applyPrepared (exactBefore : index.Exact live) (tracks : RowChange.Tracks live changes)
    (prepared : index.prepareChanges allocation changes budget = some (entries, after)) :
    (index.applyPrepared entries).Exact (changes.foldl RowChange.apply live) := by
  have isEmptySpec : ∀ bitmap : Finset Nat, decide (bitmap = ∅) = true ↔ bitmap = ∅ := by simp
  obtain rfl := entries_of_prepareChanges prepared
  refine ⟨?_, exactBefore.2.install isEmptySpec _⟩
  intro tag item
  unfold TagBitmapIndex.applyPrepared
  rw [bucket_install_stage isEmptySpec index.bitmaps Posting.key post]
  exact exactBefore.1.changes post_law (fun item => item) slot_owned tracks tag item

end TagBitmapIndex
end Graph
end Haystack
