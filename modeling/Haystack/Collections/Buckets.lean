import Haystack.Collections.Map

/-!
# Maps of buckets

An inverted index maps a key to a bucket of items.  The bucket of an absent key
is empty, and a stored bucket is never empty.  Two programs edit such a map:

* in place, one key after another;
* by copy on write: the touched buckets are copied into a second map, edited
  there, and installed at the end, where an empty bucket erases its key.

Both are described by the list of edits.  The bucket of a key afterwards is the
fold of the edits of that key (`bucket_install_stage`), so the two programs
agree on every bucket.
-/

namespace Haystack
namespace Collections

open Std (ExtTreeMap TransOrd LawfulEqOrd)

variable {κ : Type u} {β : Type v} {ε : Type w} [Ord κ] [TransOrd κ]

/-! ## Staged copies -/

/-- Edit the staged copy of a bucket, copying it from the base first. -/
def stageEdit (base : κ → β) (staged : ExtTreeMap κ β) (k : κ) (edit : β → β) : ExtTreeMap κ β :=
  staged.insert k (edit (staged[k]?.getD (base k)))

/-- Staging a list of edits holds the edited bucket of every touched key. -/
theorem getElem?_stage [LawfulEqOrd κ] [DecidableEq κ] (base : κ → β) (key : ε → κ)
    (edit : ε → β → β) (edits : List ε) (k : κ) :
    (edits.foldl (fun staged e => stageEdit base staged (key e) (edit e)) ∅)[k]? =
      if edits.filter (key · = k) = [] then none
      else some ((edits.filter (key · = k)).foldl (fun items e => edit e items) (base k)) := by
  rw [observe_foldl (·[k]?) key fun e slot => some (edit e (slot.getD (base k)))]
  · simp only [ExtTreeMap.getElem?_empty]
    generalize edits.filter (key · = k) = relevant
    cases relevant with
    | nil => rfl
    | cons first rest =>
      simp only [List.foldl_cons, Option.getD_none]
      generalize edit first (base k) = items
      induction rest generalizing items with
      | nil => rfl
      | cons next rest ih =>
        exact ih (edit next items)
  · intro staged e
    by_cases same : key e = k
    · simp [stageEdit, same]
    · simp [stageEdit, same, ExtTreeMap.getElem?_insert]

/-! ## Buckets -/

variable [EmptyCollection β]

/-- The bucket of a key, empty when the key is absent. -/
def bucket (map : ExtTreeMap κ β) (k : κ) : β := map[k]?.getD ∅

/-- No stored bucket is empty. -/
def NoEmptyBucket (map : ExtTreeMap κ β) : Prop :=
  ∀ (k : κ) (items : β), map[k]? = some items → items ≠ ∅

variable {map : ExtTreeMap κ β} {k : κ}

theorem bucket_of_getElem? {items : β} (found : map[k]? = some items) : bucket map k = items := by
  simp [bucket, found]

theorem bucket_of_getElem?_none (absent : map[k]? = none) : bucket map k = ∅ := by
  simp [bucket, absent]

@[simp] theorem bucket_empty (k : κ) : bucket (∅ : ExtTreeMap κ β) k = ∅ := by
  simp [bucket]

theorem NoEmptyBucket.empty : NoEmptyBucket (∅ : ExtTreeMap κ β) := by
  intro k items found
  simp at found

theorem bucket_insert [LawfulEqOrd κ] [DecidableEq κ] (map : ExtTreeMap κ β) (k other : κ)
    (items : β) :
    bucket (map.insert k items) other = if k = other then items else bucket map other := by
  unfold bucket
  rw [ExtTreeMap.getElem?_insert]
  by_cases same : k = other <;> simp [same]

theorem bucket_erase [LawfulEqOrd κ] [DecidableEq κ] (map : ExtTreeMap κ β) (k other : κ) :
    bucket (map.erase k) other = if k = other then ∅ else bucket map other := by
  unfold bucket
  rw [ExtTreeMap.getElem?_erase]
  by_cases same : k = other <;> simp [same]

theorem NoEmptyBucket.insert [LawfulEqOrd κ] [DecidableEq κ]
    (nonempty : NoEmptyBucket map) {items : β} (stored : items ≠ ∅) :
    NoEmptyBucket (map.insert k items) := by
  intro other found
  rw [ExtTreeMap.getElem?_insert]
  by_cases same : k = other
  · simp only [same, Std.ReflCmp.compare_self]
    rintro ⟨⟩
    exact stored
  · simpa [same] using nonempty other found

theorem NoEmptyBucket.erase [LawfulEqOrd κ] [DecidableEq κ]
    (nonempty : NoEmptyBucket map) (k : κ) : NoEmptyBucket (map.erase k) := by
  intro other found
  rw [ExtTreeMap.getElem?_erase]
  by_cases same : k = other
  · simp [same]
  · simpa [same] using nonempty other found

/-- Without empty buckets a map is determined by its buckets. -/
theorem ext_bucket [LawfulEqOrd κ] {left right : ExtTreeMap κ β}
    (leftNonempty : NoEmptyBucket left) (rightNonempty : NoEmptyBucket right)
    (same : ∀ k, bucket left k = bucket right k) : left = right := by
  apply ExtTreeMap.ext_getElem?
  intro k
  have agree := same k
  unfold bucket at agree
  cases leftFound : left[k]? with
  | none =>
    cases rightFound : right[k]? with
    | none => rfl
    | some items =>
      simp only [leftFound, rightFound] at agree
      exact absurd agree.symm (rightNonempty k items rightFound)
  | some items =>
    cases rightFound : right[k]? with
    | none =>
      simp only [leftFound, rightFound] at agree
      exact absurd agree (leftNonempty k items leftFound)
    | some =>
      simp only [leftFound, rightFound, Option.getD_some] at agree
      rw [agree]

/-! ## Installing staged copies -/

/-- Install the staged buckets; an empty bucket erases its key. -/
def install (isEmpty : β → Bool) (base staged : ExtTreeMap κ β) : ExtTreeMap κ β :=
  staged.toList.foldl (fun map entry =>
      if isEmpty entry.2 then map.erase entry.1
      else map.insert entry.1 entry.2)
    base

variable [LawfulEqOrd κ] [DecidableEq κ] {isEmpty : β → Bool}

variable (isEmptySpec : ∀ items, isEmpty items = true ↔ items = ∅)

include isEmptySpec

/-- Installing staged buckets replaces the buckets of the staged keys. -/
theorem bucket_install (base staged : ExtTreeMap κ β) (k : κ) :
    bucket (install isEmpty base staged) k = staged[k]?.getD (bucket base k) := by
  unfold bucket install
  rw [observe_foldl_toList (·[k]?) fun entry _ => if isEmpty entry.2 then none else some entry.2]
  · cases staged[k]? with
    | none => rfl
    | some items =>
      cases empty : isEmpty items with
      | false => simp [empty]
      | true =>
        simp only [Option.elim_some, empty]
        exact ((isEmptySpec items).mp empty).symm
  · intro map entry
    cases isEmpty entry.2 <;> simp [ExtTreeMap.getElem?_erase, ExtTreeMap.getElem?_insert]

/-- Installation leaves no empty bucket behind. -/
theorem NoEmptyBucket.install {base : ExtTreeMap κ β} (nonempty : NoEmptyBucket base)
    (staged : ExtTreeMap κ β) : NoEmptyBucket (Collections.install isEmpty base staged) := by
  intro k items found
  unfold Collections.install at found
  rw [observe_foldl_toList (·[k]?)
    fun entry _ => if isEmpty entry.2 then none else some entry.2] at found
  · cases stagedFound : staged[k]? with
    | none =>
      rw [stagedFound] at found
      exact nonempty k items found
    | some stagedItems =>
      rw [stagedFound] at found
      simp only [Option.elim_some] at found
      split at found
      · cases found
      · rename_i notEmpty
        obtain rfl := Option.some.inj found
        exact fun empty => notEmpty ((isEmptySpec stagedItems).mpr empty)
  · intro map entry
    cases isEmpty entry.2 <;> simp [ExtTreeMap.getElem?_erase, ExtTreeMap.getElem?_insert]

/-- Staging edits and installing them folds the edits of each key over its
bucket. -/
theorem bucket_install_stage
    (base : ExtTreeMap κ β) (key : ε → κ) (edit : ε → β → β) (edits : List ε) (k : κ) :
    bucket (install isEmpty base (edits.foldl
          (fun staged e => stageEdit (bucket base) staged (key e) (edit e))
          ∅)) k =
      (edits.filter (key · = k)).foldl (fun items e => edit e items) (bucket base k) := by
  rw [bucket_install isEmptySpec, getElem?_stage]
  by_cases untouched : edits.filter (key · = k) = []
  · simp [untouched]
  · simp [untouched]

end Collections
end Haystack
