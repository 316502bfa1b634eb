import Haystack.Collections.Buckets

/-!
# Inverted indexes

A store assigns rows to identifiers, and every live row contributes items to
keys.  An inverted index reflects the store when the bucket of a key holds
exactly the items that the live rows contribute to it.  Replacing one row
removes its old postings and adds its new ones; if an item names the identifier
that contributed it, the index still reflects the store.
-/

namespace Haystack
namespace Collections

variable {ν : Type u} {ρ : Type v} {κ : Type w} {ι : Type x} {β : Type y}

/-- The replacement of one row. -/
structure RowChange (ν : Type u) (ρ : Type v) where
  id : ν
  before : Option ρ
  after : Option ρ

/-- One edit of an inverted index. -/
structure Posting (κ : Type w) (ι : Type x) where
  add : Bool
  key : κ
  item : ι

namespace RowChange

/-- The rows after a change. -/
def apply [DecidableEq ν] (live : ν → Option ρ) (change : RowChange ν ρ) : ν → Option ρ :=
  Function.update live change.id change.after

/-- Every change of a list starts from the row that is live at its turn. -/
def Tracks [DecidableEq ν] (live : ν → Option ρ) : List (RowChange ν ρ) → Prop
  | [] => True
  | change :: changes =>
    live change.id = change.before ∧ Tracks (change.apply live) changes

theorem tracks_append [DecidableEq ν] {live : ν → Option ρ}
    {first second : List (RowChange ν ρ)} :
    Tracks live (first ++ second) ↔
      Tracks live first ∧ Tracks (first.foldl apply live) second := by
  induction first generalizing live with
  | nil => simp [Tracks]
  | cons change first ih =>
    simp [Tracks, ih, and_assoc]

/-- The edits of a change: the items of the old row leave, then those of the
new row enter. -/
def postings (itemsOf : ν → ρ → List (κ × ι)) (change : RowChange ν ρ) : List (Posting κ ι) :=
  (change.before.toList.flatMap (itemsOf change.id)).map (fun slot => ⟨false, slot.1, slot.2⟩) ++
    (change.after.toList.flatMap (itemsOf change.id)).map fun slot => ⟨true, slot.1, slot.2⟩

/-- The changes that load a list of rows into an empty store. -/
def loads (rows : List (ν × ρ)) : List (RowChange ν ρ) :=
  rows.map fun row => ⟨row.1, none, some row.2⟩

variable {rows : List (ν × ρ)}

theorem tracks_loads [DecidableEq ν] (live : ν → Option ρ) (distinct : (rows.map Prod.fst).Nodup)
    (fresh : ∀ row ∈ rows, live row.1 = none) : Tracks live (loads rows) := by
  induction rows generalizing live with
  | nil => trivial
  | cons row rows ih =>
    rw [List.map_cons, List.nodup_cons] at distinct
    refine ⟨fresh row (by simp), ih _ distinct.2 ?_⟩
    intro other member
    have different : other.1 ≠ row.1 := fun same =>
      distinct.1 (same ▸ List.mem_map_of_mem member)
    simpa [apply, different] using fresh other (by simp [member])

theorem foldl_apply_loads [DecidableEq ν] (distinct : (rows.map Prod.fst).Nodup)
    (live : ν → Option ρ) (n : ν) (row : ρ) :
    ((loads rows).foldl apply live) n = some row ↔
      (n, row) ∈ rows ∨ n ∉ rows.map Prod.fst ∧ live n = some row := by
  induction rows generalizing live with
  | nil => simp [loads]
  | cons first rows ih =>
    obtain ⟨id, firstRow⟩ := first
    rw [List.map_cons, List.nodup_cons] at distinct
    have rest := ih distinct.2 (apply live ⟨id, none, some firstRow⟩)
    simp only [loads, List.map_cons, List.foldl_cons] at rest ⊢
    rw [rest]
    by_cases same : n = id
    · subst same
      have notRow : (n, row) ∉ rows := fun member =>
        distinct.1 (List.mem_map.mpr ⟨(n, row), member, rfl⟩)
      simp [apply, notRow, distinct.1, eq_comm]
    · simp [apply, same]

end RowChange

/-- The bucket of a key after a list of edits. -/
def editBucket [DecidableEq κ] (edit : Posting κ ι → β → β) (postings : List (Posting κ ι))
    (k : κ)
    (items : β) : β :=
  (postings.filter (·.key = k)).foldl (fun items p => edit p items) items

theorem editBucket_append [DecidableEq κ] (edit : Posting κ ι → β → β)
    (first second : List (Posting κ ι)) (k : κ) (items : β) :
    editBucket edit (first ++ second) k items =
      editBucket edit second k (editBucket edit first k items) := by
  simp [editBucket]

/-- The buckets hold exactly the items contributed by the live rows. -/
def Reflects (holds : ι → β → Prop) (itemsOf : ν → ρ → List (κ × ι)) (buckets : κ → β)
    (live : ν → Option ρ) : Prop :=
  ∀ key item, holds item (buckets key) ↔ ∃ n row, live n = some row ∧ (key, item) ∈ itemsOf n row

section Edits

variable [DecidableEq κ] {holds : ι → β → Prop} {edit : Posting κ ι → β → β}

/-- An edit adds or removes its own item and leaves all others. -/
def EditLaw (holds : ι → β → Prop) (edit : Posting κ ι → β → β) : Prop :=
  ∀ posting items item, holds item (edit posting items) ↔
    if posting.add then item = posting.item ∨ holds item items
    else holds item items ∧ item ≠ posting.item

theorem EditLaw.holds_removals
    (law : EditLaw holds edit) (slots : List (κ × ι)) (k : κ) (item : ι) (items : β) :
    holds item (editBucket edit (slots.map fun slot => ⟨false, slot.1, slot.2⟩) k items) ↔
      holds item items ∧ (k, item) ∉ slots := by
  induction slots generalizing items with
  | nil => simp [editBucket]
  | cons slot slots ih =>
    obtain ⟨key, _⟩ := slot
    rw [List.map_cons, ← List.singleton_append, editBucket_append, ih]
    by_cases same : key = k
    · subst same
      simp [editBucket, law _ _ _, and_assoc]
    · simp [editBucket, same, Ne.symm same]

theorem EditLaw.holds_additions
    (law : EditLaw holds edit) (slots : List (κ × ι)) (k : κ) (item : ι) (items : β) :
    holds item (editBucket edit (slots.map fun slot => ⟨true, slot.1, slot.2⟩) k items) ↔
      holds item items ∨ (k, item) ∈ slots := by
  induction slots generalizing items with
  | nil => simp [editBucket]
  | cons slot slots ih =>
    obtain ⟨key, _⟩ := slot
    rw [List.map_cons, ← List.singleton_append, editBucket_append, ih]
    by_cases same : key = k
    · subst same
      simp only [editBucket, List.filter_cons, decide_true, if_true, List.filter_nil,
        List.foldl_cons, List.foldl_nil, law _ _ _, List.mem_cons, Prod.mk.injEq]
      tauto
    · simp [editBucket, same, Ne.symm same]

variable [DecidableEq ν] {itemsOf : ν → ρ → List (κ × ι)} {buckets : κ → β} {live : ν → Option ρ}

/-- Replacing one row keeps the index in step with the store. -/
theorem Reflects.change (law : EditLaw holds edit) (owner : ι → ν)
    (owned : ∀ n row slot, slot ∈ itemsOf n row → owner slot.2 = n)
    (reflects : Reflects holds itemsOf buckets live) {change : RowChange ν ρ}
    (current : live change.id = change.before) :
    Reflects holds itemsOf (fun k => editBucket edit (change.postings itemsOf) k (buckets k))
      (change.apply live) := by
  intro key item
  beta_reduce
  rw [RowChange.postings, editBucket_append, law.holds_additions,
    law.holds_removals, reflects key item]
  constructor
  · rintro (⟨⟨n, row, found, given⟩, notOld⟩ | added)
    · have different : n ≠ change.id := by
        rintro rfl
        exact notOld (by simp [← current, found, given])
      exact ⟨n, row, by simpa [RowChange.apply, different] using found, given⟩
    · cases after : change.after with
      | none => simp [after] at added
      | some row =>
        exact ⟨change.id, row, by simp [RowChange.apply, after], by simpa [after] using added⟩
  · rintro ⟨n, row, found, given⟩
    by_cases same : n = change.id
    · subst same
      have after : change.after = some row := by
        simpa [RowChange.apply] using found
      exact Or.inr (by simpa [after] using given)
    · refine Or.inl ⟨⟨n, row, ?_, given⟩, ?_⟩
      · simpa [RowChange.apply, same] using found
      · intro old
        obtain ⟨_, _, oldGiven⟩ := List.mem_flatMap.mp old
        exact same ((owned _ _ _ given).symm.trans (owned _ _ _ oldGiven))

/-- A list of changes, each from the row live at its turn, keeps the index in
step with the store. -/
theorem Reflects.changes (law : EditLaw holds edit) (owner : ι → ν)
    (owned : ∀ n row slot, slot ∈ itemsOf n row → owner slot.2 = n)
    (reflects : Reflects holds itemsOf buckets live)
    {changes : List (RowChange ν ρ)} (tracks : RowChange.Tracks live changes) :
    Reflects holds itemsOf (fun k => editBucket edit
        (changes.flatMap (RowChange.postings itemsOf)) k (buckets k))
      (changes.foldl RowChange.apply live) := by
  induction changes generalizing buckets live with
  | nil => exact reflects
  | cons change changes ih =>
    have step := reflects.change law owner owned tracks.1
    simpa [editBucket_append] using ih step tracks.2

end Edits

/-! ## Buckets that are lists -/

section Lists

/-- Every bucket holds exactly the items of the live rows, each once. -/
structure ExactLists (itemsOf : ν → ρ → List (κ × ι)) (buckets : κ → List ι)
    (live : ν → Option ρ) : Prop where
  reflects : Reflects (· ∈ ·) itemsOf buckets live
  nodup : ∀ k, (buckets k).Nodup

/-- Two exact indexes of the same rows agree up to the order in a bucket. -/
theorem ExactLists.perm {itemsOf : ν → ρ → List (κ × ι)} {live : ν → Option ρ}
    {left right : κ → List ι} (leftExact : ExactLists itemsOf left live)
    (rightExact : ExactLists itemsOf right live) (k : κ) : (left k).Perm (right k) := by
  refine (List.perm_ext_iff_of_nodup (leftExact.nodup k) (rightExact.nodup k)).mpr ?_
  intro item
  exact (leftExact.reflects k item).trans (rightExact.reflects k item).symm

variable [DecidableEq ι]

/-- Append an item, or remove all its occurrences. -/
def postList (posting : Posting κ ι) (items : List ι) : List ι :=
  if posting.add then items ++ [posting.item]
  else items.filter (· ≠ posting.item)

theorem postList_law : EditLaw (· ∈ ·) (postList : Posting κ ι → List ι → List ι) := by
  rintro ⟨add, key, item⟩ items other
  cases add <;> simp [postList, or_comm]

variable [DecidableEq κ]

/-- Additions append the items of the key in order. -/
theorem editBucket_additions (slots : List (κ × ι)) (k : κ) (items : List ι) :
    editBucket postList (slots.map fun slot => ⟨true, slot.1, slot.2⟩) k items =
      items ++ (slots.filter (·.1 = k)).map Prod.snd := by
  induction slots generalizing items with
  | nil => simp [editBucket]
  | cons slot slots ih =>
    rw [List.map_cons, ← List.singleton_append, editBucket_append, ih]
    by_cases same : slot.1 = k <;> simp [editBucket, same, postList]

theorem nodup_editBucket_removals
    {items : List ι} (nodup : items.Nodup) (slots : List (κ × ι)) (k : κ) :
    (editBucket postList (slots.map fun slot => ⟨false, slot.1, slot.2⟩) k items).Nodup := by
  induction slots generalizing items with
  | nil => simpa [editBucket] using nodup
  | cons slot slots ih =>
    rw [List.map_cons, ← List.singleton_append, editBucket_append]
    apply ih
    by_cases same : slot.1 = k
    · simpa [editBucket, same, postList] using nodup.filter _
    · simpa [editBucket, same] using nodup

variable [DecidableEq ν] {itemsOf : ν → ρ → List (κ × ι)}
variable {buckets : κ → List ι} {live : ν → Option ρ}

/-- Replacing one row keeps every bucket exact. -/
theorem ExactLists.change (owner : ι → ν)
    (owned : ∀ n row slot, slot ∈ itemsOf n row → owner slot.2 = n)
    (distinct : ∀ n row, (itemsOf n row).Nodup)
    (exactBefore : ExactLists itemsOf buckets live) {change : RowChange ν ρ}
    (current : live change.id = change.before) :
    ExactLists itemsOf (fun k => editBucket postList (change.postings itemsOf) k (buckets k))
      (change.apply live) := by
  refine ⟨exactBefore.reflects.change postList_law owner owned current, ?_⟩
  intro k
  rw [RowChange.postings, editBucket_append, editBucket_additions]
  refine List.Nodup.append (nodup_editBucket_removals (exactBefore.nodup k) _ _) ?_ ?_
  · cases after : change.after with
    | none => simp
    | some row =>
      rw [Option.toList_some, List.flatMap_singleton]
      refine List.Nodup.map_on ?_ ((distinct change.id row).filter _)
      rintro ⟨leftKey, leftItem⟩ leftMember ⟨rightKey, rightItem⟩ rightMember same
      simp only [List.mem_filter, decide_eq_true_eq] at leftMember rightMember
      rw [Prod.mk.injEq]
      exact ⟨leftMember.2.trans rightMember.2.symm, same⟩
  · intro item kept added
    rw [postList_law.holds_removals] at kept
    obtain ⟨present, notOld⟩ := kept
    obtain ⟨n, row, found, given⟩ := (exactBefore.reflects k item).mp present
    obtain ⟨⟨_, _⟩, member, rfl⟩ := List.mem_map.mp added
    obtain ⟨_, _, newGiven⟩ := List.mem_flatMap.mp (List.mem_filter.mp member).1
    -- an item kept from another row has another owner
    have oldOwner := owned _ _ _ given
    have newOwner := owned _ _ _ newGiven
    obtain rfl : n = change.id := oldOwner.symm.trans newOwner
    exact notOld (by simp [← current, found, given])

/-- A list of changes keeps every bucket exact. -/
theorem ExactLists.changes (owner : ι → ν)
    (owned : ∀ n row slot, slot ∈ itemsOf n row → owner slot.2 = n)
    (distinct : ∀ n row, (itemsOf n row).Nodup) (exactBefore : ExactLists itemsOf buckets live)
    {changes : List (RowChange ν ρ)} (tracks : RowChange.Tracks live changes) :
    ExactLists itemsOf (fun k => editBucket postList
        (changes.flatMap (RowChange.postings itemsOf)) k (buckets k))
      (changes.foldl RowChange.apply live) := by
  induction changes generalizing buckets live with
  | nil => exact exactBefore
  | cons change changes ih =>
    have step := exactBefore.change owner owned distinct tracks.1
    simpa [editBucket_append] using ih step tracks.2

end Lists
end Collections
end Haystack
