import Haystack.Graph.ValueIndex

/-!
# Exactness of the value index

The value of a registered field posts the id of its row under the field and the
value.  Every operation of the index, native or staged, is described by the list
of postings that it applies (`ValueIndex.Edited`), and the postings of a change
keep the index exact for the live rows.
-/

namespace Haystack
namespace Graph

open Std (ExtTreeMap)
open Collections

namespace ValueIndex

/-! ## The edits of a change -/

/-- The value of an indexed field posts the id under the field and value. -/
def slot (fields : String → Bool) (id : Nat) (name : String)
    (value : Kind) : Option ((String × OrderableKind) × Nat) :=
  if fields name then
    (OrderableKind.fromKind value).map fun key => ((name, key), id)
  else none

variable {id : Nat} {fields : String → Bool} {name : String}

theorem slot_eq_some_iff {value : Kind} {entry : (String × OrderableKind) × Nat} :
    slot fields id name value = some entry ↔
      fields name = true ∧ entry.1.1 = name ∧ entry.2 = id ∧
        OrderableKind.fromKind value = some entry.1.2 := by
  obtain ⟨⟨_, key⟩, _⟩ := entry
  unfold slot
  by_cases registered : fields name = true
  · simp only [registered, if_true, Option.map_eq_some_iff, Prod.mk.injEq, true_and]
    constructor
    · rintro ⟨other, found, ⟨rfl, rfl⟩, rfl⟩
      exact ⟨rfl, rfl, found⟩
    · rintro ⟨rfl, rfl, found⟩
      exact ⟨key, found, ⟨rfl, rfl⟩, rfl⟩
  · simp [registered]

variable {k : String × OrderableKind}

/-- A row is posted under the orderable values of its registered fields. -/
theorem mem_rowSlots_slot {n item : Nat} {row : HDict} :
    (k, item) ∈ rowSlots (slot fields) n row ↔ fields k.1 = true ∧ item = n ∧
        ∃ value, row.get k.1 = some value ∧ OrderableKind.fromKind value = some k.2 := by
  rw [mem_rowSlots]
  constructor
  · rintro ⟨name, value, found, given⟩
    obtain ⟨registered, rfl, owned, orderable⟩ := slot_eq_some_iff.mp given
    exact ⟨registered, owned, value, found, orderable⟩
  · rintro ⟨registered, owned, value, found, orderable⟩
    exact ⟨k.1, value, found, slot_eq_some_iff.mpr ⟨registered, rfl, owned, orderable⟩⟩

private theorem value_slot_owned (fields : String → Bool) (n : Nat) (row : HDict)
    (entry : (String × OrderableKind) × Nat) (member : entry ∈ rowSlots (slot fields) n row) :
    entry.2 = n :=
  (mem_rowSlots_slot.mp member).2.1

private theorem value_slot_distinct (fields : String → Bool) (n : Nat) (row : HDict) :
    (rowSlots (slot fields) n row).Nodup :=
  nodup_rowSlots (fun entry => entry.1.1) (fun given => (slot_eq_some_iff.mp given).2.1) n row

/-- No tree of the index has an empty bucket. -/
def NoEmptyTree (index : ValueIndex) : Prop :=
  ∀ (field : String) (tree : FieldTree), index.indexes[field]? = some tree → NoEmptyBucket tree

/-- Every bucket of a registered field is exact for the live rows. -/
structure Exact (index : ValueIndex) (live : Nat → Option HDict) : Prop where
  lists : ExactLists (rowSlots (slot index.hasIndex)) index.bucketOf live
  nonempty : index.NoEmptyTree

theorem hasIndex_eq (index : ValueIndex) (field : String) :
    index.hasIndex field = index.indexes[field]?.isSome :=
  ExtTreeMap.contains_eq_isSome_getElem?

variable {index : ValueIndex}

theorem bucketOf_of_not_hasIndex (unregistered : index.hasIndex k.1 = false) :
    index.bucketOf k = [] := by
  rw [hasIndex_eq, Option.isSome_eq_false_iff, Option.isNone_iff_eq_none] at unregistered
  simp [bucketOf, unregistered]

/-- One index is another after a list of edits. -/
structure Edited (index index' : ValueIndex)
    (postings : List (Posting (String × OrderableKind) Nat)) : Prop where
  fields : index'.hasIndex = index.hasIndex
  buckets : ∀ k, index'.bucketOf k = editBucket postList postings k (index.bucketOf k)
  nonempty : index.NoEmptyTree → index'.NoEmptyTree

theorem Edited.refl (index : ValueIndex) : Edited index index [] :=
  ⟨rfl, fun _ => rfl, fun nonempty => nonempty⟩

theorem Edited.trans {first second third : ValueIndex}
    {left right : List (Posting (String × OrderableKind) Nat)}
    (firstEdit : Edited first second left) (secondEdit : Edited second third right) :
    Edited first third (left ++ right) := by
  refine ⟨secondEdit.fields.trans firstEdit.fields, ?_,
    fun nonempty => secondEdit.nonempty (firstEdit.nonempty nonempty)⟩
  intro k
  rw [secondEdit.buckets, firstEdit.buckets, editBucket_append]

variable {live : Nat → Option HDict} {changes : List IndexChange} {index' : ValueIndex}

/-- Applying the postings of a list of changes keeps the index exact. -/
theorem Exact.edited (exactBefore : index.Exact live) (tracks : RowChange.Tracks live changes)
    (edited : Edited index index' (changes.flatMap
        (RowChange.postings (rowSlots (slot index.hasIndex))))) :
    index'.Exact (changes.foldl RowChange.apply live) := by
  refine ⟨?_, edited.nonempty exactBefore.nonempty⟩
  rw [edited.fields, funext edited.buckets]
  exact exactBefore.lists.changes (fun item => item)
    (value_slot_owned _) (value_slot_distinct _) tracks

/-! ## Native operations -/

variable {tree : FieldTree} {field : String}

private theorem hasIndex_insert (found : index.indexes[field]? = some tree) (tree' : FieldTree) :
    (ValueIndex.mk (index.indexes.insert field tree')).hasIndex = index.hasIndex := by
  funext other
  by_cases same : field = other
  · subst same
    simp [hasIndex_eq, found]
  · simp [hasIndex, same]

private theorem NoEmptyTree.insert (nonempty : index.NoEmptyTree) (field : String)
    (stored : NoEmptyBucket tree) : NoEmptyTree ⟨index.indexes.insert field tree⟩ := by
  intro other otherTree found
  rw [ExtTreeMap.getElem?_insert] at found
  by_cases same : field = other
  · simp only [same, Std.ReflCmp.compare_self, if_true, Option.some.injEq] at found
    exact found ▸ stored
  · exact nonempty other otherTree (by simpa [same] using found)

variable {posting : Posting (String × OrderableKind) Nat}

private theorem edited_setTree {key : OrderableKind} {tree' : FieldTree}
    (found : index.indexes[field]? = some tree) (target : posting.key = (field, key))
    (buckets : ∀ other, bucket tree' other =
      if key = other then postList posting (bucket tree key)
      else bucket tree other)
    (nonempty : NoEmptyBucket tree → NoEmptyBucket tree') :
    Edited index ⟨index.indexes.insert field tree'⟩ [posting] := by
  refine ⟨hasIndex_insert found tree', ?_,
    fun before => before.insert field (nonempty (before field tree found))⟩
  rintro ⟨otherField, otherKey⟩
  by_cases sameField : field = otherField
  · subst sameField
    by_cases sameKey : key = otherKey
    · subst sameKey
      simp [bucketOf, buckets, editBucket, target, found]
    · simp [bucketOf, buckets, editBucket, target, found, sameKey]
  · simp [bucketOf, editBucket, target, sameField, ExtTreeMap.getElem?_insert]

private theorem edited_tag {add : Bool} {value : Kind}
    (posted : ∀ tree key, index.indexes[name]? = some tree →
      OrderableKind.fromKind value = some key →
      Edited index index' [⟨add, (name, key), id⟩])
    (skipped : OrderableKind.fromKind value = none → index' = index) :
    Edited index (if index.hasIndex name then index' else index)
      (editPosting (slot index.hasIndex) ⟨id, add, name, value⟩).toList := by
  cases found : index.indexes[name]? with
  | none =>
    have absent : index.hasIndex name = false := by
      simp [hasIndex_eq, found]
    simpa [absent, editPosting, slot] using Edited.refl index
  | some tree =>
    have registered : index.hasIndex name = true := by
      simp [hasIndex_eq, found]
    cases orderable : OrderableKind.fromKind value with
    | none =>
      simpa [skipped orderable, editPosting, slot, orderable] using Edited.refl index
    | some key =>
      simpa [editPosting, slot, registered, orderable] using posted tree key found orderable

theorem edited_add (index : ValueIndex) (id : Nat) (name : String) (value : Kind) :
    Edited index (if index.hasIndex name then index.add id name value else index)
      (editPosting (slot index.hasIndex) ⟨id, true, name, value⟩).toList := by
  refine edited_tag ?_ ?_
  · intro tree key found orderable
    simp only [add, found, orderable]
    refine edited_setTree found rfl ?_ fun before => before.insert ?_
    · intro other
      rw [bucket_insert]
      rfl
    · simp
  · intro orderable
    simp [add, orderable]

theorem edited_remove (index : ValueIndex) (id : Nat) (name : String) (value : Kind) :
    Edited index (if index.hasIndex name then index.remove id name value else index)
      (editPosting (slot index.hasIndex) ⟨id, false, name, value⟩).toList := by
  refine edited_tag ?_ ?_
  · intro tree key found orderable
    cases stored : tree[key]? with
    | none =>
      -- nothing is stored under the value, so nothing changes
      simp only [remove, found, orderable, stored]
      refine ⟨rfl, ?_, fun nonempty => nonempty⟩
      rintro ⟨otherField, otherKey⟩
      by_cases same : (name, key) = (otherField, otherKey)
      · obtain ⟨rfl, rfl⟩ := Prod.mk.inj same
        simp [bucketOf, found, bucket, stored, editBucket, postList]
      · simp [editBucket, same]
    | some =>
      simp only [remove, found, orderable, stored]
      refine edited_setTree found rfl ?_ ?_
      · intro other
        rw [bucket_of_getElem? stored]
        split
        · rename_i empty
          rw [bucket_erase]
          simp only [postList]
          rw [List.isEmpty_iff.mp empty]
          rfl
        · rw [bucket_insert]
          rfl
      · intro before
        split
        · exact before.erase key
        · rename_i remaining
          refine before.insert ?_
          simpa using remaining
  · intro orderable
    simp [remove, orderable]

private theorem edited_loop {step : ValueIndex → String × Kind → ValueIndex} {add : Bool}
    (stepEdited : ∀ index tag, Edited index (step index tag)
      (editPosting (slot index.hasIndex) ⟨id, add, tag.1, tag.2⟩).toList)
    (tags : List (String × Kind)) (index : ValueIndex) :
    Edited index (tags.foldl step index)
      ((tags.filterMap fun tag => slot index.hasIndex id tag.1 tag.2).map
        fun entry => ⟨add, entry.1, entry.2⟩) := by
  induction tags generalizing index with
  | nil => exact Edited.refl index
  | cons tag tags ih =>
    have first := stepEdited index tag
    have rest := ih (step index tag)
    rw [first.fields] at rest
    have both := first.trans rest
    cases given : slot index.hasIndex id tag.1 tag.2 <;> simpa [editPosting, given] using both

/-- Adding the values of a row adds its postings. -/
theorem edited_addTags (index : ValueIndex) (id : Nat) (row : HDict) :
    Edited index (index.addTags id row) ((rowSlots (slot index.hasIndex) id row).map
        fun entry => ⟨true, entry.1, entry.2⟩) :=
  edited_loop (fun index tag => edited_add index id tag.1 tag.2) row.iter index

/-- Removing the values of a row removes its postings. -/
theorem edited_removeTags (index : ValueIndex) (id : Nat) (row : HDict) :
    Edited index (index.removeTags id row) ((rowSlots (slot index.hasIndex) id row).map
        fun entry => ⟨false, entry.1, entry.2⟩) :=
  edited_loop (fun index tag => edited_remove index id tag.1 tag.2) row.iter index

/-- Adding the row of a fresh id keeps the index exact. -/
theorem Exact.addTags (exactBefore : index.Exact live) (fresh : live id = none) (row : HDict) :
    (index.addTags id row).Exact (Function.update live id (some row)) := by
  have tracks : RowChange.Tracks live [⟨id, none, some row⟩] := ⟨fresh, trivial⟩
  refine exactBefore.edited tracks ?_
  simpa [RowChange.postings] using edited_addTags index id row

/-- Removing the row of a live id keeps the index exact. -/
theorem Exact.removeTags (exactBefore : index.Exact live) {row : HDict}
    (found : live id = some row) :
    (index.removeTags id row).Exact (Function.update live id none) := by
  have tracks : RowChange.Tracks live [⟨id, some row, none⟩] := ⟨found, trivial⟩
  refine exactBefore.edited tracks ?_
  simpa [RowChange.postings] using edited_removeTags index id row

/-! ## Batches -/

variable {budget after : ValueBudget} {entries : PreparedValues}

/-- The staged buckets of a successful preparation. -/
theorem entries_of_prepareChanges
    (prepared : index.prepareChanges changes budget = some (entries, after)) :
    entries = (changes.flatMap (RowChange.postings (rowSlots (slot index.hasIndex)))).foldl
        (fun staged posting =>
          stageEdit index.bucketOf staged posting.key (postList posting))
        ∅ := by
  obtain ⟨_, _, loop⟩ := Option.bind_eq_some_iff.mp prepared
  refine observe_changes (slot index.hasIndex) index.bucketOf postList Prod.fst ?_ loop
  intro state change result stepped
  refine foldlM_option_observe Prod.fst _ ?_ stepped
  intro state edit result stepped
  obtain ⟨_, _, stepped⟩ := Option.bind_eq_some_iff.mp stepped
  cases found : index.indexes[edit.name]? with
  | none =>
    rw [found] at stepped
    obtain rfl := Option.some.inj stepped
    simp [stageTag, editPosting, slot, hasIndex_eq, found]
  | some =>
    have registered : index.hasIndex edit.name = true := by
      simp [hasIndex_eq, found]
    rw [found] at stepped
    obtain ⟨_, _, stepped⟩ := Option.bind_eq_some_iff.mp stepped
    cases orderable : OrderableKind.fromKind edit.value with
    | none =>
      rw [orderable] at stepped
      obtain rfl := Option.some.inj stepped
      simp [stageTag, editPosting, slot, orderable]
    | some =>
      rw [orderable] at stepped
      obtain ⟨_, _, stepped⟩ := Option.bind_eq_some_iff.mp stepped
      obtain ⟨_, _, stepped⟩ := Option.bind_eq_some_iff.mp stepped
      obtain ⟨_, _, stepped⟩ := Option.bind_eq_some_iff.mp stepped
      obtain rfl := Option.some.inj stepped
      simp only [stageTag, editPosting, slot, registered, orderable]
      rfl

private theorem hasIndex_installBucket
    (index : ValueIndex) (entry : (String × OrderableKind) × List Nat) :
    (index.installBucket entry).hasIndex = index.hasIndex := by
  unfold installBucket
  cases found : index.indexes[entry.1.1]? with
  | none => rfl
  | some => exact hasIndex_insert found _

private theorem NoEmptyTree.installBucket (nonempty : index.NoEmptyTree)
    (entry : (String × OrderableKind) × List Nat) : (index.installBucket entry).NoEmptyTree := by
  unfold ValueIndex.installBucket
  cases found : index.indexes[entry.1.1]? with
  | none => exact nonempty
  | some =>
    refine nonempty.insert _ ?_
    have before := nonempty _ _ found
    split
    · exact before.erase _
    · rename_i remaining
      exact before.insert (by simpa using remaining)

private theorem observe_installBucket (k : String × OrderableKind) (index : ValueIndex)
    (entry : (String × OrderableKind) × List Nat) :
    (index.installBucket entry).indexes[k.1]?.map (bucket · k.2) = if entry.1 = k then
        (index.indexes[k.1]?.map (bucket · k.2)).map fun _ => entry.2
      else index.indexes[k.1]?.map (bucket · k.2) := by
  obtain ⟨⟨field, key⟩, ids⟩ := entry
  obtain ⟨otherField, otherKey⟩ := k
  unfold installBucket
  by_cases sameField : field = otherField
  · subst sameField
    cases found : index.indexes[field]? with
    | none => simp [found]
    | some =>
      by_cases sameKey : key = otherKey
      · subst sameKey
        cases ids with
        | nil => simp [bucket_erase]
        | cons => simp [bucket_insert]
      · cases ids with
        | nil => simp [bucket_erase, sameKey]
        | cons => simp [bucket_insert, sameKey]
  · cases found : index.indexes[field]? with
    | none => simp [sameField]
    | some => simp [ExtTreeMap.getElem?_insert, sameField]

/-- Installing staged buckets replaces the buckets of the staged slots. -/
theorem bucketOf_applyPrepared (index : ValueIndex) (prepared : PreparedValues)
    (registered : index.hasIndex k.1 = true) :
    (index.applyPrepared prepared).bucketOf k = prepared[k]?.getD (index.bucketOf k) := by
  have observed := observe_foldl_toList
    (fun index : ValueIndex => index.indexes[k.1]?.map (bucket · k.2))
    (fun entry seen => seen.map fun _ => entry.2) (observe_installBucket k)
  rw [hasIndex_eq, Option.isSome_iff_exists] at registered
  obtain ⟨_, found⟩ := registered
  unfold bucketOf applyPrepared
  rw [observed, found]
  cases prepared[k]? <;> rfl

private theorem posting_registered
    (member : posting ∈ changes.flatMap (RowChange.postings (rowSlots (slot fields)))) :
    fields posting.key.1 = true := by
  obtain ⟨_, _, member⟩ := List.mem_flatMap.mp member
  rw [← filterMap_changeEdits] at member
  obtain ⟨_, _, posted⟩ := List.mem_filterMap.mp member
  obtain ⟨_, given, rfl⟩ := Option.map_eq_some_iff.mp posted
  obtain ⟨registered, same, _⟩ := slot_eq_some_iff.mp given
  simpa [same] using registered

theorem hasIndex_applyPrepared (index : ValueIndex) (entries : PreparedValues) :
    (index.applyPrepared entries).hasIndex = index.hasIndex := by
  refine List.foldlRecOn (motive := (·.hasIndex = index.hasIndex))
    entries.toList installBucket rfl ?_
  intro other same entry _
  exact (hasIndex_installBucket other entry).trans same

private theorem NoEmptyTree.applyPrepared
    (nonempty : index.NoEmptyTree) (entries : PreparedValues) :
    (index.applyPrepared entries).NoEmptyTree := by
  refine List.foldlRecOn (motive := NoEmptyTree) entries.toList
    ValueIndex.installBucket nonempty ?_
  intro other kept entry _
  exact kept.installBucket entry

variable {current : ValueIndex}

/-- The bucket of a slot after publication: the staged one when the batch
touches the slot, and the current one otherwise. -/
theorem bucketOf_publish (prepared : index.prepareChanges changes budget = some (entries, after)) (fields : current.hasIndex = index.hasIndex)
    (k : String × OrderableKind) :
    let postings := changes.flatMap (RowChange.postings (rowSlots (slot index.hasIndex)))
    (current.applyPrepared entries).bucketOf k =
        editBucket postList postings k (index.bucketOf k) ∨
      (current.applyPrepared entries).bucketOf k =
        editBucket postList postings k (current.bucketOf k) := by
  intro postings
  by_cases untouched : postings.filter (·.key = k) = []
  · right
    have same : ∀ items : List Nat, editBucket postList postings k items = items := by
      intro items
      rw [editBucket, untouched]
      rfl
    rw [same]
    by_cases registered : current.hasIndex k.1 = true
    · rw [bucketOf_applyPrepared current entries registered,
        entries_of_prepareChanges prepared, getElem?_stage, if_pos untouched]
      rfl
    · have unregistered := eq_false_of_ne_true registered
      rw [bucketOf_of_not_hasIndex unregistered, bucketOf_of_not_hasIndex]
      rw [hasIndex_applyPrepared]
      exact unregistered
  · left
    obtain ⟨_, member⟩ := List.exists_mem_of_ne_nil _ untouched
    obtain ⟨member, same⟩ := List.mem_filter.mp member
    have registered := posting_registered member
    rw [of_decide_eq_true same, ← fields] at registered
    rw [bucketOf_applyPrepared current entries registered,
      entries_of_prepareChanges prepared, getElem?_stage, if_neg untouched]
    rfl

/-- A batch keeps the index exact.  The index may have been rebuilt between
preparation and publication, which can reorder its buckets. -/
theorem Exact.applyPrepared (exactPrepared : index.Exact live) (exactCurrent : current.Exact live)
    (fields : current.hasIndex = index.hasIndex) (tracks : RowChange.Tracks live changes)
    (prepared : index.prepareChanges changes budget = some (entries, after)) :
    (current.applyPrepared entries).Exact (changes.foldl RowChange.apply live) := by
  have currentLists := exactCurrent.lists
  rw [fields] at currentLists
  have fromPrepared := exactPrepared.lists.changes (fun item => item)
    (value_slot_owned _) (value_slot_distinct _) tracks
  have fromCurrent := currentLists.changes (fun item => item)
    (value_slot_owned _) (value_slot_distinct _) tracks
  refine ⟨⟨?_, ?_⟩, exactCurrent.nonempty.applyPrepared entries⟩
  · intro k item
    rw [hasIndex_applyPrepared, fields]
    rcases bucketOf_publish prepared fields k with staged | kept
    · rw [staged]
      exact fromPrepared.reflects k item
    · rw [kept]
      exact fromCurrent.reflects k item
  · intro k
    rcases bucketOf_publish prepared fields k with staged | kept
    · rw [staged]
      exact fromPrepared.nodup k
    · rw [kept]
      exact fromCurrent.nodup k

/-! ## Registration and rebuilding -/

theorem getElem?_clear (index : ValueIndex) (field : String) :
    index.clear.indexes[field]? = index.indexes[field]?.map fun _ => ∅ := by
  unfold clear
  rw [observe_foldl_toList (·[field]?) fun _ _ => some ∅]
  · cases index.indexes[field]? <;> rfl
  · intro indexes entry
    by_cases same : entry.1 = field <;> simp [ExtTreeMap.getElem?_insert, same]

theorem exact_clear (index : ValueIndex) : index.clear.Exact fun _ => none := by
  have empty : ∀ k, index.clear.bucketOf k = [] := by
    intro k
    unfold bucketOf
    rw [getElem?_clear]
    cases index.indexes[k.1]? with
    | none => rfl
    | some => exact bucket_empty k.2
  refine ⟨⟨?_, ?_⟩, ?_⟩
  · intro k item
    simp [empty]
  · simp [empty]
  · intro field tree found
    rw [getElem?_clear] at found
    obtain ⟨_, _, rfl⟩ := Option.map_eq_some_iff.mp found
    exact NoEmptyBucket.empty

private theorem edited_rows
    (fields : String → Bool) {step : ValueIndex → Nat × HDict → ValueIndex}
    (Registered : (String → Bool) → Prop)
    (stepEdited : ∀ index row, Registered index.hasIndex → Edited index (step index row)
        ((rowSlots (slot fields) row.1 row.2).map fun entry => ⟨true, entry.1, entry.2⟩))
    (rows : List (Nat × HDict)) (index : ValueIndex) (registered : Registered index.hasIndex) :
    Edited index (rows.foldl step index) ((RowChange.loads rows).flatMap
        (RowChange.postings (rowSlots (slot fields)))) := by
  induction rows generalizing index with
  | nil => exact Edited.refl index
  | cons row rows ih =>
    have first := stepEdited index row registered
    have rest := ih (step index row) (first.fields ▸ registered)
    simpa [RowChange.loads, RowChange.postings] using first.trans rest

variable {rows : List (Nat × HDict)}

private theorem foldl_loads_eq (distinct : (rows.map Prod.fst).Nodup)
    (liveRows : ∀ n row, live n = some row ↔ (n, row) ∈ rows) :
    (RowChange.loads rows).foldl RowChange.apply (fun _ => none) = live := by
  funext n
  apply Option.ext
  intro row
  rw [RowChange.foldl_apply_loads distinct, liveRows]
  simp

/-- Adding every live row to a cleared index makes it exact. -/
theorem exact_rebuild (index : ValueIndex) (distinct : (rows.map Prod.fst).Nodup)
    (liveRows : ∀ n row, live n = some row ↔ (n, row) ∈ rows) :
    (rows.foldl (fun index row => index.addTags row.1 row.2) index.clear).Exact live := by
  have edited := edited_rows index.clear.hasIndex (· = index.clear.hasIndex)
    (fun other row same => same ▸ edited_addTags other row.1 row.2)
    rows index.clear rfl
  have tracks := RowChange.tracks_loads (fun _ => none) distinct fun _ _ => rfl
  exact foldl_loads_eq distinct liveRows ▸ (exact_clear index).edited tracks edited

private theorem rowSlots_single (field : String) (id : Nat) (row : HDict) :
    rowSlots (slot (· = field)) id row =
      ((row.get field).bind (slot (· = field) id field)).toList := by
  have narrowed : rowSlots (slot (· = field)) id row = (row.iter.filter (·.1 = field)).filterMap
        fun tag => slot (· = field) id tag.1 tag.2 := by
    rw [List.filterMap_filter]
    unfold rowSlots
    congr 1
    funext tag
    by_cases same : tag.1 = field <;> simp [slot, same]
  rw [narrowed, HDict.iter, filter_toList_key]
  change _ = ((row.tags[field]?).bind _).toList
  cases row.tags[field]? with
  | none => rfl
  | some value =>
    cases given : slot (· = field) id field value <;> simp [given]

private theorem edited_backfill (field : String) (index : ValueIndex) (row : Nat × HDict)
    (registered : index.hasIndex field = true) :
    Edited index (index.backfill field row.1 row.2) ((rowSlots (slot (· = field)) row.1 row.2).map
        fun entry => ⟨true, entry.1, entry.2⟩) := by
  rw [rowSlots_single]
  unfold backfill
  cases row.2.get field with
  | none => exact Edited.refl index
  | some value =>
    have added := edited_add index row.1 field value
    cases orderable : OrderableKind.fromKind value <;>
      simpa [editPosting, slot, registered, orderable] using added

theorem hasIndex_indexField (index : ValueIndex) (field other : String) :
    (index.indexField field).hasIndex other =
      (decide (other = field) || index.hasIndex other) := by
  unfold indexField
  by_cases same : field = other
  · simp [hasIndex, same]
  · simp [hasIndex, same, Ne.symm same]

theorem bucketOf_indexField (index : ValueIndex) (field : String) (k : String × OrderableKind) :
    (index.indexField field).bucketOf k = index.bucketOf k := by
  unfold indexField bucketOf
  rw [ExtTreeMap.getElem?_insert]
  by_cases same : field = k.1
  · subst same
    cases index.indexes[k.1]? <;> simp
  · simp [same]

private theorem NoEmptyTree.indexField (nonempty : index.NoEmptyTree) (field : String) :
    (index.indexField field).NoEmptyTree := by
  refine nonempty.insert field ?_
  cases found : index.indexes[field]? with
  | none => exact NoEmptyBucket.empty
  | some tree => exact nonempty field tree found

/-- Registering a field and adding its value for every live row keeps the
index exact. -/
theorem Exact.indexField (exactBefore : index.Exact live)
    (unregistered : index.hasIndex field = false) (distinct : (rows.map Prod.fst).Nodup)
    (liveRows : ∀ n row, live n = some row ↔ (n, row) ∈ rows) :
    (rows.foldl (fun index row => index.backfill field row.1 row.2)
      (index.indexField field)).Exact live := by
  have edited := edited_rows (· = field) (fun fields => fields field = true)
    (fun other row registered => edited_backfill field other row registered)
    rows (index.indexField field) (by simp [hasIndex_indexField])
  -- the new field alone, loaded from nothing
  have noRows : ExactLists (rowSlots (slot (· = field)))
      (fun _ => ([] : List Nat)) fun _ => none :=
    ⟨fun k item => by simp, fun _ => List.nodup_nil⟩
  have fieldExact := noRows.changes (fun item => item) (value_slot_owned _)
    (value_slot_distinct _)
    (RowChange.tracks_loads (fun _ => none) distinct fun _ _ => rfl)
  rw [foldl_loads_eq distinct liveRows] at fieldExact
  have newBucket : ∀ k : String × OrderableKind, k.1 = field →
      index.bucketOf k = [] := fun k same =>
    bucketOf_of_not_hasIndex (same ▸ unregistered)
  have oldBucket : ∀ k : String × OrderableKind, k.1 ≠ field →
      ∀ items : List Nat, editBucket postList ((RowChange.loads rows).flatMap
        (RowChange.postings (rowSlots (slot (· = field))))) k items = items := by
    intro k different items
    have untouched : ((RowChange.loads rows).flatMap
        (RowChange.postings (rowSlots (slot (· = field))))).filter (·.key = k) = [] := by
      refine List.filter_eq_nil_iff.mpr ?_
      intro posting member same
      have registered := posting_registered member
      rw [of_decide_eq_true same] at registered
      exact different (of_decide_eq_true registered)
    rw [editBucket, untouched]
    rfl
  refine ⟨⟨?_, ?_⟩, edited.nonempty (exactBefore.nonempty.indexField field)⟩
  · intro k item
    rw [edited.buckets, edited.fields, bucketOf_indexField]
    by_cases same : k.1 = field
    · rw [newBucket k same]
      refine (fieldExact.reflects k item).trans ?_
      simp [mem_rowSlots_slot, hasIndex_indexField, same]
    · rw [oldBucket k same]
      refine (exactBefore.lists.reflects k item).trans ?_
      simp [mem_rowSlots_slot, hasIndex_indexField, same]
  · intro k
    rw [edited.buckets, bucketOf_indexField]
    by_cases same : k.1 = field
    · rw [newBucket k same]
      exact fieldExact.nodup k
    · rw [oldBucket k same]
      exact exactBefore.lists.nodup k

end ValueIndex
end Graph
end Haystack
