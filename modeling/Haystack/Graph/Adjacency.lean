import Haystack.Graph.IndexChange

/-!
# Ref adjacency

Edges between entities: the `Ref` tags of a row other than `id`.  Forward edges
are kept by the numeric id of the source, reverse edges by the ref value of the
target.
-/

namespace Haystack
namespace Graph

open Std (ExtTreeMap)
open Collections

/-- Forward and reverse edges. -/
structure RefAdjacency where
  /-- Source id to `(ref tag, target)`. -/
  forward : ExtTreeMap Nat (List (String × String))
  /-- Target to `(ref tag, source id)`. -/
  reverse : ExtTreeMap String (List (String × Nat))

namespace RefAdjacency

def new : RefAdjacency := ⟨∅, ∅⟩

/-- Record an edge. -/
def add (adjacency : RefAdjacency) (entityId : Nat)
    (refTag targetRefVal : String) : RefAdjacency where
  forward := adjacency.forward.insert entityId
    (adjacency.forward[entityId]?.getD [] ++ [(refTag, targetRefVal)])
  reverse := adjacency.reverse.insert targetRefVal
    (adjacency.reverse[targetRefVal]?.getD [] ++ [(refTag, entityId)])

/-- Remove one reverse edge; a target without edges is dropped. -/
def removeReverse (entityId : Nat) (reverse : ExtTreeMap String (List (String × Nat)))
    (edge : String × String) : ExtTreeMap String (List (String × Nat)) :=
  match reverse[edge.2]? with
  | none => reverse
  | some rev =>
    let rev := rev.filter fun item => !(item.1 = edge.1 && item.2 = entityId)
    if rev.isEmpty then reverse.erase edge.2 else reverse.insert edge.2 rev

/-- Remove all edges that start at an entity. -/
def remove (adjacency : RefAdjacency) (entityId : Nat) : RefAdjacency :=
  match adjacency.forward[entityId]? with
  | none => adjacency
  | some edges =>
    { forward := adjacency.forward.erase entityId
      reverse := edges.foldl (removeReverse entityId) adjacency.reverse }

/-- Targets of the edges of an entity, optionally of one ref tag. -/
def targetsFrom (adjacency : RefAdjacency) (entityId : Nat)
    (refType : Option String) : List String :=
  match adjacency.forward[entityId]? with
  | some edges =>
    (edges.filter fun edge => refType.all (edge.1 = ·)).map Prod.snd
  | none => []

/-- Sources of the edges to a target, optionally of one ref tag. -/
def sourcesTo (adjacency : RefAdjacency) (targetRefVal : String)
    (refType : Option String) : List Nat :=
  match adjacency.reverse[targetRefVal]? with
  | some edges =>
    (edges.filter fun edge => refType.all (edge.1 = ·)).map Prod.snd
  | none => []

/-- The loop of `index_refs`: record the edges of a row. -/
def addRefs (adjacency : RefAdjacency) (entityId : Nat) (row : HDict) : RefAdjacency :=
  row.iter.foldl (fun adjacency tag =>
      match tag.2 with
      | .ref target =>
        if tag.1 ≠ "id" then adjacency.add entityId tag.1 target.val
        else adjacency
      | _ => adjacency)
    adjacency

/-! ## Prepared changes -/

/-- Staged forward and reverse edges. -/
structure Prepared where
  forward : ExtTreeMap Nat (List (String × String))
  reverse : ExtTreeMap String (List (String × Nat))

/-- State of the loop over the tags of one change. -/
structure PrepareState where
  outgoing : List (String × String)
  reverse : ExtTreeMap String (List (String × Nat))
  budget : ValueBudget

/-- Charge the copy of the edges of a target that are not staged yet. -/
def chargeCopy (adjacency : RefAdjacency)
    (reverse : ExtTreeMap String (List (String × Nat))) (target : String)
    (budget : ValueBudget) : Option ValueBudget :=
  if reverse.contains target then some budget
  else ((adjacency.reverse[target]?).getD []).foldlM (fun budget edge =>
      budget.charge 1 (saturatingAdd edge.1.utf8ByteSize 64)) budget

/-- Charge the scan of staged edges for a removal. -/
def chargeRetain (incoming : List (String × Nat)) (edit : TagEdit)
    (budget : ValueBudget) : Option ValueBudget :=
  if edit.add then some budget
  else budget.charge (saturatingMul incoming.length (saturatingAdd edit.name.utf8ByteSize 1)) 0

/-- Append or remove one reverse edge. -/
def editEdges (add : Bool) (edge : String × Nat)
    (edges : List (String × Nat)) : List (String × Nat) :=
  if add then edges ++ [edge] else edges.filter (· ≠ edge)

/-- Stage one visited tag. -/
def prepareRef (adjacency : RefAdjacency) (state : PrepareState)
    (edit : TagEdit) : Option PrepareState := do
  let budget ← state.budget.charge (saturatingAdd edit.name.utf8ByteSize 1) 0
  match edit.value with
  | .ref target =>
    if edit.name = "id" then some { state with budget }
    else do
      let budget ← budget.charge (saturatingAdd target.val.utf8ByteSize 1) (saturatingAdd
          (saturatingAdd edit.name.utf8ByteSize target.val.utf8ByteSize) 128)
      let budget ← adjacency.chargeCopy state.reverse target.val budget
      let incoming := state.reverse[target.val]?.getD (bucket adjacency.reverse target.val)
      let budget ← chargeRetain incoming edit budget
      some
        { outgoing :=
            if edit.add then state.outgoing ++ [(edit.name, target.val)]
            else state.outgoing
          reverse := stageEdit (bucket adjacency.reverse) state.reverse
            target.val (editEdges edit.add (edit.name, edit.id))
          budget }
  | _ => some { state with budget }

/-- Stage the tags of one change, and its outgoing edges. -/
def prepareChange (adjacency : RefAdjacency) (state : Prepared × ValueBudget)
    (change : IndexChange) : Option (Prepared × ValueBudget) := do
  let result ← (changeEdits change).foldlM adjacency.prepareRef ⟨[], state.1.reverse, state.2⟩
  some (⟨state.1.forward.insert change.id result.outgoing, result.reverse⟩, result.budget)

def prepareChanges (adjacency : RefAdjacency) (allocation : Allocation)
    (changes : List IndexChange)
    (budget : ValueBudget) : Option (Prepared × ValueBudget) := do
  let (prepared, budget) ← changes.foldlM adjacency.prepareChange (⟨∅, ∅⟩, budget)
  let budget ← budget.chargeGrowth adjacency.forward.size allocation.forward
    prepared.forward.size 512
  let budget ← budget.chargeGrowth adjacency.reverse.size allocation.reverse
    prepared.reverse.size 512
  some (prepared, budget)

def applyPrepared (adjacency : RefAdjacency) (prepared : Prepared) : RefAdjacency where
  forward := install List.isEmpty adjacency.forward prepared.forward
  reverse := install List.isEmpty adjacency.reverse prepared.reverse

/-! ## The edits of a change -/

/-- A `Ref` tag other than `id` posts the tag and the id under its target. -/
def slot (id : Nat) (name : String) (value : Kind) : Option (String × (String × Nat)) :=
  match value with
  | .ref target => if name ≠ "id" then some (target.val, (name, id)) else none
  | _ => none

/-- The outgoing edge of a tag. -/
def edge (tag : String × Kind) : Option (String × String) :=
  match tag.2 with
  | .ref target => if tag.1 ≠ "id" then some (tag.1, target.val) else none
  | _ => none

/-- The outgoing edges of a row. -/
def outgoing (row : HDict) : List (String × String) := row.iter.filterMap edge

variable {id : Nat}

theorem slot_eq_some_iff {name : String} {value : Kind} {entry : String × (String × Nat)} :
    slot id name value = some entry ↔ name ≠ "id" ∧ entry.2 = (name, id) ∧
        ∃ target, value = .ref target ∧ target.val = entry.1 := by
  obtain ⟨_, _⟩ := entry
  cases value with
  | ref =>
    by_cases isId : name = "id"
    · simp [slot, isId]
    · simp [slot, eq_comm, and_comm]
  | _ => simp [slot]

variable {row : HDict}

/-- A row is posted under the targets of its edges. -/
theorem mem_rowSlots_slot {n : Nat} {target : String} {item : String × Nat} :
    (target, item) ∈ rowSlots slot n row ↔ item.1 ≠ "id" ∧ item.2 = n ∧
        ∃ ref, row.get item.1 = some (.ref ref) ∧ ref.val = target := by
  rw [mem_rowSlots]
  constructor
  · rintro ⟨name, value, found, given⟩
    obtain ⟨notId, rfl, ref, rfl, same⟩ := slot_eq_some_iff.mp given
    exact ⟨notId, rfl, ref, found, same⟩
  · rintro ⟨notId, rfl, ref, found, same⟩
    exact ⟨item.1, .ref ref, found, slot_eq_some_iff.mpr ⟨notId, rfl, ref, rfl, same⟩⟩

/-- The postings of a row are its outgoing edges, reversed. -/
theorem rowSlots_slot (id : Nat) (row : HDict) : rowSlots slot id row =
      (outgoing row).map fun edge => (edge.2, (edge.1, id)) := by
  unfold rowSlots outgoing
  rw [List.map_filterMap]
  congr 1
  funext tag
  unfold slot edge
  cases tag.2 with
  | ref => by_cases isId : tag.1 = "id" <;> simp [isId]
  | _ => rfl

private theorem ref_slot_owned (n : Nat) (row : HDict) (entry : String × (String × Nat))
    (member : entry ∈ rowSlots slot n row) : entry.2.2 = n :=
  (mem_rowSlots_slot.mp member).2.1

private theorem ref_slot_distinct (n : Nat) (row : HDict) : (rowSlots slot n row).Nodup :=
  nodup_rowSlots (fun entry => entry.2.1)
    (fun given => congrArg Prod.fst (slot_eq_some_iff.mp given).2.1) n row

theorem edge_eq_some_iff {name target : String} {value : Kind} {tag : String} :
    edge (name, value) = some (tag, target) ↔
      tag ≠ "id" ∧ name = tag ∧ ∃ r, value = .ref r ∧ r.val = target := by
  unfold edge
  cases value with
  | ref =>
    by_cases named : name = "id"
    · subst named
      simp only [ne_eq, not_true_eq_false, if_false, reduceCtorEq, false_iff]
      rintro ⟨different, rfl, _⟩
      exact different rfl
    · simp only [ne_eq, named, not_false_eq_true, if_true, Option.some.injEq,
        Prod.mk.injEq, Kind.ref.injEq, exists_eq_left']
      constructor
      · rintro ⟨rfl, rfl⟩
        exact ⟨named, rfl, rfl⟩
      · rintro ⟨_, rfl, rfl⟩
        exact ⟨rfl, rfl⟩
  | _ => simp

theorem mem_outgoing {tag target : String} : (tag, target) ∈ outgoing row ↔
      tag ≠ "id" ∧ ∃ r, row.get tag = some (.ref r) ∧ r.val = target := by
  simp only [outgoing, List.mem_filterMap, Prod.exists, HDict.mem_iter, edge_eq_some_iff]
  constructor
  · rintro ⟨_, _, found, named, rfl, r, rfl, same⟩
    exact ⟨named, r, found, same⟩
  · rintro ⟨named, r, found, same⟩
    exact ⟨tag, _, found, named, rfl, r, rfl, same⟩

theorem nodup_outgoing (row : HDict) : (outgoing row).Nodup := by
  refine (pairwise_toList row.tags).filterMap _ ?_
  rintro ⟨left, _⟩ ⟨right, _⟩ different ⟨tag, target⟩ given other otherGiven rfl
  have leftNamed := (edge_eq_some_iff.mp given).2.1
  have rightNamed := (edge_eq_some_iff.mp otherGiven).2.1
  exact different (leftNamed.trans rightNamed.symm)

/-- The edges are exactly those of the live rows, in both directions. -/
structure Exact (adjacency : RefAdjacency) (live : Nat → Option HDict) : Prop where
  reverse : ExactLists (rowSlots slot) (bucket adjacency.reverse) live
  reverseNonempty : NoEmptyBucket adjacency.reverse
  forward : ∀ n, bucket adjacency.forward n = (live n).elim [] outgoing
  forwardNonempty : NoEmptyBucket adjacency.forward

theorem exact_new : new.Exact fun _ => none :=
  ⟨⟨fun k item => by simp [new], fun _ => by simp [new]⟩,
    NoEmptyBucket.empty, fun n => by simp [new], NoEmptyBucket.empty⟩

/-! ## Native operations -/

private theorem bucket_removeReverse (id : Nat) (edge : String × String)
    (reverse : ExtTreeMap String (List (String × Nat))) (target : String) :
    bucket (removeReverse id reverse edge) target =
      editBucket postList [⟨false, edge.2, (edge.1, id)⟩] target (bucket reverse target) := by
  have sameFilter : (fun item : String × Nat =>
      !(item.1 = edge.1 && item.2 = id)) = fun item =>
        decide (item ≠ (edge.1, id)) := by
    simp [Prod.ext_iff]
  unfold removeReverse
  by_cases same : edge.2 = target
  · subst same
    cases found : reverse[edge.2]? with
    | none => simp [bucket, found, editBucket, postList]
    | some =>
      simp only [sameFilter]
      split
      · rename_i empty
        have removed := List.isEmpty_iff.mp empty
        rw [bucket_erase, bucket_of_getElem? found]
        simpa [editBucket, postList] using removed.symm
      · rw [bucket_insert, bucket_of_getElem? found]
        simp [editBucket, postList]
  · cases found : reverse[edge.2]? with
    | none => simp [editBucket, same]
    | some =>
      simp only
      split
      · simp [bucket_erase, editBucket, same]
      · simp [bucket_insert, editBucket, same]

private theorem noEmptyBucket_removeReverse (id : Nat) (edge : String × String)
    {reverse : ExtTreeMap String (List (String × Nat))} (nonempty : NoEmptyBucket reverse) :
    NoEmptyBucket (removeReverse id reverse edge) := by
  unfold removeReverse
  cases found : reverse[edge.2]? with
  | none => exact nonempty
  | some =>
    simp only
    split
    · exact nonempty.erase _
    · rename_i remaining
      exact nonempty.insert (by simpa using remaining)

private theorem removeEdges_spec (id : Nat) (edges : List (String × String))
    (reverse : ExtTreeMap String (List (String × Nat))) :
    (∀ target, bucket (edges.foldl (removeReverse id) reverse) target = editBucket postList
          (edges.map fun edge => ⟨false, edge.2, (edge.1, id)⟩) target
          (bucket reverse target)) ∧
      (NoEmptyBucket reverse → NoEmptyBucket (edges.foldl (removeReverse id) reverse)) := by
  induction edges generalizing reverse with
  | nil => exact ⟨fun _ => rfl, fun nonempty => nonempty⟩
  | cons edge edges ih =>
    obtain ⟨buckets, kept⟩ := ih (removeReverse id reverse edge)
    refine ⟨?_, fun nonempty =>
      kept (noEmptyBucket_removeReverse id edge nonempty)⟩
    intro target
    rw [List.foldl_cons, buckets, bucket_removeReverse, ← editBucket_append]
    rfl

variable {adjacency : RefAdjacency} {live : Nat → Option HDict}

/-- Forgetting a live entity keeps the edges exact. -/
theorem Exact.remove (exactBefore : adjacency.Exact live) (found : live id = some row) :
    (adjacency.remove id).Exact (Function.update live id none) := by
  have edges : bucket adjacency.forward id = outgoing row := by
    rw [exactBefore.forward, found]
    rfl
  have reverse := exactBefore.reverse.change (fun item => item.2) ref_slot_owned ref_slot_distinct
    (show live (RowChange.mk id (some row) none).id = some row from found)
  simp only [RowChange.postings, Option.toList_some, List.flatMap_singleton, Option.toList_none,
    List.flatMap_nil, List.map_nil, List.append_nil, rowSlots_slot, List.map_map] at reverse
  have forward : ∀ map : ExtTreeMap Nat (List (String × String)),
      (∀ n, n ≠ id → bucket map n = bucket adjacency.forward n) →
      bucket map id = [] → ∀ n,
        bucket map n = (Function.update live id none n).elim [] outgoing := by
    intro map others own n
    by_cases same : n = id
    · simpa [same] using own
    · simpa [same, others n same] using exactBefore.forward n
  unfold RefAdjacency.remove
  cases stored : adjacency.forward[id]? with
  | none =>
    -- no forward edges, so the row has no edges at all
    rw [bucket_of_getElem?_none stored] at edges
    rw [← edges] at reverse
    exact ⟨reverse, exactBefore.reverseNonempty,
      forward _ (fun _ _ => rfl) (bucket_of_getElem?_none stored),
      exactBefore.forwardNonempty⟩
  | some =>
    rw [bucket_of_getElem? stored] at edges
    subst edges
    obtain ⟨buckets, kept⟩ := removeEdges_spec id (outgoing row) adjacency.reverse
    refine ⟨?_, kept exactBefore.reverseNonempty, ?_, exactBefore.forwardNonempty.erase id⟩
    · rw [funext buckets]
      exact reverse
    · refine forward _ ?_ ?_
      · intro n different
        simp [bucket_erase, Ne.symm different]
      · simp [bucket_erase]

private theorem addEdges_spec
    (id : Nat) (edges : List (String × String)) (adjacency : RefAdjacency) :
    let added := edges.foldl (fun adjacency edge => adjacency.add id edge.1 edge.2) adjacency
    (∀ n, bucket added.forward n = bucket adjacency.forward n ++ if n = id then edges else []) ∧
      (∀ target, bucket added.reverse target = editBucket postList
          (edges.map fun edge => ⟨true, edge.2, (edge.1, id)⟩) target
          (bucket adjacency.reverse target)) ∧
      (NoEmptyBucket adjacency.forward → NoEmptyBucket added.forward) ∧
      (NoEmptyBucket adjacency.reverse → NoEmptyBucket added.reverse) := by
  induction edges generalizing adjacency with
  | nil => exact ⟨fun _ => by simp, fun _ => rfl, fun kept => kept, fun kept => kept⟩
  | cons edge edges ih =>
    obtain ⟨forward, reverse, forwardKept, reverseKept⟩ := ih (adjacency.add id edge.1 edge.2)
    refine ⟨?_, ?_, ?_, ?_⟩
    · intro n
      rw [List.foldl_cons, forward]
      by_cases same : n = id
      · subst same
        simp [add, bucket]
      · simp [add, bucket_insert, same, Ne.symm same]
    · intro target
      rw [List.foldl_cons, reverse, List.map_cons, ← List.singleton_append, editBucket_append]
      by_cases same : edge.2 = target
      · subst same
        simp [add, editBucket, postList, bucket]
      · simp [add, bucket_insert, editBucket, same]
    · intro nonempty
      exact forwardKept (nonempty.insert (by simp))
    · intro nonempty
      exact reverseKept (nonempty.insert (by simp))

theorem addRefs_eq (adjacency : RefAdjacency) (id : Nat) (row : HDict) :
    adjacency.addRefs id row = (outgoing row).foldl
        (fun adjacency edge => adjacency.add id edge.1 edge.2) adjacency := by
  unfold addRefs outgoing
  rw [List.foldl_filterMap]
  congr 1
  funext adjacency tag
  unfold edge
  cases tag.2 with
  | ref => by_cases isId : tag.1 = "id" <;> simp [isId]
  | _ => rfl

/-- Recording the edges of a fresh entity keeps the edges exact. -/
theorem Exact.addRefs (exactBefore : adjacency.Exact live) (fresh : live id = none)
    (row : HDict) : (adjacency.addRefs id row).Exact (Function.update live id (some row)) := by
  have changed := exactBefore.reverse.change (fun item => item.2) ref_slot_owned ref_slot_distinct
    (show live (RowChange.mk id none (some row)).id = none from fresh)
  simp only [RowChange.postings, Option.toList_none, List.flatMap_nil,
    List.map_nil, List.nil_append, Option.toList_some, List.flatMap_singleton,
    rowSlots_slot, List.map_map, Function.comp_def] at changed
  obtain ⟨forward, reverse, forwardKept, reverseKept⟩ := addEdges_spec id (outgoing row) adjacency
  rw [addRefs_eq]
  refine ⟨?_, reverseKept exactBefore.reverseNonempty, ?_,
    forwardKept exactBefore.forwardNonempty⟩
  · rw [funext reverse]
    exact changed
  · intro n
    rw [forward, exactBefore.forward]
    by_cases same : n = id
    · simp [same, fresh]
    · simp [same]

/-! ## Batches -/

/-- Visiting a tag stages its posting and collects its outgoing edge. -/
theorem prepareRef_spec {state after : PrepareState} {edit : TagEdit}
    (stepped : adjacency.prepareRef state edit = some after) :
    after.reverse = stageTag slot (bucket adjacency.reverse) postList state.reverse edit ∧
      after.outgoing = state.outgoing ++
        if edit.add then (edge (edit.name, edit.value)).toList else [] := by
  obtain ⟨_, _, stepped⟩ := Option.bind_eq_some_iff.mp stepped
  cases value : edit.value with
  | ref =>
    simp only [value] at stepped
    by_cases isId : edit.name = "id"
    · rw [if_pos isId] at stepped
      obtain rfl := Option.some.inj stepped
      simp [stageTag, editPosting, slot, edge, value, isId]
    · rw [if_neg isId] at stepped
      obtain ⟨_, _, stepped⟩ := Option.bind_eq_some_iff.mp stepped
      obtain ⟨_, _, stepped⟩ := Option.bind_eq_some_iff.mp stepped
      obtain ⟨_, _, stepped⟩ := Option.bind_eq_some_iff.mp stepped
      obtain rfl := Option.some.inj stepped
      constructor
      · simp only [stageTag, editPosting, slot, value, ne_eq, isId]
        rfl
      · cases edit.add <;> simp [edge, isId]
  | _ =>
    rw [value] at stepped
    obtain rfl := Option.some.inj stepped
    simp [stageTag, editPosting, slot, edge, value]

private theorem outgoing_changeEdits (change : IndexChange) : (changeEdits change).foldl
        (fun edges edit => edges ++
          if edit.add then (edge (edit.name, edit.value)).toList else []) [] =
      change.after.elim [] outgoing := by
  have before : (rowEdits change.id false change.before).foldl (fun edges edit => edges ++
        if edit.add then (edge (edit.name, edit.value)).toList else []) [] =
      [] := by
    cases change.before with
    | none => rfl
    | some => simp [rowEdits, List.foldl_map]
  rw [changeEdits, List.foldl_append, before]
  cases change.after with
  | none => rfl
  | some row =>
    simp only [rowEdits, List.foldl_map, Option.elim_some, outgoing]
    generalize row.iter = tags
    suffices collected : ∀ edges : List (String × String),
        tags.foldl (fun edges tag => edges ++ (edge tag).toList) edges =
          edges ++ tags.filterMap edge from collected []
    induction tags with
    | nil => simp
    | cons tag tags ih =>
      intro edges
      rw [List.foldl_cons, ih, List.filterMap_cons]
      cases edge tag <;> simp

variable {state after : Prepared × ValueBudget}

/-- A change stages the postings of its rows and the edges of its new row. -/
theorem prepareChange_spec {change : IndexChange}
    (stepped : adjacency.prepareChange state change = some after) :
    after.1.reverse = (changeEdits change).foldl
        (stageTag slot (bucket adjacency.reverse) postList) state.1.reverse ∧
      after.1.forward = state.1.forward.insert change.id (change.after.elim [] outgoing) := by
  obtain ⟨_, loop, stepped⟩ := Option.bind_eq_some_iff.mp stepped
  obtain rfl := Option.some.inj stepped
  constructor
  · exact foldlM_option_observe PrepareState.reverse _
      (fun _ _ _ visited => (prepareRef_spec visited).1) loop
  · have collected := foldlM_option_observe PrepareState.outgoing (fun edges edit => edges ++
        if edit.add then (edge (edit.name, edit.value)).toList else [])
      (fun _ _ _ visited => (prepareRef_spec visited).2) loop
    rw [collected, outgoing_changeEdits]

variable {changes : List IndexChange}

/-- The staged forward edges are those of the rows after the changes. -/
private theorem forward_of_prepare
    (loop : changes.foldlM adjacency.prepareChange state = some after)
    (current : ∀ n, state.1.forward[n]?.getD (bucket adjacency.forward n) =
      (live n).elim [] outgoing)
    (n : Nat) :
    after.1.forward[n]?.getD (bucket adjacency.forward n) =
      (changes.foldl RowChange.apply live n).elim [] outgoing := by
  induction changes generalizing state live with
  | nil =>
    obtain rfl := Option.some.inj loop
    exact current n
  | cons change changes ih =>
    obtain ⟨_, stepped, loop⟩ := Option.bind_eq_some_iff.mp loop
    refine ih loop ?_
    intro other
    rw [(prepareChange_spec stepped).2, ExtTreeMap.getElem?_insert]
    by_cases same : change.id = other
    · subst same
      simp [RowChange.apply]
    · simpa [RowChange.apply, same, Ne.symm same] using current other

variable {budget after : ValueBudget} {allocation : Allocation} {prepared : Prepared}

/-- Without changes, nothing is staged. -/
theorem prepared_of_nil
    (success : adjacency.prepareChanges allocation [] budget = some (prepared, after)) :
    prepared = ⟨∅, ∅⟩ := by
  unfold prepareChanges at success
  obtain ⟨_, staged, success⟩ := Option.bind_eq_some_iff.mp success
  obtain rfl := Option.some.inj staged
  cases success
  rfl

/-- A batch whose changes start from the live rows keeps the edges exact. -/
theorem Exact.applyPrepared (exactBefore : adjacency.Exact live) (tracks : RowChange.Tracks live changes)
    (success : adjacency.prepareChanges allocation changes budget = some (prepared, after)) :
    (adjacency.applyPrepared prepared).Exact (changes.foldl RowChange.apply live) := by
  obtain ⟨⟨staged, _⟩, loop, finish⟩ := Option.bind_eq_some_iff.mp success
  obtain ⟨_, _, finish⟩ := Option.bind_eq_some_iff.mp finish
  obtain ⟨_, _, finish⟩ := Option.bind_eq_some_iff.mp finish
  obtain ⟨rfl, -⟩ := Prod.mk.inj (Option.some.inj finish)
  have isEmptySpec : ∀ {α : Type} (items : List α),
      items.isEmpty = true ↔ items = ∅ := fun items => List.isEmpty_iff
  have reverse := observe_changes slot (bucket adjacency.reverse) postList
    (fun state : Prepared × ValueBudget => state.1.reverse)
    (fun _ _ _ stepped => (prepareChange_spec stepped).1) loop
  refine ⟨?_, exactBefore.reverseNonempty.install isEmptySpec _, ?_,
    exactBefore.forwardNonempty.install isEmptySpec _⟩
  · have buckets : bucket (adjacency.applyPrepared staged).reverse =
        fun target => editBucket postList
          (changes.flatMap (RowChange.postings (rowSlots slot))) target
          (bucket adjacency.reverse target) := by
      funext target
      unfold RefAdjacency.applyPrepared
      rw [reverse]
      exact bucket_install_stage isEmptySpec _ Posting.key postList _ target
    rw [buckets]
    exact exactBefore.reverse.changes (fun item => item.2) ref_slot_owned ref_slot_distinct tracks
  · intro n
    unfold RefAdjacency.applyPrepared
    rw [bucket_install isEmptySpec]
    exact forward_of_prepare loop (fun other => by simpa using exactBefore.forward other) n

end RefAdjacency
end Graph
end Haystack
