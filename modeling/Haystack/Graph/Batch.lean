import Haystack.Graph.Native

/-!
# Batches

A plan simulates the operations of its batch on the rows of the graph it was
prepared for, with ids freed and used again inside the batch.  Publishing it on
a graph with these rows is a commit of all its diffs as one unit.
-/

namespace Haystack
namespace Graph

open Std (ExtTreeMap)
open Collections
open EntityGraph (PlanState Outcome)

/-! ## Publication of the rows -/

/-- The effect of a planned change on the rows and the identity maps. -/
def PreparedChange.applyRows (rows : Rows) (change : PreparedChange) : Rows :=
  if change.changed then
    match change.op, change.mapKeys, change.after with
    | .add, some (forwardKey, reverseKey), some after =>
      { rows with
        idMap := rows.idMap.insert forwardKey change.numericId
        reverseId := rows.reverseId.insert change.numericId reverseKey
        entities := rows.entities.insert change.id after }
    | .update, _, some after =>
      { rows with entities := rows.entities.insert change.id after }
    | .remove, _, _ =>
      { rows with
        entities := rows.entities.erase change.id
        idMap := rows.idMap.erase change.id
        reverseId := rows.reverseId.erase change.numericId }
    | _, _, _ => rows
  else rows

namespace EntityGraph

variable {N C : Type}

/-- The graph with other rows. -/
def withRows (g : EntityGraph N C) (rows : Rows) : EntityGraph N C :=
  { g with
    entities := rows.entities
    idMap := rows.idMap
    reverseId := rows.reverseId
    nextId := rows.nextId
    freeIds := rows.freeIds }

theorem applyChange_eq (g : EntityGraph N C) (change : PreparedChange) :
    g.applyChange change = g.withRows (change.applyRows g.rows) := by
  obtain ⟨id, op, _, after, changed, _, mapKeys⟩ := change
  cases changed <;> cases op <;> cases mapKeys <;> cases after <;> rfl

/-- Publication of the changes of a plan touches the rows alone. -/
theorem foldl_applyChange_eq (g : EntityGraph N C) (changes : List PreparedChange) :
    changes.foldl applyChange g = g.withRows (changes.foldl PreparedChange.applyRows g.rows) := by
  induction changes generalizing g with
  | nil => rfl
  | cons change changes ih =>
    rw [List.foldl_cons, ih, applyChange_eq]
    rfl

/-! ## The planning loop -/

/-- The rows of a graph after the operations planned so far. -/
structure Planned (g : EntityGraph N C) (plan : PlanState) (operations : List EntityOperation)
    (effects : List Effect)
    (rows : Rows) : Prop where
  operated : g.rows.Operated operations effects rows
  free : rows.freeIds = plan.freedIds ++ g.freeIds.drop plan.freeIdsConsumed
  next : rows.nextId = plan.nextId
  published : plan.changes.foldl PreparedChange.applyRows g.rows =
    { rows with nextId := g.nextId, freeIds := g.freeIds }
  indexed : indexed plan.changes = effects.map Effect.change
  diffs : EffectDiffs g.log.byteCapacity g.version effects plan.diffs
  revision : plan.revision = g.version + effects.length
  bounded : plan.revision ≤ u64Max
  untouched : ∀ id ∉ plan.seen,
    rows.entities[id]? = g.entities[id]? ∧ rows.idMap[id]? = g.idMap[id]?

variable {g : EntityGraph N C} {rows : Rows} {after : PlanState}

/-- The planned id is the one that the rows give. -/
theorem planId_spec (plan : PlanState) {n : Nat}
    (free : rows.freeIds = plan.freedIds ++ g.freeIds.drop plan.freeIdsConsumed)
    (next : rows.nextId = plan.nextId) (planned : g.planId plan = .ok (n, after)) :
    ∃ taken, rows.takeId = some (n, taken) ∧ taken.freeIds =
        after.freedIds ++ g.freeIds.drop after.freeIdsConsumed ∧
      taken.nextId = after.nextId ∧
      after = { plan with
        freeIdsConsumed := after.freeIdsConsumed
        freedIds := after.freedIds
        nextId := after.nextId } := by
  unfold planId at planned
  unfold Rows.takeId
  split at planned
  · rename_i id rest freed
    obtain ⟨rfl, rfl⟩ := Prod.mk.inj (Except.ok.inj planned)
    rw [free, freed]
    exact ⟨_, rfl, rfl, next, rfl⟩
  · rename_i freed
    rw [freed] at free
    split at planned
    · rename_i id recycled
      obtain ⟨rfl, rfl⟩ := Prod.mk.inj (Except.ok.inj planned)
      obtain ⟨within, same⟩ := List.getElem?_eq_some_iff.mp recycled
      rw [free, List.drop_eq_getElem_cons within, same]
      exact ⟨_, rfl, by simp [freed], next, rfl⟩
    · rename_i consumed
      have exhausted := List.getElem?_eq_none_iff.mp consumed
      rw [List.drop_eq_nil_of_le exhausted] at free
      split at planned
      · cases planned
      · rename_i within
        obtain ⟨rfl, rfl⟩ := Prod.mk.inj (Except.ok.inj planned)
        rw [free, next, if_neg within]
        refine ⟨_, rfl, ?_, rfl, rfl⟩
        simp [freed, exhausted]

/-- What planning decides about one operation on the rows reached so far. -/
inductive Decided (g : EntityGraph N C) (plan after : PlanState) (rows : Rows) (id : String)
    (before : Option HDict) (operation : EntityOperation)
    (outcome : Outcome) : Prop
  | quiet (unchanged : outcome.changed = false) (operated : rows.operate operation = some none)
      (framed : after = { plan with budget := after.budget })
  | effect (effect : Effect) (changed : outcome.changed = true)
      (operated : rows.operate operation = some (some effect))
      (change : effect.change = ⟨outcome.numericId, before, outcome.after⟩)
      (diff : planDiff id before outcome = effect.diff)
      (bytes : g.planBytes id before outcome = effect.bytes g.log.byteCapacity)
      (published : ∀ nextId freeIds, (plannedChange id before outcome).applyRows
            { rows with nextId := nextId, freeIds := freeIds } =
          { effect.rows with nextId := nextId, freeIds := freeIds })
      (free : effect.rows.freeIds = after.freedIds ++ g.freeIds.drop after.freeIdsConsumed)
      (next : effect.rows.nextId = after.nextId)
      (framed : after = { plan with
        budget := after.budget
        freeIdsConsumed := after.freeIdsConsumed
        freedIds := after.freedIds
        nextId := after.nextId })
      (others : ∀ other ≠ id, effect.rows.entities[other]? = rows.entities[other]? ∧
          effect.rows.idMap[other]? = rows.idMap[other]?)

theorem orLimit_eq_ok {α : Type} {value : Option α} {result : α} :
    orLimit value = .ok result ↔ value = some result := by
  cases value <;> simp [orLimit]

variable {plan : PlanState} {id : String} {outcome : Outcome} {before : Option HDict}

theorem planAdd_decided {row : HDict} (extracted : extractRefVal row = .ok id)
    (found : rows.entities[id]? = before)
    (free : rows.freeIds = plan.freedIds ++ g.freeIds.drop plan.freeIdsConsumed)
    (next : rows.nextId = plan.nextId)
    (planned : g.planAdd id before row plan = .ok (outcome, after)) :
    Decided g plan after rows id before (.add row) outcome := by
  unfold planAdd at planned
  split at planned
  · cases planned
  rename_i absent
  obtain rfl : before = none := by simpa using absent
  obtain ⟨budget, _, planned⟩ := except_bind_eq_ok.mp planned
  obtain ⟨⟨n, _⟩, given, planned⟩ := except_bind_eq_ok.mp planned
  obtain ⟨rfl, rfl⟩ := Prod.mk.inj (Except.ok.inj planned)
  obtain ⟨taken, took, freed, nextId, framed⟩ :=
    planId_spec { plan with budget := budget } free next given
  obtain ⟨sameEntities, sameIds, sameReverse⟩ := Rows.taken_eq took
  refine .effect (.add taken id n row) rfl (Rows.operate_add_eq_some_iff.mpr
      ⟨id, n, taken, extracted, found, took, rfl⟩)
    rfl rfl rfl ?_ freed nextId ?_ ?_
  · simp [plannedChange, PreparedChange.applyRows, Effect.add, Rows.store,
      sameEntities, sameIds, sameReverse]
  · rw [framed]
  · intro other different
    simp [Effect.add, Rows.store, sameEntities, sameIds,
      ExtTreeMap.getElem?_insert, Ne.symm different]

/-- The values collected while planning a patch are those it replaces. -/
theorem planPrevious_eq {old changes previous : HDict} {budget after : ValueBudget}
    (collected : changes.iter.foldlM (planPrevious old) (budget, HDict.new) =
      some (after, previous)) :
    previous = previousTags old changes := by
  refine foldlM_option_observe Prod.snd _ ?_ collected
  rintro ⟨budget, previous⟩ ⟨name, value⟩ ⟨after, collected⟩ stepped
  unfold planPrevious at stepped
  cases replaced : old.get name with
  | none =>
    simp only [replaced] at stepped
    cases stepped
    rfl
  | some =>
    simp only [replaced] at stepped
    obtain ⟨_, _, stepped⟩ := Option.bind_eq_some_iff.mp stepped
    obtain ⟨_, _, stepped⟩ := Option.bind_eq_some_iff.mp stepped
    cases stepped
    rfl

theorem planPatch_decided {changes : HDict} (found : rows.entities[id]? = before)
    (mapped : rows.idMap[id]? = g.idMap[id]?)
    (free : rows.freeIds = plan.freedIds ++ g.freeIds.drop plan.freeIdsConsumed)
    (next : rows.nextId = plan.nextId)
    (planned : g.planPatch id before changes plan = .ok (outcome, after)) :
    Decided g plan after rows id before (.patch id changes) outcome := by
  unfold planPatch at planned
  split at planned
  · rename_i old n numeric
    split at planned
    · cases planned
    rename_i sameIdentity
    rw [numeric] at mapped
    obtain ⟨_, _, planned⟩ := except_bind_eq_ok.mp planned
    obtain ⟨_, _, planned⟩ := except_bind_eq_ok.mp planned
    obtain ⟨_, _, planned⟩ := except_bind_eq_ok.mp planned
    obtain ⟨⟨_, _⟩, collected, planned⟩ := except_bind_eq_ok.mp planned
    obtain ⟨_, _, planned⟩ := except_bind_eq_ok.mp planned
    obtain ⟨rfl, rfl⟩ := Prod.mk.inj (Except.ok.inj planned)
    obtain rfl := planPrevious_eq (orLimit_eq_ok.mp collected)
    have operated := Rows.operate_patch_eq_some_iff.mpr
      ⟨n, old, mapped, found, by simpa using sameIdentity, rfl⟩
    cases empty : changes.isEmpty with
    | true =>
      refine .quiet (by simp) ?_ rfl
      simpa [empty] using operated
    | false =>
      rw [empty] at operated
      refine .effect _ (by simp) operated rfl rfl rfl ?_ free next rfl ?_
      · simp [plannedChange, PreparedChange.applyRows, Effect.patch, Rows.replace]
      · intro other different
        simp [Effect.patch, Rows.replace, ExtTreeMap.getElem?_insert, Ne.symm different]
  · cases planned

theorem planRemove_decided (found : rows.entities[id]? = before)
    (mapped : rows.idMap[id]? = g.idMap[id]?)
    (free : rows.freeIds = plan.freedIds ++ g.freeIds.drop plan.freeIdsConsumed)
    (next : rows.nextId = plan.nextId)
    (planned : g.planRemove id before plan = .ok (outcome, after)) :
    Decided g plan after rows id before (.remove id) outcome := by
  unfold planRemove at planned
  split at planned
  · rename_i old n numeric
    rw [numeric] at mapped
    obtain ⟨rfl, rfl⟩ := Prod.mk.inj (Except.ok.inj planned)
    refine .effect (.remove rows id n old) rfl
      (Rows.operate_remove_eq_some_iff.mpr ⟨n, old, mapped, found, rfl⟩)
      rfl rfl rfl ?_ ?_ next rfl ?_
    · simp [plannedChange, PreparedChange.applyRows, Effect.remove, Rows.drop]
    · simp [Effect.remove, Rows.drop, free]
    · intro other different
      simp [Effect.remove, Rows.drop, ExtTreeMap.getElem?_erase, Ne.symm different]
  · cases planned

/-- An unchanged row is not recorded. -/
theorem planRecord_unchanged (unchanged : outcome.changed = false)
    (recorded : g.planRecord id before outcome plan = .ok after) : after = plan := by
  simpa [planRecord, unchanged, eq_comm] using recorded

/-- A changed row takes the next revision and records its diff. -/
theorem planRecord_changed (changed : outcome.changed = true)
    (recorded : g.planRecord id before outcome plan = .ok after) :
    ∃ bytes, g.planBytes id before outcome = some bytes ∧ plan.revision + 1 ≤ u64Max ∧
      after = { plan with
        budget := after.budget
        revision := plan.revision + 1
        diffs := plan.diffs ++ [planDiff id before outcome (plan.revision + 1) bytes] } := by
  unfold planRecord at recorded
  rw [if_pos changed] at recorded
  obtain ⟨_, next, recorded⟩ := except_bind_eq_ok.mp recorded
  obtain ⟨bytes, retained, recorded⟩ := except_bind_eq_ok.mp recorded
  obtain ⟨_, _, recorded⟩ := except_bind_eq_ok.mp recorded
  unfold PlanState.nextRevision at next
  split at next
  · rename_i value checked
    obtain ⟨rfl, within⟩ := checkedAdd_eq_some_iff.mp checked
    cases next
    cases recorded
    exact ⟨bytes, orLimit_eq_ok.mp retained, within, rfl⟩
  · cases next

variable {effects : List Effect}

/-- An operation is decided on the rows reached so far, because its target was
not touched before. -/
theorem Planned.decided {decidedPlan : PlanState} {operations : List EntityOperation}
    (planned : Planned g plan operations effects rows)
    {operation : EntityOperation} (target : operation.target = .ok id)
    (untouched : id ∉ plan.seen) (budget : ValueBudget)
    (decided : g.planOutcome operation id g.entities[id]?
      { plan with budget := budget, seen := id :: plan.seen } = .ok (outcome, decidedPlan)) :
    Decided g { plan with budget := budget, seen := id :: plan.seen }
      decidedPlan rows id g.entities[id]? operation outcome := by
  obtain ⟨found, mapped⟩ := planned.untouched id untouched
  cases operation with
  | add =>
    exact planAdd_decided target found planned.free planned.next decided
  | patch =>
    cases target
    exact planPatch_decided found mapped planned.free planned.next decided
  | remove =>
    cases target
    exact planRemove_decided found mapped planned.free planned.next decided

/-- One iteration extends the simulation by its operation. -/
theorem Planned.operation {operations : List EntityOperation}
    (planned : Planned g plan operations effects rows) {operation : EntityOperation}
    (stepped : g.planOperation plan operation = .ok after) :
    ∃ effects' rows', Planned g after (operations ++ [operation]) effects' rows' := by
  obtain ⟨id, target, stepped⟩ := except_bind_eq_ok.mp stepped
  obtain ⟨_, _, stepped⟩ := except_bind_eq_ok.mp stepped
  split at stepped
  · cases stepped
  rename_i notSeen
  obtain ⟨budget, _, stepped⟩ := except_bind_eq_ok.mp stepped
  obtain ⟨⟨_, decidedPlan⟩, decided, stepped⟩ := except_bind_eq_ok.mp stepped
  obtain ⟨_, recorded, stepped⟩ := except_bind_eq_ok.mp stepped
  obtain rfl := (Except.ok.inj stepped).symm
  have target : operation.target = .ok id := by
    cases given : operation.target <;> simp_all [Except.mapError]
  have untouched : id ∉ plan.seen := by simpa using notSeen
  cases planned.decided target untouched budget decided with
  | quiet unchanged operated framed =>
    obtain rfl := planRecord_unchanged unchanged recorded
    refine ⟨effects, rows, ?_⟩
    rw [framed]
    exact
      { operated := .quiet planned.operated operated
        free := planned.free
        next := planned.next
        published := by
          rw [List.foldl_append, planned.published]
          simp [PreparedChange.applyRows, plannedChange, unchanged]
        indexed := by
          rw [← planned.indexed]
          simp [EntityGraph.indexed, plannedChange, unchanged]
        diffs := planned.diffs
        revision := planned.revision
        bounded := planned.bounded
        untouched := fun other member => planned.untouched other fun seen =>
          member (List.mem_cons_of_mem _ seen) }
  | effect effect changed operated change diff bytes published free next framed others =>
      obtain ⟨_, retained, within, recordedFrame⟩ := planRecord_changed changed recorded
      have revision : decidedPlan.revision = plan.revision := by rw [framed]
      refine ⟨effects ++ [effect], effect.rows, ?_⟩
      rw [revision] at within recordedFrame
      rw [recordedFrame, framed]
      exact
        { operated := .effect planned.operated operated
          free := free
          next := next
          published := by
            rw [List.foldl_append, planned.published]
            exact published g.nextId g.freeIds
          indexed := by
            rw [List.map_append, ← planned.indexed]
            simp [EntityGraph.indexed, plannedChange, changed, change]
          diffs := by
            rw [diff, planned.revision]
            exact .snoc planned.diffs (bytes.symm.trans retained)
          revision := by
            simp [planned.revision, Nat.add_assoc]
          bounded := within
          untouched := by
            intro other member
            rw [List.mem_cons, not_or] at member
            obtain ⟨sameRow, sameId⟩ := others other member.1
            obtain ⟨wasRow, wasId⟩ := planned.untouched other member.2
            exact ⟨sameRow.trans wasRow, sameId.trans wasId⟩ }

/-- The loop simulates all operations. -/
theorem Planned.operations {earlier operations : List EntityOperation}
    (planned : Planned g plan earlier effects rows)
    (finished : operations.foldlM g.planOperation plan = .ok after) :
    ∃ effects' rows', Planned g after (earlier ++ operations) effects' rows' := by
  induction operations generalizing plan earlier effects rows with
  | nil =>
    obtain rfl := Except.ok.inj finished
    exact ⟨effects, rows, by rwa [List.append_nil]⟩
  | cons operation operations ih =>
    obtain ⟨_, stepped, finished⟩ := except_bind_eq_ok.mp finished
    obtain ⟨_, _, next⟩ := planned.operation stepped
    rw [List.append_cons]
    exact ih next finished

/-- Before the first operation, a plan stands at the rows of the graph. -/
theorem planned_initial (g : EntityGraph N C) (budget : ValueBudget)
    (bounded : g.version ≤ u64Max) :
    Planned g ⟨budget, [], [], [], 0, [], g.nextId, g.version⟩ [] [] g.rows where
  operated := .nil
  free := rfl
  next := rfl
  published := rfl
  indexed := rfl
  diffs := .nil
  revision := rfl
  bounded := bounded
  untouched _ _ := ⟨rfl, rfl⟩

/-! ## Prepared plans -/

/-- What a plan was prepared from. -/
structure PreparedFrom (g : EntityGraph N C) (operations : List EntityOperation)
    (plan : PreparedBatch) (effects : List Effect) (written : List GraphDiff)
    (rows : Rows) : Prop where
  state : plan.state = g.state
  indexGeneration : plan.indexGeneration = g.indexGeneration
  revision : plan.afterRevision = g.version + effects.length
  bounded : plan.afterRevision ≤ u64Max
  operated : g.rows.Operated operations effects rows
  published : plan.changes.foldl PreparedChange.applyRows g.rows =
    { rows with nextId := g.nextId, freeIds := g.freeIds }
  free : rows.freeIds = plan.freedIds ++ g.freeIds.drop plan.freeIdsConsumed
  next : rows.nextId = plan.nextId
  diffs : EffectDiffs g.log.byteCapacity g.version effects written
  shared : plan.diffs = shareSpan written plan.afterRevision
  count : written.length ≤ g.log.capacity
  bytes : (written.map (·.retainedBytes)).sum ≤ g.log.byteCapacity
  tags : ∃ allocation budget after, g.tagIndex.prepareChanges allocation
    (effects.map Effect.change) budget = some (plan.tags, after)
  edges : ∃ allocation budget after, g.adjacency.prepareChanges allocation
    (effects.map Effect.change) budget = some (plan.adjacency, after)
  values : ∃ budget after, g.valueIndex.prepareChanges
    (effects.map Effect.change) budget = some (plan.values, after)

variable {diffs : List GraphDiff}

/-- A checked sum that succeeds is the sum. -/
theorem foldlM_checkedAdd_eq {limit start total : Nat}
    (summed : diffs.foldlM (fun bytes diff => checkedAdd limit bytes diff.retainedBytes) start =
        some total) :
    total = start + (diffs.map (·.retainedBytes)).sum := by
  induction diffs generalizing start with
  | nil =>
    obtain rfl := Option.some.inj summed
    simp
  | cons diff diffs ih =>
    obtain ⟨_, added, summed⟩ := Option.bind_eq_some_iff.mp summed
    obtain ⟨rfl, _⟩ := checkedAdd_eq_some_iff.mp added
    rw [ih summed, List.map_cons, List.sum_cons, Nat.add_assoc]

variable {allocation : Allocation}

theorem stage_eq_some {bytes : Nat} {staged : Staged}
    (succeeded : g.stage allocation plan diffs bytes = some staged) :
    (∃ budget after, g.tagIndex.prepareChanges allocation
        (indexed plan.changes) budget = some (staged.tags, after)) ∧
      (∃ budget after, g.adjacency.prepareChanges allocation
        (indexed plan.changes) budget = some (staged.adjacency, after)) ∧
      ∃ budget after, g.valueIndex.prepareChanges
        (indexed plan.changes) budget = some (staged.values, after) := by
  obtain ⟨_, _, succeeded⟩ := Option.bind_eq_some_iff.mp succeeded
  obtain ⟨_, _, succeeded⟩ := Option.bind_eq_some_iff.mp succeeded
  obtain ⟨_, _, succeeded⟩ := Option.bind_eq_some_iff.mp succeeded
  obtain ⟨_, _, succeeded⟩ := Option.bind_eq_some_iff.mp succeeded
  obtain ⟨⟨_, _⟩, tags, succeeded⟩ := Option.bind_eq_some_iff.mp succeeded
  obtain ⟨⟨_, _⟩, edges, succeeded⟩ := Option.bind_eq_some_iff.mp succeeded
  obtain ⟨⟨_, _⟩, values, succeeded⟩ := Option.bind_eq_some_iff.mp succeeded
  obtain ⟨_, _, succeeded⟩ := Option.bind_eq_some_iff.mp succeeded
  obtain rfl := Option.some.inj succeeded
  exact ⟨⟨_, _, tags⟩, ⟨_, _, edges⟩, ⟨_, _, values⟩⟩

variable {plan : PreparedBatch}

/-- A prepared plan simulates its operations on the rows of its graph. -/
theorem prepareBatch_preparedFrom (bounded : g.version ≤ u64Max)
    {expectedRevision : Nat} {operations : List EntityOperation} {limits : BatchLimits}
    (prepared : g.prepareBatch allocation expectedRevision operations limits = .ok plan) :
    ∃ effects written rows, PreparedFrom g operations plan effects written rows := by
  unfold prepareBatch at prepared
  split at prepared
  · cases prepared
  split at prepared
  · cases prepared
  split at prepared
  · cases prepared
  obtain ⟨_, _, prepared⟩ := except_bind_eq_ok.mp prepared
  obtain ⟨budget, _, prepared⟩ := except_bind_eq_ok.mp prepared
  obtain ⟨final, looped, prepared⟩ := except_bind_eq_ok.mp prepared
  obtain ⟨_, summed, prepared⟩ := except_bind_eq_ok.mp prepared
  split at prepared
  · cases prepared
  rename_i fits
  rw [not_or, Nat.not_lt] at fits
  obtain ⟨_, succeeded, prepared⟩ := except_bind_eq_ok.mp prepared
  obtain rfl := Except.ok.inj prepared
  obtain ⟨effects, rows, planned⟩ := (planned_initial g budget bounded).operations looped
  obtain ⟨tags, edges, values⟩ := stage_eq_some (orLimit_eq_ok.mp succeeded)
  rw [planned.indexed] at tags edges values
  have sum := foldlM_checkedAdd_eq (orLimit_eq_ok.mp summed)
  exact ⟨effects, final.diffs, rows,
    { state := rfl
      indexGeneration := rfl
      revision := planned.revision
      bounded := planned.bounded
      operated := planned.operated
      published := planned.published
      free := planned.free
      next := planned.next
      diffs := planned.diffs
      shared := rfl
      count := fits.1
      bytes := by omega
      tags := ⟨allocation, tags⟩
      edges := ⟨allocation, edges⟩
      values := values }⟩

/-! ## Publication -/

/-- A graph stands where another one stood, apart from its caches, its catalog
and the order in the buckets of its value index. -/
structure Standing (g current : EntityGraph N C) : Prop where
  rows : current.rows = g.rows
  tagIndex : current.tagIndex = g.tagIndex
  adjacency : current.adjacency = g.adjacency
  log : current.log = g.log
  version : current.version = g.version
  fields : current.valueIndex.hasIndex = g.valueIndex.hasIndex

theorem Standing.refl (g : EntityGraph N C) : Standing g g := ⟨rfl, rfl, rfl, rfl, rfl, rfl⟩

theorem Standing.trans {first second third : EntityGraph N C} (left : Standing first second)
    (right : Standing second third) :
    Standing first third where
  rows := right.rows.trans left.rows
  tagIndex := right.tagIndex.trans left.tagIndex
  adjacency := right.adjacency.trans left.adjacency
  log := right.log.trans left.log
  version := right.version.trans left.version
  fields := right.fields.trans left.fields

/-- What the publication of a plan does. -/
structure Published (g after : EntityGraph N C) (now : Int) (plan : PreparedBatch)
    (rows : Rows) : Prop where
  rows : after.rows = rows
  version : after.version = plan.afterRevision
  log : after.log = if plan.diffs.isEmpty then g.log
    else g.log.appendCommittedUnit now plan.diffs
  framed : Framed g after
  tagIndex : after.tagIndex = g.tagIndex.applyPrepared plan.tags
  adjacency : after.adjacency = g.adjacency.applyPrepared plan.adjacency
  valueIndex : after.valueIndex = g.valueIndex.applyPrepared plan.values

variable {now : Int} {span : Option CommitSpan} {after : EntityGraph N C} {reserved : Bool}

/-- A plan is published only at the state that it was prepared for. -/
theorem current_of_applyPrepared
    (applied : g.applyPrepared now reserved plan = .ok (span, after)) :
    g.state = plan.state ∧ g.indexGeneration = plan.indexGeneration := by
  unfold applyPrepared at applied
  split at applied
  · cases applied
  · rename_i current
    simpa using current

variable {current : EntityGraph N C} {written : List GraphDiff}

theorem PreparedFrom.rows_eq {operations : List EntityOperation}
    (prepared : PreparedFrom g operations plan effects written rows)
    (standing : Standing g current) :
    { plan.changes.foldl PreparedChange.applyRows current.rows with
      freeIds := plan.freedIds ++
        (plan.changes.foldl PreparedChange.applyRows current.rows).freeIds.drop
          plan.freeIdsConsumed
      nextId := plan.nextId } = rows := by
  rw [standing.rows, prepared.published, ← prepared.free, ← prepared.next]

theorem applyPrepared_published {operations : List EntityOperation}
    (prepared : PreparedFrom g operations plan effects written rows)
    (standing : Standing g current)
    (applied : current.applyPrepared now reserved plan = .ok (span, after)) :
    Published current after now plan rows := by
  unfold applyPrepared at applied
  split at applied
  · cases applied
  split at applied
  · cases applied
  rw [foldl_applyChange_eq] at applied
  obtain ⟨rfl, rfl⟩ := Prod.mk.inj (Except.ok.inj applied)
  exact
    { rows := prepared.rows_eq standing
      version := rfl
      log := rfl
      framed := ⟨rfl, rfl, rfl, rfl, rfl, rfl, rfl, ValueIndex.hasIndex_applyPrepared _ _⟩
      tagIndex := rfl
      adjacency := rfl
      valueIndex := rfl }

/-- A plan without diffs changes nothing but the capacity of the cache. -/
theorem applyPrepared_unchanged {operations : List EntityOperation}
    (prepared : PreparedFrom g operations plan effects [] rows) (standing : Standing g current)
    (applied : current.applyPrepared now reserved plan = .ok (span, after)) :
    after = current.growCache := by
  obtain rfl : effects = [] := List.eq_nil_of_length_eq_zero prepared.diffs.length_eq.symm
  have unchanged : rows = current.rows := prepared.operated.rows_eq.trans standing.rows.symm
  have published := prepared.rows_eq standing
  rw [unchanged] at published
  obtain ⟨_, _, _, tags⟩ := prepared.tags
  obtain ⟨_, _, _, edges⟩ := prepared.edges
  obtain ⟨_, _, values⟩ := prepared.values
  have noTags : plan.tags = ∅ := TagBitmapIndex.entries_of_prepareChanges tags
  have noEdges : plan.adjacency = ⟨∅, ∅⟩ := RefAdjacency.prepared_of_nil edges
  have noValues : plan.values = ∅ := ValueIndex.entries_of_prepareChanges values
  have noDiffs : plan.diffs = [] := prepared.shared
  have version : plan.afterRevision = current.version :=
    prepared.revision.trans standing.version.symm
  unfold applyPrepared at applied
  split at applied
  · cases applied
  split at applied
  · cases applied
  rw [foldl_applyChange_eq] at applied
  obtain ⟨_, rfl⟩ := Prod.mk.inj (Except.ok.inj applied)
  have entities := congrArg Rows.entities published
  have idMap := congrArg Rows.idMap published
  have reverseId := congrArg Rows.reverseId published
  have freeIds := congrArg Rows.freeIds published
  have nextId := congrArg Rows.nextId published
  simp only at entities idMap reverseId freeIds nextId
  simp only [withRows, entities, idMap, reverseId, freeIds, nextId, noTags, noEdges, noValues,
    noDiffs, version]
  rfl

/-- Publication keeps the indexes exact. -/
theorem Published.indexed {operations : List EntityOperation}
    (prepared : PreparedFrom g operations plan effects written rows)
    (standing : Standing g current) (published : Published current after now plan rows)
    (indexedBefore : g.Indexed) (indexed : current.Indexed) : after.Indexed := by
  have steps := prepared.operated.steps indexedBefore.rows
  obtain ⟨tracks, reached⟩ := steps.tracks indexedBefore.rows
  have live : after.rows.live =
      (effects.map Effect.change).foldl RowChange.apply g.rows.live := by
    rw [published.rows, reached]
  obtain ⟨_, _, _, tags⟩ := prepared.tags
  obtain ⟨_, _, _, edges⟩ := prepared.edges
  obtain ⟨_, _, values⟩ := prepared.values
  have exactValues := indexed.values
  rw [standing.rows] at exactValues
  refine ⟨⟨?_, ?_, ?_⟩, ?_⟩
  · rw [live, published.tagIndex, standing.tagIndex]
    exact indexedBefore.tags.applyPrepared tracks tags
  · rw [live, published.valueIndex]
    exact indexedBefore.values.applyPrepared exactValues standing.fields tracks values
  · rw [live, published.adjacency, standing.adjacency]
    exact indexedBefore.edges.applyPrepared tracks edges
  · rw [published.rows]
    exact steps.wellFormed indexedBefore.rows

/-- The diffs of a plan form one complete unit. -/
theorem diffUnits_shareSpan {floor : Nat} (nonempty : written ≠ [])
    (versions : written.map GraphDiff.version = List.range' (floor + 1) written.length) :
    Changelog.DiffUnits floor [shareSpan written (floor + written.length)] := by
  obtain ⟨first, _, rfl⟩ := List.exists_cons_of_ne_nil nonempty
  have head : first.version = floor + 1 := by
    exact (List.cons.inj versions).1
  refine ⟨by simp [shareSpan], ?_, ?_, trivial⟩
  · simpa [shareSpan, Function.comp_def] using versions
  · intro entry member
    obtain ⟨_, _, rfl⟩ := List.mem_map.mp member
    simp [shareSpan, head]

/-- The publication of a plan with diffs is a commit. -/
theorem Published.commit {operations : List EntityOperation}
    (prepared : PreparedFrom g operations plan effects written rows)
    (standing : Standing g current) (published : Published current after now plan rows)
    (indexedBefore : g.Indexed) (nonempty : written ≠ []) :
    Commit current after (effects.map Effect.change) plan.diffs := by
  have sound := prepared.operated.diffsSound indexedBefore.rows prepared.diffs
  have length := prepared.diffs.length_eq
  have revision : plan.afterRevision = g.version + written.length := by
    rw [prepared.revision, length]
  obtain ⟨first, rest, rfl⟩ := List.exists_cons_of_ne_nil nonempty
  have shared : plan.diffs = (first :: rest).map
      ({ · with span := ⟨first.version, plan.afterRevision⟩ }) := prepared.shared
  have entities : after.entities = rows.entities := congrArg Rows.entities published.rows
  have sameEntities : current.entities = g.entities := congrArg Rows.entities standing.rows
  exact
    { steps := by
        rw [standing.rows, published.rows]
        exact prepared.operated.steps indexedBefore.rows
      recorded := by
        rw [shared, entities, sameEntities]
        exact sound.recorded.withSpan _
      complete := by
        rw [prepared.shared, revision, standing.version]
        exact diffUnits_shareSpan nonempty sound.versions
      version := by
        rw [published.version, revision, standing.version, shared, List.length_map]
      bounded := by
        rw [published.version]
        exact prepared.bounded
      logged := by
        refine .unit now ?_ ?_
        · rw [shared]
          intro diff member
          obtain ⟨original, originalMember, rfl⟩ := List.mem_map.mp member
          exact sound.accounted original originalMember
        · rw [published.log, if_neg (by simp [shared])]
      framed := published.framed
      indexed := published.indexed prepared standing indexedBefore }

end EntityGraph
end Graph
end Haystack
