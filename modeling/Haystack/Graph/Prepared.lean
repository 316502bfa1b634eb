import Haystack.Graph.EntityGraph

/-!
# Prepared batches

A batch is prepared against a graph without changing it, and applied later as one
commit unit.  Preparation is fallible and metered; publication checks that the
graph is in the state the plan was made for, and then only moves prepared data.
-/

namespace Haystack
namespace Graph

open Std (ExtTreeMap)

inductive EntityOperation
  | add (row : HDict)
  | patch (id : String) (changes : HDict)
  | remove (id : String)

/-- The ref value that an operation is about. -/
def EntityOperation.target : EntityOperation → Except GraphError String
  | .add row =>
    match row.get "id" with
    | some (.ref id) => .ok id.val
    | some _ => .error .invalidId
    | none => .error .missingId
  | .patch id _ => .ok id
  | .remove id => .ok id

structure BatchLimits where
  maxOperations : Nat
  maxWork : Nat
  maxRetainedBytes : Nat
  maxValueDepth : Nat

def BatchLimits.default : BatchLimits := ⟨128, 1000000, 16 * 1024 * 1024, 32⟩

inductive BatchError
  | empty
  | duplicateTarget
  | limit
  | conflict
  | entity (error : GraphError)
  deriving DecidableEq, Repr

/-- A planned change, with the rows before and after it. -/
structure PreparedChange where
  id : String
  op : DiffOp
  before : Option HDict
  after : Option HDict
  changed : Bool
  numericId : Nat
  mapKeys : Option (String × String)

/-- A complete plan, tied to one state of one graph. -/
structure PreparedBatch where
  state : GraphState
  indexGeneration : Nat
  afterRevision : Nat
  retainedBytes : Nat
  changes : List PreparedChange
  diffs : List GraphDiff
  tags : ExtTreeMap String (Finset Nat)
  adjacency : RefAdjacency.Prepared
  values : ValueIndex.PreparedValues
  freeIdsConsumed : Nat
  /-- Ids freed by the batch and not used again, the last one first. -/
  freedIds : List Nat
  nextId : Nat

/-- The span shared by the diffs of a plan. -/
def PreparedBatch.span (plan : PreparedBatch) : Option CommitSpan := plan.diffs.head?.map (·.span)

/-- A charge that does not fit exceeds the limits of the batch. -/
def orLimit {α : Type} : Option α → Except BatchError α
  | some value => .ok value
  | none => .error .limit

/-- The bytes of the vectors of a plan. -/
def planBufferBytes (allocation : Allocation) (operations : Nat) : Except BatchError Nat :=
  orLimit ([allocation.preparedChangeSize, allocation.graphDiffSize, 8,
      allocation.indexChangeSize].foldlM
    (fun total size => do
      let bytes ← layoutArray size operations
      checkedAdd usizeMax total bytes) 0)

namespace EntityGraph

variable {N C : Type}

/-- State of the loop over the operations of a batch. -/
structure PlanState where
  budget : ValueBudget
  seen : List String
  changes : List PreparedChange
  diffs : List GraphDiff
  freeIdsConsumed : Nat
  freedIds : List Nat
  nextId : Nat
  revision : Nat

/-- The decision about one operation: its op, the row after it, its id, whether
it changes the row, and the patch with the values it replaces. -/
structure Outcome where
  op : DiffOp
  after : Option HDict
  numericId : Nat
  changed : Bool
  delta : Option (HDict × HDict)

/-- A numeric id for an added row: one freed by the batch, a recycled one of the
graph, or a new one. -/
def planId (g : EntityGraph N C) (plan : PlanState) : Except BatchError (Nat × PlanState) :=
  match plan.freedIds with
  | id :: rest => .ok (id, { plan with freedIds := rest })
  | [] =>
    match g.freeIds[plan.freeIdsConsumed]? with
    | some id =>
      .ok (id, { plan with freeIdsConsumed := plan.freeIdsConsumed + 1 })
    | none =>
      if plan.nextId > maxEntityId then .error (.entity .idExhausted)
      else .ok (plan.nextId, { plan with nextId := plan.nextId + 1 })

def planAdd (g : EntityGraph N C) (id : String) (before : Option HDict) (row : HDict)
    (plan : PlanState) : Except BatchError (Outcome × PlanState) :=
  if before.isSome then .error (.entity (.duplicateRef id))
  else do
    let budget ← orLimit (plan.budget.dict row 1)
    let (numeric, plan) ← g.planId { plan with budget }
    .ok (⟨.add, some row, numeric, true, none⟩, plan)

/-- Charge and collect the values that a patch replaces. -/
def planPrevious (old : HDict) (state : ValueBudget × HDict)
    (tag : String × Kind) : Option (ValueBudget × HDict) :=
  match old.get tag.1 with
  | some value => do
    let budget ← state.1.chargeName tag.1
    let budget ← budget.value 2 value
    some (budget, state.2.set tag.1 value)
  | none => some state

def planPatch (g : EntityGraph N C) (id : String) (before : Option HDict) (changes : HDict)
    (plan : PlanState) : Except BatchError (Outcome × PlanState) :=
  match before, g.idMap[id]? with
  | some old, some numeric =>
    if changesIdentity id changes then .error (.entity .immutableId)
    else do
      let budget ← orLimit (plan.budget.dict changes 1)
      let budget ← orLimit (budget.dict old 1)
      let after := old.merge changes
      let budget ← orLimit (budget.dict after 1)
      let (budget, previous) ←
        orLimit (changes.iter.foldlM (planPrevious old) (budget, HDict.new))
      let budget ← orLimit (budget.dict changes 1)
      .ok (⟨.update, some after, numeric, !changes.isEmpty,
        some (changes, previous)⟩, { plan with budget })
  | _, _ => .error (.entity (.notFound id))

def planRemove (g : EntityGraph N C) (id : String) (before : Option HDict)
    (plan : PlanState) : Except BatchError (Outcome × PlanState) :=
  match before, g.idMap[id]? with
  | some _, some numeric =>
    .ok (⟨.remove, none, numeric, true, none⟩, { plan with freedIds := numeric :: plan.freedIds })
  | _, _ => .error (.entity (.notFound id))

/-- Decide about one operation. -/
def planOutcome (g : EntityGraph N C) (operation : EntityOperation) (id : String)
    (before : Option HDict)
    (plan : PlanState) : Except BatchError (Outcome × PlanState) :=
  match operation with
  | .add row => g.planAdd id before row plan
  | .patch _ changes => g.planPatch id before changes plan
  | .remove _ => g.planRemove id before plan

/-- The retained bytes of the diff of an outcome. -/
def planBytes (g : EntityGraph N C) (id : String) (before : Option HDict)
    (outcome : Outcome) : Option Nat :=
  match outcome.op with
  | .add => diffBytes id outcome.after.toList g.log.byteCapacity
  | .remove => diffBytes id before.toList g.log.byteCapacity
  | .update =>
    match before, outcome.delta with
    | some old, some (changes, _) =>
      patchDiffBytes id old changes g.log.byteCapacity
    | _, _ => none

/-- The diff of an outcome, before the span of the batch is known. -/
def planDiff (id : String) (before : Option HDict) (outcome : Outcome)
    (revision bytes : Nat) : GraphDiff where
  version := revision
  span := .singleton revision
  retainedBytes := bytes
  timestamp := 0
  op := outcome.op
  refVal := id
  old := if outcome.op = .remove then before else none
  new := if outcome.op = .add then outcome.after else none
  changedTags := outcome.delta.map Prod.fst
  previousTags := outcome.delta.map Prod.snd

/-- The revision of the next diff. -/
def PlanState.nextRevision (plan : PlanState) : Except BatchError Nat :=
  match checkedAdd u64Max plan.revision 1 with
  | some revision => .ok revision
  | none => .error (.entity .revisionExhausted)

/-- Append the diff of an outcome that changes its row. -/
def planRecord (g : EntityGraph N C) (id : String) (before : Option HDict) (outcome : Outcome)
    (plan : PlanState) : Except BatchError PlanState :=
  if outcome.changed then do
    let revision ← plan.nextRevision
    let bytes ← orLimit (g.planBytes id before outcome)
    let budget ← orLimit (plan.budget.charge 1 bytes)
    .ok { plan with
      budget
      revision
      diffs := plan.diffs ++ [planDiff id before outcome revision bytes] }
  else .ok plan

/-- The planned change of an outcome. -/
def plannedChange (id : String) (before : Option HDict) (outcome : Outcome) : PreparedChange where
  id := id
  op := outcome.op
  before := before
  after := outcome.after
  changed := outcome.changed
  numericId := outcome.numericId
  mapKeys := if outcome.op = .add then some (id, id) else none

/-- One iteration of the loop over the operations of a batch. -/
def planOperation (g : EntityGraph N C) (plan : PlanState)
    (operation : EntityOperation) : Except BatchError PlanState := do
  let id ← operation.target.mapError .entity
  let budget ← orLimit (plan.budget.charge (saturatingAdd id.utf8ByteSize 1)
    (saturatingAdd (saturatingMul id.utf8ByteSize 4) 1024))
  if plan.seen.contains id then .error .duplicateTarget
  else do
    let before := g.entities[id]?
    let budget ← orLimit (budget.dicts 1 before.toList)
    let plan := { plan with budget, seen := id :: plan.seen }
    let (outcome, plan) ← g.planOutcome operation id before plan
    let plan ← g.planRecord id before outcome plan
    .ok { plan with
      changes := plan.changes ++ [plannedChange id before outcome] }

/-- Give all diffs of a batch one span. -/
def shareSpan (diffs : List GraphDiff) (last : Nat) : List GraphDiff :=
  match diffs.head? with
  | none => diffs
  | some first => diffs.map ({ · with span := ⟨first.version, last⟩ })

/-- Charge the growth of an identity map by the added rows. -/
def chargeIdentity (budget : ValueBudget) (len capacity additions : Nat) : Option ValueBudget :=
  if additions > capacity - len then
    budget.charge (saturatingAdd len additions) (saturatingMul (saturatingAdd len additions) 256)
  else some budget

/-- Charge the growth of a vector of records. -/
def chargeVector (budget : ValueBudget)
    (len capacity additional size : Nat) : Option ValueBudget :=
  if additional > capacity - len then
    budget.charge len (saturatingMul (saturatingMul (saturatingAdd len additional) size) 2)
  else some budget

/-- Charge the retained units that a publication will discard. -/
def chargeDiscarded (capacity byteCapacity : Nat) :
    List GraphDiff → Nat → Nat → ValueBudget → Option ValueBudget
  | [], _, _, budget => some budget
  | diff :: rest, count, retained, budget =>
    if count ≤ capacity ∧ retained ≤ byteCapacity ∧
        diff.version = diff.span.first then some budget
    else do
      let budget ← budget.charge 1 0
      chargeDiscarded capacity byteCapacity rest (count - 1)
        (retained - diff.retainedBytes) budget

/-- The number of added rows of a plan. -/
def additions (changes : List PreparedChange) : Nat := (changes.filter (·.op = .add)).length

/-- The changes of a plan as the indexes see them. -/
def indexed (changes : List PreparedChange) : List IndexChange :=
  (changes.filter (·.changed)).map fun change =>
    ⟨change.numericId, change.before, change.after⟩

/-- The staged index entries of a plan, and its budget. -/
structure Staged where
  tags : ExtTreeMap String (Finset Nat)
  adjacency : RefAdjacency.Prepared
  values : ValueIndex.PreparedValues
  budget : ValueBudget

/-- Charge the growth of the stores and stage the index entries. -/
def stage (g : EntityGraph N C) (allocation : Allocation) (plan : PlanState)
    (diffs : List GraphDiff)
    (bytes : Nat) : Option Staged := do
  let added := additions plan.changes
  let budget ← chargeIdentity plan.budget g.idMap.size allocation.idMap added
  let budget ← chargeIdentity budget g.reverseId.size allocation.reverseId added
  let budget ← chargeVector budget g.log.entries.length allocation.changelog
    diffs.length allocation.graphDiffSize
  let budget ← chargeVector budget g.freeIds.length allocation.freeIds plan.freedIds.length 8
  let changes := indexed plan.changes
  let (tags, budget) ← g.tagIndex.prepareChanges allocation changes budget
  let (adjacency, budget) ← g.adjacency.prepareChanges allocation changes budget
  let (values, budget) ← g.valueIndex.prepareChanges changes budget
  let budget ← chargeDiscarded g.log.capacity g.log.byteCapacity g.log.entries
    (saturatingAdd g.log.entries.length diffs.length)
    (saturatingAdd g.log.bytes bytes) budget
  some ⟨tags, adjacency, values, budget⟩

def prepareBatch (g : EntityGraph N C) (allocation : Allocation) (expectedRevision : Nat)
    (operations : List EntityOperation)
    (limits : BatchLimits) : Except BatchError PreparedBatch :=
  if expectedRevision ≠ g.version then .error .conflict
  else if operations.isEmpty then .error .empty
  else if operations.length > limits.maxOperations ∨
      limits.maxValueDepth = 0 ∨ limits.maxValueDepth > 64 then .error .limit
  else do
    let budget := ValueBudget.new limits.maxWork limits.maxRetainedBytes limits.maxValueDepth
    let buffers ← planBufferBytes allocation operations.length
    let budget ← orLimit (budget.charge operations.length buffers)
    let plan ← operations.foldlM g.planOperation ⟨budget, [], [], [], 0, [], g.nextId, g.version⟩
    let bytes ← orLimit (plan.diffs.foldlM
      (fun bytes diff => checkedAdd usizeMax bytes diff.retainedBytes) 0)
    if plan.diffs.length > g.log.capacity ∨ bytes > g.log.byteCapacity then
      .error .limit
    else do
      let diffs := shareSpan plan.diffs plan.revision
      let staged ← orLimit (g.stage allocation plan diffs bytes)
      .ok
        { state := g.state
          indexGeneration := g.indexGeneration
          afterRevision := plan.revision
          retainedBytes := staged.budget.usedBytes
          changes := plan.changes
          diffs
          tags := staged.tags
          adjacency := staged.adjacency
          values := staged.values
          freeIdsConsumed := plan.freeIdsConsumed
          freedIds := plan.freedIds
          nextId := plan.nextId }

/-! ## Publication -/

/-- Apply one planned change to the rows and the identity maps.  The keys and
the row that a plan provides for its op are always present. -/
def applyChange (g : EntityGraph N C) (change : PreparedChange) : EntityGraph N C :=
  if change.changed then
    match change.op, change.mapKeys, change.after with
    | .add, some (forwardKey, reverseKey), some after =>
      { g with
        idMap := g.idMap.insert forwardKey change.numericId
        reverseId := g.reverseId.insert change.numericId reverseKey
        entities := g.entities.insert change.id after }
    | .update, _, some after =>
      { g with entities := g.entities.insert change.id after }
    | .remove, _, _ =>
      { g with
        entities := g.entities.erase change.id
        idMap := g.idMap.erase change.id
        reverseId := g.reverseId.erase change.numericId }
    | _, _, _ => g
  else g

/-- Publish a plan.  `reserved` tells whether the growth of the stores could be
reserved. -/
def applyPrepared (g : EntityGraph N C) (now : Int) (reserved : Bool) (plan : PreparedBatch) :
    Except BatchError (Option CommitSpan × EntityGraph N C) :=
  if g.state ≠ plan.state ∨ g.indexGeneration ≠ plan.indexGeneration then
    .error .conflict
  else if !reserved then .error .limit
  else
    let g := plan.changes.foldl applyChange g
    let g := { g with
      freeIds := plan.freedIds ++ g.freeIds.drop plan.freeIdsConsumed
      nextId := plan.nextId
      tagIndex := g.tagIndex.applyPrepared plan.tags
      adjacency := g.adjacency.applyPrepared plan.adjacency
      valueIndex := g.valueIndex.applyPrepared plan.values
      version := plan.afterRevision }
    let g := { g with
      log :=
        if plan.diffs.isEmpty then g.log
        else g.log.appendCommittedUnit now plan.diffs }
    .ok (plan.span, g.growCache)

end EntityGraph
end Graph
end Haystack
