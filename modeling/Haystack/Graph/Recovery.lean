import Haystack.Graph.EntityGraph

/-!
# Recovery

An image holds the rows and the retained changes of a graph.  `image` captures
it within limits, and `restore` rebuilds a graph from it: the changes are checked
one by one, and the rows are added to a new graph, whose own log is then replaced
by the checked one.
-/

namespace Haystack
namespace Graph

open Haystack.Filter (Ontology Arc)

inductive RecoveryError
  | invalid
  | limit
  deriving DecidableEq, Repr

structure RecoveryLimits where
  maxRows : Nat
  maxChanges : Nat
  maxBytes : Nat
  maxWork : Nat

namespace RecoveryLimits

def default : RecoveryLimits where
  maxRows := 4096
  maxChanges := 4096
  maxBytes := 64 * 1024 * 1024
  maxWork := 16000000

def validate (limits : RecoveryLimits) : Except RecoveryError Unit :=
  if limits.maxRows = 0 ∨ limits.maxRows > 100000 ∨
      limits.maxChanges = 0 ∨ limits.maxChanges > 100000 ∨
      limits.maxBytes = 0 ∨ limits.maxBytes > 256 * 1024 * 1024 ∨
      limits.maxWork = 0 ∨ limits.maxWork > 64000000 then
    .error .limit
  else .ok ()

def budget (limits : RecoveryLimits) : ValueBudget := .new limits.maxWork limits.maxBytes 64

end RecoveryLimits

/-- A change of an image. -/
structure RecoveryChange where
  version : Nat
  span : CommitSpan
  timestamp : Int
  op : DiffOp
  id : String
  old : Option HDict
  new : Option HDict
  changed : Option HDict
  previous : Option HDict

structure GraphImage where
  state : GraphState
  rows : List HDict
  floor : Nat
  changes : List RecoveryChange

/-- What does not fit in a budget exceeds the limit. -/
def limited {α : Type} : Option α → Except RecoveryError α
  | some value => .ok value
  | none => .error .limit

namespace RecoveryChange

def ofDiff (diff : GraphDiff) : RecoveryChange where
  version := diff.version
  span := diff.span
  timestamp := diff.timestamp
  op := diff.op
  id := diff.refVal
  old := diff.old
  new := diff.new
  changed := diff.changedTags
  previous := diff.previousTags

/-- A dictionary is the row of the id of the change. -/
def isRow (change : RecoveryChange) (dict : Option HDict) : Bool :=
  dict.any fun row => row.id.any fun id => id.val = change.id

/-- The dictionaries of a change are those of its operation. -/
def valid (change : RecoveryChange) : Bool :=
  match change.op with
  | .add => change.isRow change.new && change.old.isNone &&
      change.changed.isNone && change.previous.isNone
  | .remove => change.isRow change.old && change.new.isNone &&
      change.changed.isNone && change.previous.isNone
  | .update => change.new.isNone && change.old.isNone &&
      change.changed.isSome && change.previous.isSome

/-- The diff of a valid change, with its bytes counted again. -/
def intoDiff (change : RecoveryChange) (limit : Nat) :
    Except RecoveryError GraphDiff :=
  if !change.valid || change.id.isEmpty || change.id.utf8ByteSize > 4096 then
    .error .invalid
  else do
    let bytes ← limited (diffBytes change.id
      ([change.old, change.new, change.changed, change.previous].filterMap
        fun dict => dict) limit)
    .ok
      { version := change.version
        span := change.span
        retainedBytes := bytes
        timestamp := change.timestamp
        op := change.op
        refVal := change.id
        old := change.old
        new := change.new
        changedTags := change.changed
        previousTags := change.previous }

end RecoveryChange

/-- The local state of the loop over the changes of an image. -/
structure Loading where
  changes : List GraphDiff
  bytes : Nat
  previous : Nat
  span : Option CommitSpan
  budget : ValueBudget

/-- The unit that is open after a change.  A change has the next version, and it
opens a unit or belongs to the open one. -/
def nextSpan
    (revision previous : Nat) (span : Option CommitSpan)
    (change : RecoveryChange) : Except RecoveryError (Option CommitSpan) :=
  let after :=
    if change.version = change.span.last then none else some change.span
  if checkedAdd u64Max previous 1 ≠ some change.version then .error .invalid
  else
    match span with
    | none =>
      if change.span.first ≠ change.version ∨
          change.span.last < change.version ∨
          change.span.last > revision then
        .error .invalid
      else .ok after
    | some unit => if unit ≠ change.span then .error .invalid else .ok after

/-- One iteration of the loop over the changes. -/
def loadChange
    (limits : RecoveryLimits) (revision : Nat) (loading : Loading)
    (change : RecoveryChange) : Except RecoveryError Loading := do
  let span ← nextSpan revision loading.previous loading.span change
  let diff ← change.intoDiff limits.maxBytes
  let budget ← limited (loading.budget.charge 1 diff.retainedBytes)
  let bytes ← limited (checkedAdd usizeMax loading.bytes diff.retainedBytes)
  .ok
    { changes := loading.changes ++ [diff]
      bytes := bytes
      previous := change.version
      span := span
      budget := budget }

namespace EntityGraph

variable {N C : Type}

def image (g : EntityGraph N C) (limits : RecoveryLimits) :
    Except RecoveryError GraphImage := do
  limits.validate
  if g.entities.size > limits.maxRows ∨ g.log.entries.length > limits.maxChanges then
    .error .limit
  else do
    let rows := g.entities.toList.map Prod.snd
    let budget ← limited (limits.budget.dicts 0 rows)
    let _ ← limited (g.log.entries.foldlM
      (fun budget diff => budget.charge 1 diff.retainedBytes) budget)
    .ok
      { state := g.state
        rows := rows
        floor := g.log.floorVersion
        changes := g.log.entries.map RecoveryChange.ofDiff }

/-- Add one row of an image. -/
def loadRow (now : Int) (g : EntityGraph N C) (row : HDict) :
    Except RecoveryError (EntityGraph N C) :=
  match g.add now row with
  | .ok (_, g) => .ok g
  | .error _ => .error .invalid

/-- The graph that the rows of an image are added to. -/
def restoreBase
    (ontology : Ontology N C) (fresh : BitVec 128)
    (catalog : Arc C) : EntityGraph N C :=
  { (withChangelogLimits 1 1 fresh : EntityGraph N C) with
    namespaceArc := some (ontology.catalogNamespace catalog.val)
    activated := some catalog }

/-- Replace the state and the log of a loaded graph by those of the image. -/
def install
    (g : EntityGraph N C) (image : GraphImage) (limits : RecoveryLimits)
    (loading : Loading) : EntityGraph N C :=
  { g with
    incarnation := image.state.incarnation
    version := image.state.revision
    catalogGeneration := image.state.catalogGeneration
    log :=
      { entries := loading.changes
        capacity := limits.maxChanges
        byteCapacity := limits.maxBytes
        bytes := loading.bytes
        floorVersion := image.floor }
    queryCache := g.queryCache.clear }

/-- Rebuild a graph from an image.  The incarnation `fresh` of the new graph and
the times of its own log do not survive. -/
def restore
    (ontology : Ontology N C) (fresh : BitVec 128) (now : Int)
    (image : GraphImage) (catalog : Arc C)
    (limits : RecoveryLimits) : Except RecoveryError (EntityGraph N C) := do
  limits.validate
  if image.rows.length > limits.maxRows ∨ image.changes.length > limits.maxChanges then
    .error .limit
  else if image.state.incarnation = 0 ∨ image.state.catalogGeneration = 0 ∨
      image.floor > image.state.revision then
    .error .invalid
  else do
    let budget ← limited (limits.budget.dicts 0 image.rows)
    let loading ← image.changes.foldlM
      (loadChange limits image.state.revision)
      { changes := [], bytes := 0, previous := image.floor, span := none, budget := budget }
    if loading.previous ≠ image.state.revision ∨ loading.span.isSome then
      .error .invalid
    else do
      let g ← image.rows.foldlM (loadRow now)
        (restoreBase ontology fresh catalog)
      .ok (g.install image limits loading)

end EntityGraph
end Graph
end Haystack
