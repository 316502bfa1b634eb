import Haystack.App.HistorySound

/-!
# History writes are published at most once

The receipts of a history authority are a ledger: a binding is bound to one
request, and ends committed in the step that replaces the series and appends the
change, or rejected without effect.  A submission whose receipt is committed
before it has decided its answer does not answer a rejection.
-/

namespace Haystack
namespace App
namespace History

open Collections Haystack.Graph
open Haystack.Filter (FilterNode Ontology)
open Protocol (Status Keeps)

variable {N C : Type}

/-- What has become of a record. -/
def status (record : HistoryRecord) :
    Status (List UInt8 × HistoryWriteRequest) HistoryWriteReceipt
      (HistoryOperationIdentity × HistoryWriteRejection) :=
  match record.outcome with
  | .committed receipt => .committed (record.canonical, record.request) receipt
  | .rejected identity reason =>
    .rejected (record.canonical, record.request) (identity, reason)
  | .unknown _ _ => .pending (record.canonical, record.request)

theorem status_ne_unbound (record : HistoryRecord) : status record ≠ .unbound := by
  unfold status
  split <;> nofun

namespace Authority

/-- The receipts of an authority as a ledger. -/
def ledger (s : Authority N C) (binding : HistoryBinding) :
    Status (List UInt8 × HistoryWriteRequest) HistoryWriteReceipt
      (HistoryOperationIdentity × HistoryWriteRejection) :=
  match s.store.receipts[binding]? with
  | none => .unbound
  | some record => status record

variable {codec : HistoryCodec} {tables : Tables} {ontology : Ontology N C}
variable {parseFilter : String → Except String FilterNode} {calm : Bool} {s s' : Authority N C}

theorem ledger_congr (receipts : s'.store.receipts = s.store.receipts) :
    s'.ledger = s.ledger := by
  funext binding
  simp [ledger, receipts]

theorem ledger_bindReceipt
    (submission : Submission) (intent : Intent) (outcome : HistoryWriteOutcome)
    (receipts : s'.store.receipts = (bindReceipt s.store submission intent outcome).receipts) :
    s'.ledger = Function.update s.ledger submission.binding
      (status ⟨intent.canonical, submission.request, outcome⟩) := by
  funext key
  simp only [ledger, receipts, getElem?_bindReceipt, Function.update_apply]
  by_cases same : submission.binding = key
  · subst same
    simp
  · simp [same, Ne.symm same]

variable {binding : HistoryBinding} {record : HistoryRecord}

theorem ledger_settleReceipt (bound : s.store.receipts[binding]? = some record)
    (outcome : HistoryWriteOutcome)
    (receipts : s'.store.receipts = (settleReceipt s.store binding outcome).receipts) :
    s'.ledger = Function.update s.ledger binding (status { record with outcome }) := by
  funext key
  simp only [ledger, receipts, getElem?_settleReceipt, Function.update_apply]
  by_cases same : binding = key
  · subst same
    simp [bound]
  · simp [same, Ne.symm same]

theorem ledger_of_none (free : s.store.receipts[binding]? = none) :
    s.ledger binding = .unbound := by
  simp [ledger, free]

/-- A prepared mutation stands for a pending key. -/
theorem Reserved.ledger_eq {mutation : PreparedMutation}
    (reserved : Reserved tables s mutation record) :
    s.ledger mutation.binding = .pending (record.canonical, record.request) := by
  simp [ledger, reserved.bound, status, reserved.pending]

/-- Every step moves the ledger, and commits what it publishes. -/
theorem Stepped.moved {applied : Option (HistoryBinding × HistoryWriteReceipt)}
    (sound : s.Sound codec tables)
    (stepped : Stepped codec tables ontology parseFilter calm s s' applied) :
    Protocol.Moved s.ledger s'.ledger applied := by
  have frame {after : Authority N C} (receipts : after.store.receipts = s.store.receipts) :
      Protocol.Moved s.ledger after.ledger none := by
    rw [ledger_congr receipts]
    exact .stay
  cases stepped with
  | pointed index submission intent schema graph store series found inspected opens =>
      exact frame (by cases opens <;> rfl)
  | bound index submission intent plan found planned free =>
    cases plan with
    | none =>
      have turned : Status.Turned (s.ledger submission.binding)
          (.rejected (intent.canonical, submission.request)
            (submission.request.identity, .emptyBatch)) none := by
        rw [ledger_of_none free]
        exact .refuse _ _
      exact .of_update turned (ledger_bindReceipt submission intent
        (initialOutcome submission none) rfl)
    | some plan =>
      have turned : Status.Turned (s.ledger submission.binding)
          (.pending (intent.canonical, submission.request)) none := by
        rw [ledger_of_none free]
        exact .bind _
      exact .of_update turned (ledger_bindReceipt submission intent
        (initialOutcome submission (some plan)) rfl)
  | rejected index mutation reason found =>
    obtain ⟨record, reserved⟩ := sound.prepared mutation (List.mem_of_getElem? found)
    have turned : Status.Turned (s.ledger mutation.binding)
        (.rejected (record.canonical, record.request)
          (mutation.binding.identity, reason)) none := by
      rw [reserved.ledger_eq]
      exact .reject _ _
    exact .of_update turned (ledger_settleReceipt reserved.bound
      (.rejected mutation.binding.identity reason) rfl)
  | committed index mutation series found =>
      obtain ⟨record, reserved⟩ := sound.prepared mutation (List.mem_of_getElem? found)
      have turned : Status.Turned (s.ledger mutation.binding)
          (.committed (record.canonical, record.request)
            (publishedReceipt mutation (s.store.sequence + 1)))
          (some (publishedReceipt mutation (s.store.sequence + 1))) := by
        rw [reserved.ledger_eq]
        exact .commit _ _
      exact .of_update turned (ledger_settleReceipt reserved.bound
        (.committed (publishedReceipt mutation (s.store.sequence + 1))) rfl)
  | recorded command => exact frame (receipts_step s.store command)
  | _ => exact .stay

/-- The ledger of a sound authority. -/
theorem keeps_sound : Keeps (step codec tables ontology parseFilter) applied
      (Sound codec tables : Authority N C → Prop) ledger where
  invariant sound event := (stepped _ event).sound sound
  moved sound event := (stepped _ event).moved sound

theorem Sound.run (sound : s.Sound codec tables) (events : List (Event N C)) :
    (s.run codec tables ontology parseFilter events).Sound codec tables :=
  keeps_sound.run sound events

/-! ## Records along a run -/

/-- A record keeps its request, and its outcome once it is final. -/
structure Continues (binding : HistoryBinding) (record kept : HistoryRecord) : Prop where
  canonical : kept.canonical = record.canonical
  request : kept.request = record.request
  outcome : kept.outcome = record.outcome ∨ record.outcome = .unknown binding.identity .pending ∧
      kept.outcome.isUnknown = false

/-- A later status of a record is that of a record that continues it. -/
theorem continues_of_later {kept : HistoryRecord} (before : Kept codec binding record)
    (after : Kept codec binding kept) (later : (status record).Later (status kept)) :
    Continues binding record kept := by
  obtain ⟨_, _, outcome⟩ := record
  obtain ⟨_, _, _⟩ := kept
  have started := before.outcome
  have ended := after.outcome
  rcases started with rfl | ⟨receipt, rfl⟩ | ⟨reason, rfl⟩
  all_goals
    rcases ended with rfl | ⟨_, rfl⟩ | ⟨_, rfl⟩
    all_goals
      cases later
      all_goals constructor <;> simp [HistoryWriteOutcome.isUnknown]

variable (ontology parseFilter) in
/-- A bound request stays bound in a run, and its outcome moves at most once. -/
theorem Sound.continues (sound : s.Sound codec tables) (events : List (Event N C))
    (bound : s.store.receipts[binding]? = some record) :
    ∃ kept, (s.run codec tables ontology parseFilter events).store.receipts[binding]?
        = some kept ∧ Continues binding record kept := by
  have later : (s.ledger binding).Later
      ((s.run codec tables ontology parseFilter events).ledger binding) :=
    keeps_sound.later sound events binding
  have after : (s.run codec tables ontology parseFilter events).Sound codec
      tables := sound.run events
  simp only [ledger, bound] at later
  cases held : (s.run codec tables ontology parseFilter events).store.receipts[binding]? with
  | none =>
    simp only [held] at later
    exact absurd later.unbound_of_unbound (status_ne_unbound record)
  | some kept =>
    simp only [held] at later
    exact ⟨kept, rfl, continues_of_later (sound.records bound) (after.records held) later⟩

/-! ## Atomic steps -/

/-- The step that publishes a write: it finds the series at the expected
incarnation and generation and the graph at a schema that admits the samples, and
replaces the series, appends the change under the next sequence and commits the
receipt. -/
structure Publishes (tables : Tables) (s s' : Authority N C) (binding : HistoryBinding)
    (receipt : HistoryWriteReceipt) (record : HistoryRecord)
    (series next : Series)
    (change : HistoryChangeRecord) : Prop where
  bound : s.store.receipts[binding]? = some record
  pending : record.outcome = .unknown binding.identity .pending
  committed : s'.store.receipts[binding]? = some { record with outcome := .committed receipt }
  identity : receipt.identity = binding.identity ∧ record.request.identity = binding.identity
  held : s.store.points[binding.identity.point]? = some series
  incarnation : series.incarnation = binding.identity.incarnation
  generation : series.generation = record.request.expectedGeneration
  generations : receipt.beforeGeneration = series.generation ∧
    receipt.afterGeneration = next.generation
  graph : s'.graph = s.graph
  validated : ∃ schema, Validates tables s.graph.graph record.request schema
  points : s'.store.points = s.store.points.insert binding.identity.point next
  next : next.incarnation = series.incarnation ∧ next.generation = series.generation + 1
  changes : s'.store.changes = (s.store.appendChange change).changes
  change : change.point = binding.identity.point ∧
    change.operation = some binding.identity ∧
    change.sequence = receipt.changeSequence
  sequence : receipt.changeSequence = s.store.sequence + 1 ∧
    s'.store.sequence = s.store.sequence + 1

end Authority
end History
end App
end Haystack
