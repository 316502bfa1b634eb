import Haystack.App.Types
import Haystack.Graph.Run

/-!
# Entity mutations in memory

Submissions of entity batches against one in-memory store.  Each submission runs
through steps that are delimited by the locks it takes: it reads the policy,
looks its receipt up, prepares its batch under a graph read, reserves its
receipt, and hands the prepared mutation to a provider, which may publish it,
reject it or drop it at any later time.  An event is one such step of one party,
a write of another owner of the graph, or a replacement of a policy.

Deadlines, cancellation and budgets stop a submission at any of its checks; an
event says that they did.  A draw of random bytes is assumed not to repeat.
-/

namespace Haystack
namespace App

open Std (ExtTreeMap TransOrd LawfulEqOrd TransCmp)
open Haystack.Graph
open Haystack.Filter (FilterNode Ontology)

/-! ## Policies and limits -/

/-- The authorization rules of a service. -/
structure MutationPolicy where
  authorizeIntent : Principal → EntityBatchRequest → Bool
  authorizeChange : Principal → PreparedChange → Bool
  authorizeReconcile : Principal → OperationIdentity → Option EntityBatchRequest → Bool

def allowAllMutations : MutationPolicy where
  authorizeIntent _ _ := true
  authorizeChange _ _ := true
  authorizeReconcile _ _ _ := true

/-- Rules in force, with the identity of their generation. -/
structure PolicyVersion where
  rules : MutationPolicy
  generation : Nat

structure MutationLimits where
  batch : BatchLimits
  receiptCapacity : Nat
  receiptBytes : Nat
  pageBytes : Nat

namespace MutationLimits

def default : MutationLimits where
  batch := BatchLimits.default
  receiptCapacity := 1024
  receiptBytes := 64 * 1024 * 1024
  pageBytes := maxPayloadBytes

def validate (limits : MutationLimits) : Except ReadError Unit :=
  if limits.batch.maxOperations = 0 ∨ limits.batch.maxOperations > maxOperations ∨
      limits.batch.maxWork = 0 ∨ limits.batch.maxWork > 16000000 ∨
      limits.batch.maxRetainedBytes = 0 ∨
      limits.batch.maxRetainedBytes > 64 * 1024 * 1024 ∨
      limits.batch.maxValueDepth = 0 ∨ limits.batch.maxValueDepth > 48 ∨
      limits.receiptCapacity = 0 ∨ limits.receiptCapacity > 100000 ∨
      limits.receiptBytes = 0 ∨ limits.receiptBytes > 256 * 1024 * 1024 ∨
      limits.pageBytes < 8192 ∨ limits.pageBytes > maxPayloadBytes then
    .error .invalidLimits
  else .ok ()

example : default.validate = .ok () := by decide

end MutationLimits

/-! ## Receipts -/

/-- What a receipt is bound to. -/
structure Binding where
  principal : PrincipalKey
  identity : OperationIdentity
  deriving DecidableEq

namespace Binding

instance : Ord Binding where
  compare := compareLex (compareOn principal) (compareOn identity)

instance : TransOrd Binding := inferInstanceAs (TransCmp (compareLex (compareOn principal)
    (compareOn identity)))

instance : LawfulEqOrd Binding where
  eq_of_compare {left right} same := by
    obtain ⟨principals, identities⟩ := compareLex_eq_eq.mp same
    obtain ⟨principal, identity⟩ := left
    obtain rfl : principal = _ := LawfulEqOrd.eq_of_compare principals
    obtain rfl : identity = _ := LawfulEqOrd.eq_of_compare identities
    rfl

end Binding

structure Record where
  canonical : List UInt8
  request : EntityBatchRequest
  outcome : MutationOutcome

structure Receipts where
  entries : ExtTreeMap Binding Record
  bytes : Nat

/-- Store the outcome of a bound request. -/
def Receipts.settle (receipts : Receipts) (binding : Binding)
    (outcome : MutationOutcome) : Receipts :=
  { receipts with
    entries := receipts.entries.modify binding ({ · with outcome }) }

/-- The bytes that a receipt is charged. -/
def receiptCharge (canonical : List UInt8) (principal : Principal) : Nat :=
  saturatingAdd (saturatingAdd (saturatingMul canonical.length 32)
    (saturatingMul principal.bytes 2)) 8192

def batchReason : BatchError → RejectionReason
  | .conflict => .conflict
  | .limit => .limit
  | _ => .invalid

def readReason : ReadError → RejectionReason
  | .forbidden => .forbidden
  | .capacity => .capacity
  | .cancelled => .cancelled
  | .deadline => .deadline
  | .unavailable => .provider
  | _ => .limit

/-! ## The parties -/

/-- A mutation service: its limits, the qualification of its provider, and its
policy in force. -/
structure Service where
  limits : MutationLimits
  qualification : ReceiptQualification
  policy : PolicyVersion

/-- How far a submission has come.  It holds its policy from `admitted` on,
until it is handed to the provider. -/
inductive Stage
  | received
  | admitted (canonical : List UInt8) (policy : PolicyVersion)
  | unbound (canonical : List UInt8) (policy : PolicyVersion)
  | authorized (canonical : List UInt8) (policy : PolicyVersion)
      (plan : PreparedBatch) (receipt : EntityReceipt)
  | committing
  | answered (outcome : MutationOutcome)

namespace Stage

/-- The submission holds the policy lock. -/
def holdsPolicy : Stage → Bool
  | .admitted .. => true
  | .unbound .. => true
  | .authorized .. => true
  | _ => false

/-- The submission has not been handed to the provider. -/
def isOpen : Stage → Bool
  | .committing => false
  | .answered _ => false
  | _ => true

def outcome : Stage → Option MutationOutcome
  | .answered outcome => some outcome
  | _ => none

end Stage

structure Submission where
  service : Nat
  principal : Principal
  request : EntityBatchRequest
  stage : Stage

namespace Submission

def binding (submission : Submission) : Binding :=
  ⟨submission.principal.key, submission.request.identity⟩

/-- The answer of a submission that ends with a result. -/
def answer (submission : Submission) : Except RejectionReason MutationOutcome → Stage
  | .ok outcome => .answered outcome
  | .error reason =>
    .answered (.rejected submission.request.identity reason)

/-- The answer to a submission whose identity is already bound. -/
def recognize (submission : Submission) (policy : PolicyVersion) (canonical : List UInt8)
    (record : Record) : Except RejectionReason MutationOutcome :=
  if policy.rules.authorizeReconcile submission.principal
      submission.request.identity (some record.request) = false then
    .error .forbidden
  else if record.canonical = canonical then .ok record.outcome
  else .error .conflict

end Submission

/-- A reserved publication that a provider holds. -/
structure PreparedMutation where
  service : Nat
  binding : Binding
  plan : PreparedBatch
  receipt : EntityReceipt
  generation : Nat

/-- Why a publication stops before it takes effect. -/
inductive Stop
  | deadline
  | cancelled

def Stop.reason : Stop → RejectionReason
  | .deadline => .deadline
  | .cancelled => .cancelled

/-- A graph with exact indexes and a well-formed log, as its owner builds it
before it becomes the graph of a store. -/
structure DetachedGraph (N C : Type) where
  graph : EntityGraph N C
  sound : (Session.mk graph []).Sound

/-- A detached graph is sound under any incarnation. -/
theorem DetachedGraph.renewed {N C : Type} (next : DetachedGraph N C) (incarnation : BitVec 128) :
    (Session.mk { next.graph with incarnation } []).Sound where
  indexed := ⟨⟨next.sound.indexed.tags, next.sound.indexed.values,
      next.sound.indexed.edges⟩, next.sound.indexed.rows⟩
  bounded := next.sound.bounded
  retained := next.sound.retained
  plans := nofun

/-- A store with its services, submissions and prepared mutations.  The
incarnations that its graph has had, and the number of policy generations, stand
for the draws and allocations made so far. -/
structure Store (N C : Type) where
  graph : Session N C
  incarnations : List (BitVec 128)
  dataset : BitVec 128
  receipts : Receipts
  services : List Service
  generations : Nat
  submissions : List Submission
  prepared : List PreparedMutation

/-- A step of a submission that reads the shared state alone. -/
inductive Action
  | interrupt (error : ReadError)
  | admission
  | lookup
  | prepare (allocation : Allocation) (retainedRemaining : Nat)
  | acknowledge (outcome : MutationOutcome) (found : Bool)

/-- One step of one party. -/
inductive Event (N C : Type)
  | openService (limits : MutationLimits)
      (qualification : ReceiptQualification) (rules : MutationPolicy)
  | replacePolicy (service : Nat) (rules : MutationPolicy)
  | submit (service : Nat) (principal : Principal) (request : EntityBatchRequest)
  | act (submission : Nat) (action : Action)
  | reserve (submission : Nat) (room : Bool)
  | publish (prepared : Nat) (now : Int) (reserved : Bool) (stop : Option Stop)
  | reject (prepared : Nat) (reason : RejectionReason)
  | drop (prepared : Nat)
  | native (command : Command N C)
  | replaceGraph (next : DetachedGraph N C) (incarnation : BitVec 128)

/-- No deadline, cancellation or budget fires. -/
def Action.isCalm : Action → Bool
  | .interrupt _ => false
  | .acknowledge _ found => found
  | _ => true

/-- No deadline, cancellation or budget fires, and no policy changes. -/
def Event.isCalm {N C : Type} : Event N C → Bool
  | .openService .. => false
  | .replacePolicy .. => false
  | .act _ action => action.isCalm
  | .publish _ _ _ stop => stop.isNone
  | _ => true

namespace Store

variable {N C : Type} (codec : Codec) (ontology : Ontology N C)
variable (parseFilter : String → Except String FilterNode)

/-- `EntityMutationStore::new` over a new shared graph, with the incarnation and
the dataset that are drawn for them. -/
def new (graph : DetachedGraph N C) (incarnation dataset : BitVec 128) : Store N C where
  graph := ⟨{ graph.graph with incarnation }, []⟩
  incarnations := [incarnation]
  dataset := dataset
  receipts := ⟨∅, 0⟩
  services := []
  generations := 0
  submissions := []
  prepared := []

/-! ## Services -/

def openService (s : Store N C) (limits : MutationLimits) (qualification : ReceiptQualification)
    (rules : MutationPolicy) : Store N C :=
  match limits.validate with
  | .ok _ =>
    { s with
      services := s.services ++ [⟨limits, qualification, ⟨rules, s.generations⟩⟩]
      generations := s.generations + 1 }
  | .error _ => s

/-- A submission of the service holds the policy lock. -/
def policyHeld (s : Store N C) (service : Nat) : Bool := s.submissions.any fun submission =>
    submission.service = service && submission.stage.holdsPolicy

/-- Replace the rules of a service, once no submission holds its policy. -/
def replacePolicy (s : Store N C) (service : Nat) (rules : MutationPolicy) : Store N C :=
  if s.policyHeld service then s
  else
    { s with
      services := s.services.modify service ({ · with policy := ⟨rules, s.generations⟩ })
      generations := s.generations + 1 }

/-! ## Submissions -/

/-- Encode the request, read the policy and authorize the intent. -/
def admission (s : Store N C) (service : Service) (submission : Submission) : Stage :=
  match submission.request.sourceBytes, codec.encodeRequest submission.request with
  | some _, some canonical =>
    if service.policy.rules.authorizeIntent submission.principal submission.request = false then
      submission.answer (.error .forbidden)
    else if submission.request.identity.dataset ≠ s.dataset then
      submission.answer (.error .conflict)
    else .admitted canonical service.policy
  | _, _ => submission.answer (.error .invalid)

/-- Look the binding up before anything about the graph is checked. -/
def lookup (s : Store N C) (submission : Submission) (canonical : List UInt8)
    (policy : PolicyVersion) : Stage :=
  match s.receipts.entries[submission.binding]? with
  | some record =>
    submission.answer (submission.recognize policy canonical record)
  | none => .unbound canonical policy

/-- The page that would hold the diffs of a plan. -/
def preflightPage (s : Store N C) (plan : PreparedBatch) : ChangesPage where
  dataset := s.dataset
  incarnation := plan.state.incarnation
  head := plan.afterRevision
  floor := plan.state.revision
  position := plan.afterRevision
  cursor := "".pushn 'x' 1024
  complete := true
  changes := plan.diffs.map rawDiff

/-- Check that the diffs of a plan fit one page of the feed. -/
def preflightFeed (s : Store N C) (limits : MutationLimits)
    (plan : PreparedBatch) : Except ReadError Unit :=
  if plan.diffs.isEmpty then .ok ()
  else
    match codec.encodePage (s.preflightPage plan) with
    | none => .error (.budget .output)
    | some encoded =>
      if encoded.length > limits.pageBytes then .error (.budget .output)
      else .ok ()

/-- Prepare the batch under a graph read. -/
def prepareBatch (s : Store N C) (limits : MutationLimits) (request : EntityBatchRequest)
    (allocation : Allocation)
    (retainedRemaining : Nat) : Except BatchError PreparedBatch :=
  if s.graph.graph.incarnation ≠ request.identity.incarnation then
    .error .conflict
  else
    s.graph.graph.prepareBatch allocation request.expectedRevision request.operations
      { limits.batch with
        maxRetainedBytes := min limits.batch.maxRetainedBytes (retainedRemaining / 4) }

/-- The receipt of a plan. -/
def receipt (service : Service) (request : EntityBatchRequest)
    (plan : PreparedBatch) : EntityReceipt where
  identity := request.identity
  beforeRevision := plan.state.revision
  afterRevision := plan.afterRevision
  span := plan.span
  qualification := service.qualification

/-- Prepare the batch, authorize its changes and build its receipt. -/
def prepare (s : Store N C) (service : Service) (submission : Submission)
    (policy : PolicyVersion) (allocation : Allocation)
    (retainedRemaining : Nat) :
    Except RejectionReason (PreparedBatch × EntityReceipt) := do
  let plan ← (s.prepareBatch service.limits submission.request allocation
    retainedRemaining).mapError batchReason
  if plan.changes.any fun change =>
      policy.rules.authorizeChange submission.principal change = false then
    .error .forbidden
  else do
    (s.preflightFeed codec service.limits plan).mapError readReason
    let receipt := receipt service submission.request plan
    if (codec.encodeOutcome (.committed receipt)).isNone then .error .limit
    else .ok (plan, receipt)

/-- The outcome of a provider counts only if it is the stored one. -/
def acknowledge (s : Store N C) (submission : Submission) (outcome : MutationOutcome)
    (found : Bool) : MutationOutcome :=
  let identity := submission.request.identity
  if outcome.identity ≠ identity then .unknown identity .invalidAcknowledgement
  else if !outcome.isUnknown && !(found &&
      (s.receipts.entries[submission.binding]?).any (·.outcome = outcome)) then
    .unknown identity .invalidAcknowledgement
  else outcome

/-- The stage after an action that fits the stage of the submission. -/
def next (s : Store N C) (service : Service) (submission : Submission) : Action → Stage
  | .interrupt error =>
    if submission.stage.isOpen then
      submission.answer (.error (readReason error))
    else submission.stage
  | .admission =>
    match submission.stage with
    | .received => s.admission codec service submission
    | stage => stage
  | .lookup =>
    match submission.stage with
    | .admitted canonical policy => s.lookup submission canonical policy
    | stage => stage
  | .prepare allocation retainedRemaining =>
    match submission.stage with
    | .unbound canonical policy =>
      match s.prepare codec service submission policy allocation retainedRemaining with
      | .error reason => submission.answer (.error reason)
      | .ok (plan, receipt) => .authorized canonical policy plan receipt
    | stage => stage
  | .acknowledge outcome found =>
    match submission.stage with
    | .committing => .answered (s.acknowledge submission outcome found)
    | stage => stage

/-- A submission after an action. -/
def advance (s : Store N C) (action : Action) (submission : Submission) : Submission :=
  match s.services[submission.service]? with
  | some service =>
    { submission with stage := s.next codec service submission action }
  | none => submission

/-- Let a submission of a service act. -/
def act (s : Store N C) (index : Nat) (action : Action) : Store N C :=
  { s with
    submissions := s.submissions.modify index (s.advance codec action) }

/-- The store with a submission at another stage. -/
def withStage (s : Store N C) (index : Nat) (stage : Stage) : Store N C :=
  { s with submissions := s.submissions.modify index ({ · with stage }) }

/-- The table has no room for another receipt. -/
def isFull (s : Store N C) (limits : MutationLimits) (bytes : Nat) : Bool :=
  s.receipts.entries.size ≥ limits.receiptCapacity ||
    bytes > limits.receiptBytes - s.receipts.bytes

/-- Bind the receipt of an authorized submission and hand its mutation over. -/
def bind (s : Store N C) (index : Nat) (submission : Submission) (canonical : List UInt8)
    (mutation : PreparedMutation) : Store N C :=
  { s.withStage index .committing with
    receipts :=
      { entries := s.receipts.entries.insert submission.binding
          { canonical
            request := submission.request
            outcome := .unknown submission.request.identity .pending }
        bytes := s.receipts.bytes + receiptCharge canonical submission.principal }
    prepared := s.prepared ++ [mutation] }

/-- Reserve the receipt of an authorized submission, unless another submission
has bound it in the meantime. -/
def reserve (s : Store N C) (index : Nat) (room : Bool) : Store N C :=
  match s.submissions[index]? with
  | none => s
  | some submission =>
    match submission.stage, s.services[submission.service]? with
    | .authorized canonical policy plan receipt, some service =>
      match s.receipts.entries[submission.binding]? with
      | some record =>
        s.withStage index (submission.answer (submission.recognize policy canonical record))
      | none =>
        if s.isFull service.limits (receiptCharge canonical submission.principal) || !room then
          s.withStage index (submission.answer (.error .capacity))
        else
          s.bind index submission canonical
            { service := submission.service
              binding := submission.binding
              plan
              receipt
              generation := policy.generation }
    | _, _ => s

/-! ## Publication -/

/-- Check and apply a prepared mutation under the policy, receipt and graph
locks. -/
def commit (s : Store N C) (mutation : PreparedMutation) (now : Int) (reserved : Bool)
    (stop : Option Stop) : Except RejectionReason (Option CommitSpan × EntityGraph N C) :=
  match stop with
  | some stop => .error stop.reason
  | none =>
    if (s.services[mutation.service]?).map (·.policy.generation) ≠
        some mutation.generation then .error .conflict
    else
      (s.graph.graph.applyPrepared now reserved mutation.plan).mapError batchReason

/-- The store after the provider has used up a mutation with this outcome. -/
def settle (s : Store N C) (index : Nat) (mutation : PreparedMutation)
    (outcome : MutationOutcome) : Store N C :=
  { s with
    receipts := s.receipts.settle mutation.binding outcome
    prepared := s.prepared.eraseIdx index }

def reject (s : Store N C) (index : Nat) (reason : RejectionReason) : Store N C :=
  match s.prepared[index]? with
  | none => s
  | some mutation =>
    s.settle index mutation (.rejected mutation.receipt.identity reason)

def publish (s : Store N C) (index : Nat) (now : Int) (reserved : Bool)
    (stop : Option Stop) : Store N C :=
  match s.prepared[index]? with
  | none => s
  | some mutation =>
    match s.commit mutation now reserved stop with
    | .error reason =>
      s.settle index mutation (.rejected mutation.receipt.identity reason)
    | .ok (_, graph) =>
      { s.settle index mutation (.committed mutation.receipt) with
        graph := { s.graph with graph } }

/-! ## Other owners of the graph -/

/-- Replace the graph.  A graph that becomes authoritative gets an incarnation
that no graph of the store has had. -/
def replaceGraph (s : Store N C) (next : DetachedGraph N C)
    (incarnation : BitVec 128) : Store N C :=
  if incarnation ∈ s.incarnations then s
  else
    { s with
      graph := ⟨{ next.graph with incarnation }, []⟩
      incarnations := incarnation :: s.incarnations }

/-! ## Runs -/

def step (s : Store N C) : Event N C → Store N C
  | .openService limits qualification rules =>
    s.openService limits qualification rules
  | .replacePolicy service rules => s.replacePolicy service rules
  | .submit service principal request =>
    { s with submissions := s.submissions ++ [⟨service, principal, request, .received⟩] }
  | .act submission action => s.act codec submission action
  | .reserve submission room => s.reserve submission room
  | .publish prepared now reserved stop =>
    s.publish prepared now reserved stop
  | .reject prepared reason => s.reject prepared reason
  | .drop prepared => { s with prepared := s.prepared.eraseIdx prepared }
  | .native command =>
    { s with graph := s.graph.step ontology parseFilter command }
  | .replaceGraph next incarnation => s.replaceGraph next incarnation

def run (s : Store N C) (events : List (Event N C)) : Store N C :=
  events.foldl (step codec ontology parseFilter) s

/-- Answer a request for the outcome of an operation. -/
def reconcile (s : Store N C) (service : Service) (principal : Principal)
    (identity : OperationIdentity) : Except ReadError MutationOutcome :=
  let record := s.receipts.entries[(⟨principal.key, identity⟩ : Binding)]?
  if service.policy.rules.authorizeReconcile principal identity
      (record.map (·.request)) = false then .error .forbidden
  else
    .ok (match record with
      | none => .unknown identity .missing
      | some record => record.outcome)

/-- The batch that an event applies to the graph, with its receipt. -/
def applied (s : Store N C) : Event N C → Option (Binding × EntityReceipt)
  | .publish index now reserved stop =>
    match s.prepared[index]? with
    | none => none
    | some mutation =>
      match s.commit mutation now reserved stop with
      | .error _ => none
      | .ok _ => some (mutation.binding, mutation.receipt)
  | _ => none

end Store
end App
end Haystack
