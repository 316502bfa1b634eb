import Haystack.App.History
import Haystack.App.Mutation

/-!
# History mutations in memory

Submissions of samples to one history authority.  A submission runs through
steps that are delimited by the locks it takes: it reads the policy, looks its
receipt up, reads the schema of its point under a graph read, opens the point,
plans the new series under a read of the point, reserves its receipt, and hands
the prepared mutation to a provider.  If its preparation fails, it looks its
receipt up once more before it answers.  Its answer is decided in the last of
these steps and returned some time later.

Deadlines, cancellation and budgets stop a submission at any of its checks; an
event says that they did.
-/

namespace Haystack
namespace App
namespace History

open Collections Haystack.Graph
open Haystack.Filter (FilterNode Ontology)

/-! ## Policies and limits -/

/-- The authorization rules of a service. -/
structure Policy where
  authorizeIntent : Principal → HistoryWriteRequest → Bool
  authorizeSchema : Principal → HistoryWriteRequest → HistorySchema → Bool
  authorizeReconcile : Principal → HistoryOperationIdentity → Option HistoryWriteRequest → Bool

def allowAllHistoryMutations : Policy where
  authorizeIntent _ _ := true
  authorizeSchema _ _ _ := true
  authorizeReconcile _ _ _ := true

/-- Rules in force, with the identity of their generation. -/
structure PolicyVersion where
  rules : Policy
  generation : Nat

structure Limits where
  maxSamples : Nat
  maxSourceBytes : Nat
  maxSeriesSamples : Nat
  maxPreparedBytes : Nat

namespace Limits

def default : Limits where
  maxSamples := 128
  maxSourceBytes := 65536
  maxSeriesSamples := 100000
  maxPreparedBytes := 8 * 1024 * 1024

def validate (limits : Limits) : Except ReadError Unit :=
  if limits.maxSamples = 0 ∨ limits.maxSamples > App.maxSamples ∨ limits.maxSourceBytes = 0 ∨
      limits.maxSourceBytes > App.maxSourceBytes ∨
      limits.maxSeriesSamples = 0 ∨ limits.maxSeriesSamples > 1000000 ∨
      limits.maxPreparedBytes = 0 ∨
      limits.maxPreparedBytes > 64 * 1024 * 1024 then
    .error .invalidLimits
  else .ok ()

example : default.validate = .ok () := by decide

end Limits

def readReason : ReadError → HistoryWriteRejection
  | .forbidden => .forbidden
  | .capacity => .capacity
  | .cancelled => .cancelled
  | .deadline => .deadline
  | .unavailable => .provider
  | .projection => .unsupported
  | .invalidQuery _ => .invalid
  | _ => .limit

def providerReason : HistoryProviderError → HistoryWriteRejection
  | .changed => .conflict
  | .stopped => .cancelled
  | .unsupported => .unsupported
  | .limit => .limit
  | .exhausted => .limit
  | .failed => .provider

/-- The bytes that a receipt is charged. -/
def receiptCharge (source : Nat) (canonical : List UInt8) (principal : Principal) : Nat :=
  saturatingAdd (saturatingAdd (saturatingAdd source
    (saturatingMul canonical.length 8)) (saturatingMul principal.bytes 2)) 4096

/-! ## Plans -/

/-- A planned write: the graph state that its schema was read at, the next
series of its point, and the receipt and the change of its publication. -/
structure PreparedSeries where
  point : String
  graph : GraphState
  next : Series
  receipt : HistoryWriteReceipt
  change : HistoryChangeRecord

/-- The bytes that a sample of a plain value takes. -/
def sampleBytes : Kind → Option Nat
  | .bool _ => some 512
  | .na => some 512
  | .number number =>
    some (saturatingAdd 512 (number.unit.elim 0 String.utf8ByteSize))
  | .str value => some (saturatingAdd 512 value.utf8ByteSize)
  | _ => none

section Planning

variable (codec : HistoryCodec) (tables : Tables)

/-- The schema admits the sample. -/
def checkSample (schema : HistorySchema) (sample : HistorySample) :
    Except HistoryWriteRejection Unit :=
  if !tables.validValue sample.val schema ||
      !h4DatetimeRepresentable sample.ts.dt then .error .unsupported
  else if sample.ts.tzName ≠ schema.timezone ||
      tables.offsetAt sample.ts.tzName sample.ts.dt ≠ some sample.ts.dt.offset
  then .error .invalid
  else .ok ()

/-- Meter an item of the series that a write extends. -/
def scanItem (limits : Limits) (source : Nat) (schema : HistorySchema) (bytes : Nat)
    (item : HisItem) : Except HistoryWriteRejection Nat :=
  match sampleBytes item.val with
  | none => .error .unsupported
  | some size =>
    if saturatingAdd (saturatingAdd bytes size) source >
        limits.maxPreparedBytes then .error .limit
    else if !tables.validValue item.val schema then .error .unsupported
    else .ok (saturatingAdd bytes size)

/-- The samples of a request, sorted, with the last one of each instant. -/
def uniqueItems (request : HistoryWriteRequest) : List HisItem := lastOfEach HisItem.instant
    ((request.samples.map fun sample => ⟨sample.ts.dt, sample.val⟩).insertionSort
      fun left right => left.instant ≤ right.instant)

/-- The series before it is trimmed. -/
def mergedSeries (request : HistoryWriteRequest) (series : Series) (generation : Nat) : Series :=
  { series with
    generation
    items := mergeSeries HisItem.instant series.items (uniqueItems request) }

/-- The receipt of a planned write. -/
def planReceipt (store : HisStore) (qualification : ReceiptQualification)
    (request : HistoryWriteRequest)
    (series merged : Series) : HistoryWriteReceipt where
  identity := request.identity
  beforeGeneration := series.generation
  afterGeneration := merged.generation
  changeSequence := 0
  submittedSamples := request.samples.length
  uniqueSamples := (uniqueItems request).length
  retainedSamples := (merged.trim store.limits.maxItemsPerPoint).items.length
  evictedSamples := merged.excess store.limits.maxItemsPerPoint
  qualification := qualification

/-- The change of a planned write. -/
def planChange (store : HisStore) (request : HistoryWriteRequest)
    (series merged : Series) : HistoryChangeRecord where
  sequence := 0
  point := request.identity.point
  before := store.seriesState series
  after := store.seriesState (merged.trim store.limits.maxItemsPerPoint)
  submittedSamples := request.samples.length
  uniqueSamples := (uniqueItems request).length
  retainedSamples := (merged.trim store.limits.maxItemsPerPoint).items.length
  evictedSamples := merged.excess store.limits.maxItemsPerPoint
  evictedThrough := (merged.trim store.limits.maxItemsPerPoint).evicted
  operation := some request.identity

def buildPlan (store : HisStore) (qualification : ReceiptQualification)
    (request : HistoryWriteRequest) (graph : GraphState)
    (series merged : Series) : PreparedSeries where
  point := request.identity.point
  graph := graph
  next := merged.trim store.limits.maxItemsPerPoint
  receipt := planReceipt store qualification request series merged
  change := planChange store request series merged

/-- Plan the write under a read of its point.  A request without samples needs no
plan. -/
def planSeries (store : HisStore) (limits : Limits) (qualification : ReceiptQualification)
    (request : HistoryWriteRequest) (source : Nat) (schema : HistorySchema)
    (graph : GraphState) (series : Series)
    (room : Bool) : Except HistoryWriteRejection (Option PreparedSeries) :=
  if series.incarnation ≠ request.identity.incarnation ∨
      series.generation ≠ request.expectedGeneration then .error .conflict
  else if request.samples.isEmpty then .ok none
  else
    match checkedAdd u64Max series.generation 1 with
    | none => .error .limit
    | some generation =>
      if series.items.length > limits.maxSeriesSamples then .error .limit
      else if source > limits.maxPreparedBytes then .error .limit
      else do
        let _ ← series.items.foldlM (scanItem tables limits source schema) 0
        if series.items.length + (uniqueItems request).length > usizeMax then
          .error .limit
        else if !room then .error .capacity
        else
          let merged := mergedSeries request series generation
          let plan := buildPlan store qualification request graph series merged
          if (codec.encodeOutcome (.committed
              { plan.receipt with changeSequence := u64Max })).isNone then
            .error .limit
          else .ok (some plan)

end Planning

/-! ## The parties -/

/-- A history mutation service: its limits, the qualification of its provider,
and its policy in force. -/
structure Service where
  limits : Limits
  qualification : ReceiptQualification
  policy : PolicyVersion

/-- What a submission has before it is prepared: its measured source, its
canonical bytes, and the policy that it holds. -/
structure Intent where
  source : Nat
  canonical : List UInt8
  policy : PolicyVersion

/-- How far a submission has come.  It holds its policy from `admitted` on,
until it is handed to the provider or has decided its answer. -/
inductive Stage
  | received
  | admitted (intent : Intent)
  | unbound (intent : Intent)
  | inspected (intent : Intent) (schema : HistorySchema) (graph : GraphState)
  | opened (intent : Intent) (schema : HistorySchema) (graph : GraphState)
  | refused (intent : Intent) (reason : HistoryWriteRejection)
  | planned (intent : Intent) (plan : Option PreparedSeries)
  | committing
  | decided (outcome : HistoryWriteOutcome)
  | answered (outcome : HistoryWriteOutcome)

namespace Stage

/-- The intent of a submission that holds its policy. -/
def intent : Stage → Option Intent
  | .admitted intent => some intent
  | .unbound intent => some intent
  | .inspected intent _ _ => some intent
  | .opened intent _ _ => some intent
  | .refused intent _ => some intent
  | .planned intent _ => some intent
  | _ => none

/-- The outcome that the submission has decided on. -/
def outcome : Stage → Option HistoryWriteOutcome
  | .decided outcome => some outcome
  | .answered outcome => some outcome
  | _ => none

end Stage

/-- A submission; its caller may have been admitted under a pinned catalog. -/
structure Submission where
  service : Nat
  principal : Principal
  request : HistoryWriteRequest
  typedCatalog : Option Nat
  stage : Stage

namespace Submission

def binding (submission : Submission) : HistoryBinding :=
  ⟨submission.principal.key, submission.request.identity⟩

/-- The decision of a submission that ends with a result. -/
def decide (submission : Submission) : Except HistoryWriteRejection HistoryWriteOutcome → Stage
  | .ok outcome => .decided outcome
  | .error reason => .decided (.rejected submission.request.identity reason)

/-- The answer to a submission whose identity is already bound. -/
def recognized (submission : Submission) (intent : Intent) (record : HistoryRecord) :
    Except HistoryWriteRejection HistoryWriteOutcome :=
  if intent.policy.rules.authorizeReconcile submission.principal
      record.request.identity (some record.request) = false then
    .error .forbidden
  else if record.canonical = intent.canonical then .ok record.outcome
  else .error .conflict

end Submission

/-- A reserved publication that a provider holds. -/
structure PreparedMutation where
  service : Nat
  binding : HistoryBinding
  plan : PreparedSeries
  generation : Nat

/-- Why a publication stops before it takes effect. -/
inductive Stop
  | deadline
  | cancelled
  | forbidden

def Stop.reason : Stop → HistoryWriteRejection
  | .deadline => .deadline
  | .cancelled => .cancelled
  | .forbidden => .forbidden

/-- A history authority beside the graph of its points, with its services,
submissions and prepared mutations.  The incarnations that its graph has had, and
the number of policy generations, stand for the draws and allocations made so
far. -/
structure Authority (N C : Type) where
  graph : Session N C
  incarnations : List (BitVec 128)
  store : HisStore
  services : List Service
  generations : Nat
  submissions : List Submission
  prepared : List PreparedMutation

/-- A step of a submission that reads the shared state alone. -/
inductive Action
  | interrupt (error : ReadError)
  | admission
  | lookup (capable : Bool)
  | inspect
  | plan (room : Bool)
  | relook
  | acknowledge (outcome : HistoryWriteOutcome) (found : Bool)
  | finish

/-- One step of one party. -/
inductive Event (N C : Type)
  | openService (limits : Limits) (qualification : ReceiptQualification) (rules : Policy)
  | replacePolicy (service : Nat) (rules : Policy)
  | submit (service : Nat) (principal : Principal)
      (request : HistoryWriteRequest) (typedCatalog : Option Nat)
  | act (submission : Nat) (action : Action)
  | openPoint (submission : Nat) (draw : Draw)
  | reserve (submission : Nat) (room : Bool)
  | publish (prepared : Nat) (stop : Option Stop)
  | reject (prepared : Nat) (reason : HistoryWriteRejection)
  | drop (prepared : Nat)
  | history (command : HisStore.HisCommand)
  | native (command : Command N C)
  | replaceGraph (next : DetachedGraph N C) (incarnation : BitVec 128)

/-- No deadline, cancellation or budget fires, and the provider keeps its
capability. -/
def Action.isCalm : Action → Bool
  | .interrupt _ => false
  | .lookup capable => capable
  | .acknowledge _ found => found
  | _ => true

/-- No deadline, cancellation or budget fires, and no policy changes. -/
def Event.isCalm {N C : Type} : Event N C → Bool
  | .openService .. => false
  | .replacePolicy .. => false
  | .act _ action => action.isCalm
  | .publish _ stop => stop.isNone
  | _ => true

namespace Authority

variable {N C : Type} (codec : HistoryCodec) (tables : Tables) (ontology : Ontology N C)
variable (parseFilter : String → Except String FilterNode)

/-- A new authority over a new shared graph, under drawn identities. -/
def new (graph : DetachedGraph N C) (incarnation authority : BitVec 128)
    (limits : HistoryStoreLimits) : Authority N C where
  graph := ⟨{ graph.graph with incarnation }, []⟩
  incarnations := [incarnation]
  store := .new limits authority
  services := []
  generations := 0
  submissions := []
  prepared := []

/-! ## Services -/

def openService (s : Authority N C) (limits : Limits) (qualification : ReceiptQualification)
    (rules : Policy) : Authority N C :=
  match limits.validate with
  | .ok _ =>
    { s with
      services := s.services ++ [⟨limits, qualification, ⟨rules, s.generations⟩⟩]
      generations := s.generations + 1 }
  | .error _ => s

/-- A submission of the service holds the policy lock. -/
def policyHeld (s : Authority N C) (service : Nat) : Bool := s.submissions.any fun submission =>
    submission.service = service && submission.stage.intent.isSome

/-- Replace the rules of a service, once no submission holds its policy. -/
def replacePolicy (s : Authority N C) (service : Nat) (rules : Policy) : Authority N C :=
  if s.policyHeld service then s
  else
    { s with
      services := s.services.modify service ({ · with policy := ⟨rules, s.generations⟩ })
      generations := s.generations + 1 }

/-! ## Submissions -/

/-- Measure and encode the request, and read the policy. -/
def admission (service : Service) (submission : Submission) : Stage :=
  match submission.request.sourceBytes with
  | none => submission.decide (.error .limit)
  | some source =>
    if submission.request.samples.length > service.limits.maxSamples ||
        source > service.limits.maxSourceBytes then
      submission.decide (.error .limit)
    else
      match codec.canonicalRequest submission.request with
      | none => submission.decide (.error .invalid)
      | some canonical => .admitted ⟨source, canonical, service.policy⟩

/-- Look the binding up before anything about the graph or the point is
checked. -/
def lookup (s : Authority N C) (submission : Submission) (intent : Intent)
    (capable : Bool) : Stage :=
  let rules := intent.policy.rules
  let identity := submission.request.identity
  match s.store.receipts[submission.binding]? with
  | some record => submission.decide (submission.recognized intent record)
  | none =>
    if identity.authority ≠ s.store.authority then
      if rules.authorizeReconcile submission.principal identity none = false
      then submission.decide (.error .forbidden)
      else .decided (.unknown identity .missing)
    else if !capable then submission.decide (.error .unsupported)
    else if rules.authorizeIntent submission.principal submission.request = false then
      submission.decide (.error .forbidden)
    else .unbound intent

/-- The graph has the catalog that the submission was admitted under. -/
def catalogHeld (s : Authority N C) (submission : Submission) : Bool :=
  match submission.typedCatalog with
  | none => true
  | some expected => s.graph.graph.activated.map (·.ptr) = some expected

/-- Read the schema of the point, and check the samples against it. -/
def inspect (s : Authority N C) (submission : Submission) (policy : PolicyVersion) :
    Except HistoryWriteRejection (HistorySchema × GraphState) :=
  if !s.catalogHeld submission then .error .provider
  else
    match s.graph.graph.get submission.request.identity.point with
    | none => .error .invalid
    | some row => do
      let schema ← (tables.schema row).mapError readReason
      if policy.rules.authorizeSchema submission.principal
          submission.request schema = false then .error .forbidden
      else do
        submission.request.samples.forM (checkSample tables schema)
        .ok (schema, s.graph.graph.state)

/-- Plan the write of a submission whose point is open. -/
def plan (s : Authority N C) (service : Service) (submission : Submission)
    (intent : Intent) (schema : HistorySchema) (graph : GraphState)
    (room : Bool) : Stage :=
  match s.store.points[submission.request.identity.point]? with
  | none => .refused intent .provider
  | some series =>
    match planSeries codec tables s.store service.limits
      service.qualification submission.request intent.source schema graph
      series room with
    | .error reason => .refused intent reason
    | .ok plan => .planned intent plan

/-- Look the binding up again after a failed preparation. -/
def relook (s : Authority N C) (submission : Submission) (intent : Intent)
    (reason : HistoryWriteRejection) : Stage :=
  match s.store.receipts[submission.binding]? with
  | some record => submission.decide (submission.recognized intent record)
  | none => submission.decide (.error reason)

/-- The outcome of a provider counts only if it is the stored one. -/
def acknowledge (s : Authority N C) (submission : Submission) (outcome : HistoryWriteOutcome)
    (found : Bool) : HistoryWriteOutcome :=
  let identity := submission.request.identity
  if outcome.identity ≠ identity then .unknown identity .invalidAcknowledgement
  else if !outcome.isUnknown && !(found &&
      (s.store.receipts[submission.binding]?).any (·.outcome = outcome)) then
    .unknown identity .invalidAcknowledgement
  else outcome

/-- The stage after an interruption: a failed preparation looks its receipt up
before it answers. -/
def interrupted (submission : Submission) (error : ReadError) : Stage :=
  match submission.stage with
  | .received => submission.decide (.error (readReason error))
  | .admitted _ => submission.decide (.error (readReason error))
  | .unbound intent => .refused intent (readReason error)
  | .inspected intent _ _ => .refused intent (readReason error)
  | .opened intent _ _ => .refused intent (readReason error)
  | .refused _ _ => submission.decide (.error (readReason error))
  | .planned _ _ => submission.decide (.error (readReason error))
  | stage => stage

/-- The stage after an action that fits the stage of the submission. -/
def next (s : Authority N C) (service : Service) (submission : Submission) : Action → Stage
  | .interrupt error => interrupted submission error
  | .admission =>
    match submission.stage with
    | .received => admission codec service submission
    | stage => stage
  | .lookup capable =>
    match submission.stage with
    | .admitted intent => s.lookup submission intent capable
    | stage => stage
  | .inspect =>
    match submission.stage with
    | .unbound intent =>
      match s.inspect tables submission intent.policy with
      | .error reason => .refused intent reason
      | .ok (schema, graph) => .inspected intent schema graph
    | stage => stage
  | .plan room =>
    match submission.stage with
    | .opened intent schema graph =>
      s.plan codec tables service submission intent schema graph room
    | stage => stage
  | .relook =>
    match submission.stage with
    | .refused intent reason => s.relook submission intent reason
    | stage => stage
  | .acknowledge outcome found =>
    match submission.stage with
    | .committing => .decided (s.acknowledge submission outcome found)
    | stage => stage
  | .finish =>
    match submission.stage with
    | .decided outcome => .answered outcome
    | stage => stage

/-- A submission after an action. -/
def advance (s : Authority N C) (action : Action) (submission : Submission) : Submission :=
  match s.services[submission.service]? with
  | some service =>
    { submission with
      stage := s.next codec tables service submission action }
  | none => submission

def act (s : Authority N C) (index : Nat) (action : Action) : Authority N C :=
  { s with
    submissions := s.submissions.modify index (s.advance codec tables action) }

/-- The authority with a submission at another stage. -/
def withStage (s : Authority N C) (index : Nat) (stage : Stage) : Authority N C :=
  { s with submissions := s.submissions.modify index ({ · with stage }) }

/-- Open the point of an inspected submission, which may create it. -/
def openPoint (s : Authority N C) (index : Nat) (draw : Draw) : Authority N C :=
  match s.submissions[index]? with
  | none => s
  | some submission =>
    match submission.stage with
    | .inspected intent schema graph =>
      match s.store.pointIn submission.request.identity.point draw with
      | .error error =>
        s.withStage index (.refused intent (providerReason error))
      | .ok (store, _) =>
        { s.withStage index (.opened intent schema graph) with store }
    | _ => s

/-- The table has no room for another receipt. -/
def isFull (s : Authority N C) (bytes : Nat) : Bool :=
  s.store.receipts.size ≥ s.store.limits.receiptCapacity ||
    bytes > s.store.limits.receiptBytes - s.store.receiptBytes

/-- The outcome that a new receipt starts with: there is nothing to publish for
a request without samples. -/
def initialOutcome (submission : Submission) (plan : Option PreparedSeries) :
    HistoryWriteOutcome :=
  match plan with
  | none => .rejected submission.request.identity .emptyBatch
  | some _ => .unknown submission.request.identity .pending

/-- The store with the receipt of a submission. -/
def bindReceipt (store : HisStore) (submission : Submission) (intent : Intent)
    (outcome : HistoryWriteOutcome) : HisStore :=
  { store with
    receipts := store.receipts.insert submission.binding
      { canonical := intent.canonical
        request := submission.request
        outcome }
    receiptBytes := store.receiptBytes +
      receiptCharge intent.source intent.canonical submission.principal }

/-- Bind the receipt of a planned submission.  A plan is handed to the provider;
without one the submission is done. -/
def bind
    (s : Authority N C) (index : Nat) (submission : Submission)
    (intent : Intent)
    (plan : Option PreparedSeries) : Authority N C :=
  let outcome := initialOutcome submission plan
  let store := bindReceipt s.store submission intent outcome
  match plan with
  | none => { s.withStage index (.decided outcome) with store }
  | some plan =>
    { s.withStage index .committing with
      store
      prepared := s.prepared ++
        [{ service := submission.service
           binding := submission.binding
           plan
           generation := intent.policy.generation }] }

/-- Reserve the receipt of a planned submission, unless another submission has
bound it in the meantime. -/
def reserve (s : Authority N C) (index : Nat) (room : Bool) : Authority N C :=
  match s.submissions[index]? with
  | none => s
  | some submission =>
    match submission.stage with
    | .planned intent plan =>
      match s.store.receipts[submission.binding]? with
      | some record =>
        s.withStage index (submission.decide (submission.recognized intent record))
      | none =>
        if s.isFull (receiptCharge intent.source intent.canonical
            submission.principal) || !room then
          s.withStage index (submission.decide (.error .capacity))
        else s.bind index submission intent plan
    | _ => s

/-! ## Publication -/

/-- Check a prepared mutation under the policy, graph, authority and point locks;
the result is the sequence of its change. -/
def commit (s : Authority N C) (mutation : PreparedMutation)
    (stop : Option Stop) : Except HistoryWriteRejection Nat :=
  match stop with
  | some stop => .error stop.reason
  | none =>
    if (s.services[mutation.service]?).map (·.policy.generation) ≠
        some mutation.generation then .error .conflict
    else if s.graph.graph.state ≠ mutation.plan.graph then .error .conflict
    else
      match s.store.points[mutation.plan.point]? with
      | none => .error .conflict
      | some series =>
        if series.incarnation ≠ mutation.plan.change.before.incarnation ∨
            series.generation ≠ mutation.plan.change.before.generation then
          .error .conflict
        else
          match checkedAdd u64Max s.store.sequence 1 with
          | none => .error .limit
          | some sequence =>
            if (s.store.receipts[mutation.binding]?).any (·.outcome.isPending) then .ok sequence
            else .error .conflict

/-- The store with the outcome of a bound request. -/
def settleReceipt (store : HisStore) (binding : HistoryBinding)
    (outcome : HistoryWriteOutcome) : HisStore :=
  { store with
    receipts := store.receipts.modify binding ({ · with outcome }) }

/-- The authority after the provider has used up a mutation with this
outcome. -/
def settle (s : Authority N C) (index : Nat) (mutation : PreparedMutation)
    (outcome : HistoryWriteOutcome) : Authority N C :=
  { s with
    store := settleReceipt s.store mutation.binding outcome
    prepared := s.prepared.eraseIdx index }

/-- The receipt of a publication under its sequence. -/
def publishedReceipt (mutation : PreparedMutation) (sequence : Nat) : HistoryWriteReceipt :=
  { mutation.plan.receipt with changeSequence := sequence }

/-- The store after a publication. -/
def publishStore (store : HisStore) (mutation : PreparedMutation) (sequence : Nat) : HisStore :=
  settleReceipt (store.replace mutation.plan.point mutation.plan.next
      { mutation.plan.change with sequence })
    mutation.binding (.committed (publishedReceipt mutation sequence))

def reject (s : Authority N C) (index : Nat) (reason : HistoryWriteRejection) : Authority N C :=
  match s.prepared[index]? with
  | none => s
  | some mutation =>
    s.settle index mutation (.rejected mutation.binding.identity reason)

def publish (s : Authority N C) (index : Nat) (stop : Option Stop) : Authority N C :=
  match s.prepared[index]? with
  | none => s
  | some mutation =>
    match s.commit mutation stop with
    | .error reason =>
      s.settle index mutation (.rejected mutation.binding.identity reason)
    | .ok sequence =>
      { s with
        store := publishStore s.store mutation sequence
        prepared := s.prepared.eraseIdx index }

/-! ## Runs -/

/-- Replace the graph.  A graph that becomes authoritative gets an incarnation
that no graph before it has had. -/
def replaceGraph (s : Authority N C) (next : DetachedGraph N C)
    (incarnation : BitVec 128) : Authority N C :=
  if incarnation ∈ s.incarnations then s
  else
    { s with
      graph := ⟨{ next.graph with incarnation }, []⟩
      incarnations := incarnation :: s.incarnations }

def step (s : Authority N C) : Event N C → Authority N C
  | .openService limits qualification rules =>
    s.openService limits qualification rules
  | .replacePolicy service rules => s.replacePolicy service rules
  | .submit service principal request typedCatalog =>
    { s with submissions := s.submissions ++
        [⟨service, principal, request, typedCatalog, .received⟩] }
  | .act submission action => s.act codec tables submission action
  | .openPoint submission draw => s.openPoint submission draw
  | .reserve submission room => s.reserve submission room
  | .publish prepared stop => s.publish prepared stop
  | .reject prepared reason => s.reject prepared reason
  | .drop prepared => { s with prepared := s.prepared.eraseIdx prepared }
  | .history command => { s with store := s.store.step command }
  | .native command =>
    { s with graph := s.graph.step ontology parseFilter command }
  | .replaceGraph next incarnation => s.replaceGraph next incarnation

def run (s : Authority N C) (events : List (Event N C)) : Authority N C :=
  events.foldl (step codec tables ontology parseFilter) s

/-- Answer a request for the outcome of an operation. -/
def reconcile (s : Authority N C) (service : Service) (principal : Principal)
    (identity : HistoryOperationIdentity) : Except ReadError HistoryWriteOutcome :=
  let record := s.store.receipts[(⟨principal.key, identity⟩ : HistoryBinding)]?
  if identity.isValid = false then
    .error (.invalidQuery "invalid history operation identity")
  else if service.policy.rules.authorizeReconcile principal identity
      (record.map (·.request)) = false then .error .forbidden
  else
    match record with
    | none => .ok (.unknown identity .missing)
    | some record => .ok record.outcome

/-- The write that an event publishes, with its receipt. -/
def applied (s : Authority N C) : Event N C → Option (HistoryBinding × HistoryWriteReceipt)
  | .publish index stop =>
    match s.prepared[index]? with
    | none => none
    | some mutation =>
      match s.commit mutation stop with
      | .error _ => none
      | .ok sequence =>
        some (mutation.binding, publishedReceipt mutation sequence)
  | _ => none

end Authority
end History
end App
end Haystack
