import Haystack.App.Subscription
import Haystack.Graph.Run

/-!
# The subscription system

The registry of the subscriptions, and the operations that run on it at the same
time.  An operation takes one step at a time: between two steps, other operations,
the writers of the graph, maintenance and shutdown take theirs.  A step is a
section that the source runs under a lock, or a computation of the operation on
its own.

Entries live on a heap, because an operation can hold an entry that is no longer
registered.  The identities of watches are random; an identity that is not fresh
is not drawn.  The two flags of a step that `try_lock` or a sealed owner can set
are its arguments.
-/

namespace Haystack
namespace App
namespace Subscription

open Std (ExtTreeMap TransOrd LawfulEqOrd TransCmp)
open Collections Haystack.Graph
open Haystack.Filter (FilterNode Ontology)

/-! ## The registry -/

/-- A session object, which the pointers of operations and entries name. -/
structure SubscriptionSession where
  id : BitVec 128
  principal : Principal
  expires : Option Nat
  isScoped : Bool

structure Entry where
  identity : SubscriptionId
  session : Nat
  canonical : List UInt8
  baseReservation : Nat
  reservation : Nat
  legacy : Bool
  typedWatch : Bool
  connection : Option (BitVec 128)
  active : Bool
  record : Record

/-- The session and the key that a binding is made under. -/
structure BindingKey where
  session : BitVec 128
  key : String
  deriving DecidableEq

namespace BindingKey

instance : Ord BindingKey where
  compare := compareLex (compareOn session) (compareOn key)

instance : TransOrd BindingKey :=
  inferInstanceAs (TransCmp (compareLex (compareOn session) (compareOn key)))

instance : LawfulEqOrd BindingKey where
  eq_of_compare {left right} same := by
    obtain ⟨sessions, keys⟩ := compareLex_eq_eq.mp same
    obtain ⟨session, key⟩ := left
    obtain rfl : session = _ := Std.LawfulEqOrd.eq_of_compare sessions
    obtain rfl : key = _ := Std.LawfulEqOrd.eq_of_compare keys
    rfl

end BindingKey

structure Registry where
  entries : ExtTreeMap (BitVec 128) Nat
  bindings : ExtTreeMap BindingKey (BitVec 128)
  reservedBytes : Nat

def Registry.empty : Registry := ⟨∅, ∅, 0⟩

/-! ## Operations -/

inductive Request
  | native (request : SubscriptionRequest) (legacy : Bool) (connection : Option (BitVec 128))
  | typed (request : WatchRequest) (policyScope : String)

inductive Answer
  | native (result : Except ReadError SubscriptionOutcome)
  | typed (result : Except ApiError WatchGrid)

/-- An entry that an operation holds.  The guard of an unpublished creation removes
the entry when it is dropped. -/
structure Hold where
  entry : Nat
  guard : Bool

inductive Stage
  | received
  | admitted
  | holding (hold : Hold)
  | checked (hold : Hold)
  | seen (hold : Hold) (record : Record)
  | closing (hold : Hold) (record : Record)
  | capturing (hold : Hold) (record : Record) (ids : List String)
  | captured (hold : Hold) (record : Record) (ids : List String) (capture : Capture)
  | prepared (hold : Hold) (record : Record) (observed : GraphState)
      (next : Record) (answer : Answer)
  | ending (hold : Hold) (revision : Nat) (reason : SubscriptionResync) (answer : Answer)
  | leaving (entry : Nat) (answer : Answer)
  | answered (answer : Answer)

structure Operation where
  principal : Principal
  session : Nat
  request : Request
  stage : Stage

/-- The answer of an operation that has failed. -/
def Request.failure (error : ReadError) : Request → Answer
  | .native .. => .native (.error error)
  | .typed .. => .typed (.error (.ofRead error))

/-- An operation returns.  A guard is dropped before. -/
def Hold.finish (hold : Hold) (answer : Answer) : Stage :=
  if hold.guard then .leaving hold.entry answer else .answered answer

inductive Action
  | admission (closed : Bool)
  | enter (watch : BitVec 128)
  | check (closed : Bool)
  | look
  | start
  | capture
  | prepare (token : BitVec 128)
  | publish (closed contended : Bool)
  | finish
  | release
  | fail (error : ReadError)

inductive Event (N C : Type)
  | submit (principal : Principal) (session : Nat) (request : Request)
  | act (operation : Nat) (action : Action)
  | maintain (busy : List Nat)
  | detach (connection : BitVec 128)
  | closeSession (session : Nat)
  | stop
  | clear
  | tick (elapsed : Nat)
  | write (command : Command N C)

structure State (N C : Type) where
  store : Session N C
  heap : List Entry
  table : Registry
  operations : List Operation
  closedSessions : List Nat
  stopped : Bool
  now : Nat

/-- A service over a graph, with an empty registry. -/
def State.initial (store : Session N C) (now : Nat) : State N C where
  store
  heap := []
  table := .empty
  operations := []
  closedSessions := []
  stopped := false
  now

/-- The budget errors that end a live record. -/
def executionOverflow : ReadError → Bool
  | .budget .work | .budget .retained | .budget .values | .budget .depth
  | .budget .rows | .budget .output | .budget .candidates | .budget .forward
  | .budget .inverse => true
  | _ => false

namespace State

section

variable {N C : Type} (service : Service) (sessions : Nat → SubscriptionSession)
variable (policies : Principal → PolicySnapshot) (s : State N C)

def setStage (index : Nat) (stage : Stage) : State N C :=
  { s with operations := s.operations.modify index ({ · with stage }) }

def setEntry (ptr : Nat) (entry : Entry) : State N C := { s with heap := s.heap.set ptr entry }

/-- Why a session is over. -/
def reason (session : Nat) : Option SubscriptionResync :=
  if s.closedSessions.contains session then some .revoked
  else if (sessions session).expires.any (· ≤ s.now) then some .sessionExpired
  else none

def bindingKey (entry : Entry) : BindingKey := ⟨(sessions entry.session).id, entry.identity.key⟩

/-- Take an entry out of the registry. -/
def unregister (watch : BitVec 128) (entry : Entry) : State N C :=
  { s with
    table := {
      entries := s.table.entries.erase watch
      bindings := s.table.bindings.erase (bindingKey sessions entry)
      reservedBytes := s.table.reservedBytes - entry.reservation } }

/-- The guard of an unpublished creation is dropped. -/
def remove (ptr : Nat) : State N C :=
  match s.heap[ptr]? with
  | none => s
  | some entry =>
    if s.table.entries[entry.identity.watch]? = some ptr then
      s.unregister sessions entry.identity.watch entry
    else s

/-- The registered entries. -/
def registered : List Entry := s.table.entries.toList.filterMap fun (_, ptr) => s.heap[ptr]?

/-! ## Admission -/

def admitNative (operation : Operation) (request : SubscriptionRequest)
    (legacy closed : Bool) : Stage :=
  let answer outcome := Stage.answered (.native (.ok outcome))
  let session := sessions operation.session
  if session.principal ≠ operation.principal ∨ (legacy = false ∧ session.isScoped = false) then
    answer (.rejected .forbidden)
  else if s.stopped || closed then answer (.resync .shutdown)
  else
    match s.reason sessions operation.session with
    | some reason => answer (.resync reason)
    | none =>
      match request with
      | .describe =>
        if (policies operation.principal).operation .subscriptions then
          answer (.authority service.authority service.dataset)
        else answer (.rejected .forbidden)
      | .create create =>
        if create.authority ≠ service.authority then
          answer (.resync .authority)
        else if create.ids.length > service.limits.maxIds ∨
            create.leaseMs * millisecond > service.limits.maxLease then
          answer (.rejected .limit)
        else if (service.codec.encodeRequest request).isNone then
          .answered (.native (.error (.invalidQuery "invalid subscription creation")))
        else .admitted
      | request =>
        if request.watch.any (·.authority ≠ service.authority) then
          answer (.resync .authority)
        else .admitted

def admitTyped (operation : Operation) (request : WatchRequest) : Stage :=
  let session := sessions operation.session
  if session.isScoped = false ∨ session.principal ≠ operation.principal ∨
      (s.reason sessions operation.session).isSome then
    .answered (.typed (.error .permission))
  else if request.ids.length > service.limits.maxIds then
    .answered (.typed (.error .invalidArgs))
  else if request.watch.any fun watch => (idBytes watch).isNone then
    .answered (.typed (.error .invalidArgs))
  else .admitted

/-- The check that a cleanup without a record makes. -/
def checkWatchAuthority (operation : Operation) (policyScope : String) : Except ApiError Unit :=
  let session := sessions operation.session
  let policy := policies operation.principal
  if s.stopped then .error .unavailable
  else if session.isScoped = false ∨ session.principal ≠ operation.principal ∨
      (s.reason sessions operation.session).isSome then
    .error .permission
  else if policy.scopeKey ≠ policyScope ∨ policy.operation .subscriptions = false ∨
      policy.operation .read = false then
    .error .permission
  else .ok ()

/-- The answer of a cleanup that finds nothing to clean up. -/
def cleanedUp (operation : Operation) (policyScope : String) : Answer :=
  .typed ((s.checkWatchAuthority sessions policies operation policyScope).map fun _ => .new)

/-! ## The registry section -/

/-- There is no room for another entry of a session. -/
def isFull (session reserve : Nat) : Bool :=
  let entries := s.registered
  let own := entries.filter (·.session = session)
  entries.countP (·.active) ≥ service.limits.maxWatches ||
    own.countP (·.active) ≥ service.limits.maxWatchesPerSession ||
    s.table.entries.size ≥ service.limits.maxBindings ||
    own.length ≥ service.limits.maxBindingsPerSession ||
    reserve > service.limits.maxRetainedBytes - s.table.reservedBytes

/-- Register a new entry, which its creator holds with a guard. -/
def register (index : Nat) (entry : Entry) : State N C :=
  let ptr := s.heap.length
  { s with
    heap := s.heap ++ [entry]
    table := {
      entries := s.table.entries.insert entry.identity.watch ptr
      bindings := s.table.bindings.insert (bindingKey sessions entry) entry.identity.watch
      reservedBytes := s.table.reservedBytes + entry.reservation } }.setStage
    index (.holding ⟨ptr, true⟩)

/-- A drawn identity is not in use. -/
def isFresh (watch : BitVec 128) : Bool := s.heap.all (·.identity.watch ≠ watch)

def enterCreate (index : Nat) (operation : Operation) (create : SubscriptionCreate)
    (canonical : List UInt8) (legacy : Bool) (connection : Option (BitVec 128))
    (watch : BitVec 128) : State N C :=
  let answer outcome := s.setStage index (.answered (.native (.ok outcome)))
  let key : BindingKey := ⟨(sessions operation.session).id, create.key⟩
  match s.table.bindings[key]? with
  | some bound =>
    match s.table.entries[bound]? with
    -- `expect("binding has entry")`
    | none => s
    | some ptr =>
      match s.heap[ptr]? with
      | none => s
      | some entry =>
        if entry.session ≠ operation.session ∨
            entry.canonical ≠ canonical ∨ entry.legacy ≠ legacy then
          answer (.rejected .conflict)
        else s.setStage index (.holding ⟨ptr, false⟩)
  | none =>
    let base := saturatingAdd (saturatingAdd (saturatingAdd (saturatingAdd
      (saturatingMul service.limits.maxViewBytes 12)
      (saturatingMul service.limits.maxDeliveryBytes 2))
      (saturatingMul canonical.length 4)) operation.principal.bytes) 4096
    let reserve := saturatingAdd base (membershipBytes create.ids)
    if s.isFull service operation.session reserve then
      answer (.rejected .capacity)
    else if !s.isFresh watch then s
    else
      s.register sessions index {
        identity := ⟨service.authority, watch, create.key⟩
        session := operation.session
        canonical
        baseReservation := base
        reservation := reserve
        legacy
        typedWatch := false
        connection
        active := true
        record := ⟨0, .preparing⟩ }

def enterNative (index : Nat) (operation : Operation) (request : SubscriptionRequest)
    (legacy : Bool) (connection : Option (BitVec 128))
    (watch : BitVec 128) : State N C :=
  let answer outcome := s.setStage index (.answered (.native (.ok outcome)))
  match request with
  | .create create =>
    match service.codec.encodeRequest request with
    | none => s
    | some canonical =>
      s.enterCreate service sessions index operation create canonical legacy connection watch
  | request =>
    match request.watch with
    | none => s
    | some identity =>
      match s.table.entries[identity.watch]? with
      | none => answer (.resync .unknown)
      | some ptr =>
        match s.heap[ptr]? with
        | none => s
        | some entry =>
          if entry.identity ≠ identity ∨ entry.session ≠ operation.session ∨
              entry.legacy ≠ legacy ∨ entry.typedWatch then
            answer (.rejected .forbidden)
          else s.setStage index (.holding ⟨ptr, false⟩)

def watchReserve (index : Nat) (operation : Operation) (request : WatchRequest)
    (watch : BitVec 128) : State N C :=
  let base := saturatingAdd (saturatingAdd (saturatingAdd
    (saturatingMul service.limits.maxViewBytes 12)
    (saturatingMul service.limits.maxDeliveryBytes 2))
    operation.principal.bytes) 8192
  let reserve := saturatingAdd base (memberBytes request.ids)
  let key : BindingKey := ⟨(sessions operation.session).id, idText watch⟩
  if s.isFull service operation.session reserve then
    s.setStage index (.answered (.typed (.error .unavailable)))
  else if !s.isFresh watch || s.table.bindings.contains key then s
  else
    s.register sessions index {
      identity := ⟨service.authority, watch, idText watch⟩
      session := operation.session
      canonical := []
      baseReservation := base
      reservation := reserve
      legacy := false
      typedWatch := true
      connection := none
      active := true
      record := ⟨0, .preparing⟩ }

def enterTyped (index : Nat) (operation : Operation) (request : WatchRequest)
    (policyScope : String)
    (watch : BitVec 128) : State N C :=
  let answer result := s.setStage index (.answered (.typed (.error result)))
  match request.watch with
  | none => s.watchReserve service sessions index operation request watch
  | some text =>
    match idBytes text with
    | none => answer .invalidArgs
    | some id =>
      match s.table.entries[id]? with
      | some ptr =>
        match s.heap[ptr]? with
        | none => s
        | some entry =>
          if !entry.typedWatch ∨ entry.session ≠ operation.session then
            answer .permission
          else s.setStage index (.holding ⟨ptr, false⟩)
      | none =>
        if request.cleanup then
          s.setStage index (.answered (s.cleanedUp sessions policies operation policyScope))
        else answer .unavailable

/-! ## One round of the loop -/

/-- The checks at the start of a round. -/
def checkRound (operation : Operation) (hold : Hold) (closed : Bool) : Stage :=
  let reason := s.reason sessions operation.session
  match operation.request with
  | .native .. =>
    if s.stopped || closed then
      hold.finish (.native (.ok (.resync .shutdown)))
    else
      match reason with
      | some reason => hold.finish (.native (.ok (.resync reason)))
      | none => .checked hold
  | .typed .. =>
    if s.stopped || closed then hold.finish (.typed (.error .unavailable))
    else if reason.isSome then hold.finish (.typed (.error .permission))
    else .checked hold

/-- The ids that a native operation on a live record captures. -/
def startLive (hold : Hold) (record : Record) (live : Live) : SubscriptionRequest → Stage
  | .replace _ expectedScopeGeneration ids =>
    if expectedScopeGeneration ≠ live.scope then
      hold.finish (.native (.ok (.rejected .conflict)))
    else if ids.length > service.limits.maxIds then
      hold.finish (.native (.ok (.rejected .limit)))
    else .capturing hold record (normalize ids)
  | _ => .capturing hold record live.ids

def startNative (hold : Hold) (record : Record) (identity : SubscriptionId)
    (request : SubscriptionRequest) : Stage :=
  let answer outcome := hold.finish (.native (.ok outcome))
  match record.status with
  | .closed => answer (.closed identity)
  | .resync reason => answer (.resync reason)
  | .preparing =>
    if !hold.guard then answer (.rejected .pending)
    else
      match request with
      | .create create => .capturing hold record (normalize create.ids)
      -- `expect("existing record")`
      | _ => hold.finish (.native (.error .unavailable))
  | .watch _ => hold.finish (.native (.error .forbidden))
  | .live live =>
    if live.leaseUntil ≤ s.now then
      .ending hold record.revision .leaseExpired (.native (.ok (.resync .leaseExpired)))
    else startLive service hold record live request

def startTyped (operation : Operation) (hold : Hold) (record : Record) (request : WatchRequest)
    (policyScope : String) : Stage :=
  let proceed (members : List String) : Stage :=
    let all := request.captures members
    if all.length > service.limits.maxIds then
      hold.finish (.typed (.error .invalidArgs))
    else .capturing hold record all
  let refused : Stage :=
    if request.cleanup then
      hold.finish (s.cleanedUp sessions policies operation policyScope)
    else hold.finish (.typed (.error .unavailable))
  match record.status with
  | .watch live =>
    if live.leaseUntil ≤ s.now then
      .ending hold record.revision .leaseExpired
        (.typed (if request.cleanup then .ok .new else .error .unavailable))
    else
      match request with
      | .unsub _ _ true => .closing hold record
      | _ => proceed live.members.keys
  | .preparing => if hold.guard then proceed [] else refused
  | _ => refused

def previousWatch (record : Record) : Option WatchLive :=
  match record.status with
  | .watch live => some live
  | _ => none

def previousLive (record : Record) : Option Live :=
  match record.status with
  | .live live => some live
  | .watch live => some live.previous
  | _ => none

/-- A native operation has failed in the middle of a round. -/
def failNative (hold : Hold) (record : Record) (preparing : Bool) (error : ReadError) : Stage :=
  if (previousLive record).isSome && executionOverflow error then
    .ending hold record.revision .overflow (.native (.ok (.resync .overflow)))
  else if preparing && (previousLive record).isNone && error = .budget .output then
    hold.finish (.native (.ok (.rejected .limit)))
  else hold.finish (.native (.error error))

/-- The capture of a typed watch has failed. -/
def failCapture (hold : Hold) (record : Record) (error : ReadError) : Stage :=
  if (previousWatch record).isSome && executionOverflow error then
    .ending hold record.revision .overflow (.typed (.error (.ofRead error)))
  else hold.finish (.typed (.error (.ofRead error)))

def captureNative (policy : PolicySnapshot) (hold : Hold) (record : Record)
    (ids : List String) : Stage :=
  match capture service.limits service.codec policy s.store.graph ids
      (previousLive record) none with
  | .ok capture => .captured hold record ids capture
  | .error (.read error) => failNative hold record false error
  | .error (.resync reason) =>
    if (previousLive record).isNone then
      hold.finish (.native (.ok (.rejected (if reason = .policy then .forbidden else .limit))))
    else
      .ending hold record.revision reason (.native (.ok (.resync reason)))

def captureTyped (policy : PolicySnapshot) (hold : Hold) (record : Record) (ids : List String)
    (policyScope : String) : Stage :=
  let context : CaptureContext := ⟨previousWatch record, ids, policyScope⟩
  match capture service.limits service.codec policy s.store.graph ids
      (previousLive record) (some context) with
  | .ok capture => .captured hold record ids capture
  | .error (.read error) => failCapture hold record error
  | .error (.resync reason) =>
    let answer : Answer := .typed (.error
      (if reason = .policy then .permission else .unavailable))
    if (previousWatch record).isSome then
      .ending hold record.revision reason answer
    else hold.finish answer

/-- The policy has not changed since the capture. -/
def keepsPolicy (policy : PolicySnapshot) (capture : Capture) : Bool :=
  policy.scopeKey = capture.policy && policy.operation .subscriptions && policy.operation .read

def prepareNative (policy : PolicySnapshot) (identity : SubscriptionId)
    (request : SubscriptionRequest) (hold : Hold) (record : Record)
    (ids : List String) (capture : Capture)
    (token : BitVec 128) : Stage :=
  match service.prepare identity request record ids capture s.now token with
  | .error error => failNative hold record true error
  | .ok (next, outcome) =>
    if keepsPolicy policy capture then
      .prepared hold record capture.graph next (.native (.ok outcome))
    else
      .ending hold record.revision .policy (.native (.ok (.resync .policy)))

def prepareTyped (policy : PolicySnapshot) (watch : BitVec 128) (operation : Operation)
    (request : WatchRequest) (hold : Hold) (record : Record)
    (capture : Capture) : Stage :=
  let details := capture.watch.getD .empty
  if details.deleted then
    .ending hold record.revision .scopeChanged (.typed (.error .unavailable))
  else
    match service.prepareWatch watch request record (previousWatch record)
        capture details (sessions operation.session).expires s.now with
    | .error error => hold.finish (.typed (.error error))
    | .ok (next, grid) =>
      if keepsPolicy policy capture then
        .prepared hold record capture.graph next (.typed (.ok grid))
      else
        .ending hold record.revision .policy (.typed (.error .permission))

/-- Closing a watch observes the current graph. -/
def prepareClose (hold : Hold) (record : Record) : Stage :=
  match checkedAdd u64Max record.revision 1 with
  | none => hold.finish (.typed (.error .unavailable))
  | some revision =>
    .prepared hold record s.store.graph.state ⟨revision, .closed⟩ (.typed (.ok .new))

/-! ## The end of a record -/

/-- A record ends, unless it has changed. -/
def terminal (index : Nat) (operation : Operation) (hold : Hold) (revision : Nat)
    (reason : SubscriptionResync)
    (answer : Answer) : State N C :=
  match s.heap[hold.entry]? with
  | none => s
  | some entry =>
    if entry.record.revision ≠ revision then
      s.setStage index (.holding hold)
    else
      match checkedAdd u64Max revision 1 with
      | none =>
        s.setStage index (hold.finish (operation.request.failure .unavailable))
      | some revision =>
        (s.setEntry hold.entry { entry with
          active := false
          record := ⟨revision, .resync reason⟩ }).setStage index
          (hold.finish answer)

/-- A cleanup that ended an expired watch checks its authority again. -/
def settleAnswer (operation : Operation) (answer : Answer) : Answer :=
  match operation.request, answer with
  | .typed _ policyScope, .typed (.ok _) =>
    s.cleanedUp sessions policies operation policyScope
  | _, answer => answer

/-! ## Publication -/

inductive Publication
  | done (entry : Entry) (growth : Nat)
  | retry
  | capacity
  | stopped (reason : SubscriptionResync)

/-- The bytes that the next record needs. -/
def required (entry : Entry) : Status → Nat
  | .live live => saturatingAdd entry.baseReservation (membershipBytes live.ids)
  | .watch live =>
    saturatingAdd entry.baseReservation live.membershipBytes
  | _ => entry.reservation

/-- The lease of a watch starts when it is published. -/
def renewAtPublication (session : Nat) (next : Record) : Record :=
  match next.status with
  | .watch live =>
    let until' := s.now + live.lease
    { next with status := .watch { live with
        leaseUntil := ((sessions session).expires.map (min until' ·)).getD until' } }
  | _ => next

/-- The section in which a record is replaced. -/
def publication (operation : Operation) (hold : Hold) (record : Record)
    (observed : GraphState) (next : Record)
    (closed contended : Bool) : Publication :=
  match s.heap[hold.entry]? with
  | none => .retry
  | some entry =>
    if contended || s.store.graph.state ≠ observed then .retry
    else if s.table.entries[entry.identity.watch]? ≠ some hold.entry then
      .stopped .unknown
    else if entry.record.revision ≠ record.revision then .retry
    else if s.stopped || closed then .stopped .shutdown
    else
      match s.reason sessions operation.session with
      | some reason => .stopped reason
      | none =>
        if entry.record.status.leaseUntil.any (· ≤ s.now) then .retry
        else
          let growth := required entry next.status - entry.reservation
          if growth > service.limits.maxRetainedBytes - s.table.reservedBytes then
            .capacity
          else
            .done { entry with
              reservation := entry.reservation + growth
              active := next.status.isLive
              record := s.renewAtPublication sessions operation.session next } growth

/-- The answer to a stopped publication. -/
def stoppedAnswer (operation : Operation) (hold : Hold) (answer : Answer)
    (reason : SubscriptionResync) : Answer :=
  match operation.request with
  | .native .. => .native (.ok (.resync reason))
  | .typed request policyScope =>
    if reason = .unknown && request.cleanup then
      let missing := match s.heap[hold.entry]? with
        | some entry => !s.table.entries.contains entry.identity.watch
        | none => true
      if missing then
        match s.checkWatchAuthority sessions policies operation policyScope with
        | .ok () => answer
        | .error error => .typed (.error error)
      else .typed (.error .unavailable)
    else .typed (.error .unavailable)

def publish (index : Nat) (operation : Operation) (hold : Hold) (record : Record)
    (observed : GraphState) (next : Record) (answer : Answer)
    (closed contended : Bool) : State N C :=
  match s.publication service sessions operation hold record observed next closed contended with
  | .retry => s.setStage index (.holding hold)
  | .stopped reason =>
    s.setStage index (hold.finish
      (s.stoppedAnswer sessions policies operation hold answer reason))
  | .capacity =>
    s.setStage index (hold.finish (match operation.request with
      | .native .. => .native (.ok (.rejected .capacity))
      | .typed .. => .typed (.error .unavailable)))
  | .done entry growth =>
    ({ s with
      heap := s.heap.set hold.entry entry
      table := { s.table with
        reservedBytes := s.table.reservedBytes + growth } }).setStage
      index (.answered answer)

/-! ## Maintenance and shutdown -/

/-- Whether maintenance ends the record of an entry whose lock it has. -/
def maintained (entry : Entry) : Entry :=
  if entry.record.status.leaseUntil.any (· ≤ s.now) then
    { entry with
      active := false
      record := ⟨min (entry.record.revision + 1) u64Max, .resync .leaseExpired⟩ }
  else entry

/-- Maintenance visits one entry. -/
def maintainEntry (busy : List Nat) (s : State N C) (item : BitVec 128 × Nat) : State N C :=
  match s.heap[item.2]? with
  | none => s
  | some entry =>
    if (s.reason sessions entry.session).isSome then
      s.unregister sessions item.1 entry
    else if busy.contains item.2 then s
    else
      let after := s.maintained entry
      let s := s.setEntry item.2 after
      if (after.legacy || after.typedWatch) && !after.active then
        s.unregister sessions item.1 after
      else s

def maintain (busy : List Nat) : State N C :=
  s.table.entries.toList.foldl (maintainEntry sessions busy) s

/-- A connection goes away with the entries that it created. -/
def detachEntry (connection : BitVec 128) (s : State N C) (item : BitVec 128 × Nat) : State N C :=
  match s.heap[item.2]? with
  | none => s
  | some entry =>
    if entry.legacy && entry.connection = some connection then
      (s.setEntry item.2 { entry with active := false }).unregister sessions item.1 entry
    else s

def detach (connection : BitVec 128) : State N C :=
  s.table.entries.toList.foldl (detachEntry sessions connection) s

/-! ## Steps -/

/-- An operation fails wherever its budget is checked. -/
def failStage (operation : Operation) (error : ReadError) : Stage :=
  let failure := operation.request.failure error
  match operation.stage, operation.request with
  | .received, _ | .admitted, _ => .answered failure
  | .holding hold, _ | .checked hold, _ | .closing hold _, _ =>
    hold.finish failure
  | .seen hold record, .native .. => failNative hold record false error
  | .capturing hold record _, .native .. => failNative hold record false error
  | .captured hold record _ _, .native .. => failNative hold record true error
  | .capturing hold record _, .typed .. => failCapture hold record error
  | .seen hold _, .typed .. => hold.finish failure
  | .captured hold _ _ _, .typed .. => hold.finish failure
  | .prepared hold .., _ | .ending hold .., _ => hold.finish failure
  | stage, _ => stage

/-- One step of an operation. -/
def perform (index : Nat) (operation : Operation) (action : Action) : State N C :=
  let policy := policies operation.principal
  match operation.stage, action, operation.request with
  | .received, .admission closed, .native request legacy _ =>
    s.setStage index (s.admitNative service sessions policies operation request legacy closed)
  | .received, .admission _, .typed request _ =>
    s.setStage index (s.admitTyped service sessions operation request)
  | .admitted, .enter watch, .native request legacy connection =>
    s.enterNative service sessions index operation request legacy connection watch
  | .admitted, .enter watch, .typed request policyScope =>
    s.enterTyped service sessions policies index operation request policyScope watch
  | .holding hold, .check closed, _ =>
    s.setStage index (s.checkRound sessions operation hold closed)
  | .checked hold, .look, _ =>
    match s.heap[hold.entry]? with
    | none => s
    | some entry => s.setStage index (.seen hold entry.record)
  | .seen hold record, .start, .native request .. =>
    match s.heap[hold.entry]? with
    | none => s
    | some entry =>
      s.setStage index (s.startNative service hold record entry.identity request)
  | .seen hold record, .start, .typed request policyScope =>
    s.setStage index (s.startTyped service sessions policies operation hold
      record request policyScope)
  | .capturing hold record ids, .capture, .native .. =>
    s.setStage index (s.captureNative service policy hold record ids)
  | .capturing hold record ids, .capture, .typed _ policyScope =>
    s.setStage index (s.captureTyped service policy hold record ids policyScope)
  | .captured hold record ids capture, .prepare token, .native request .. =>
    match s.heap[hold.entry]? with
    | none => s
    | some entry =>
      s.setStage index (s.prepareNative service policy entry.identity request
        hold record ids capture token)
  | .captured hold record _ capture, .prepare _, .typed request _ =>
    match s.heap[hold.entry]? with
    | none => s
    | some entry =>
      s.setStage index (s.prepareTyped service sessions policy
        entry.identity.watch operation request hold record capture)
  | .closing hold record, .prepare _, _ =>
    s.setStage index (s.prepareClose hold record)
  | .prepared hold record observed next answer, .publish closed contended, _ =>
    s.publish service sessions policies index operation hold record observed
      next answer closed contended
  | .ending hold revision reason answer, .finish, _ =>
    s.terminal index operation hold revision reason
      (s.settleAnswer sessions policies operation answer)
  | .leaving ptr answer, .release, _ =>
    (s.remove sessions ptr).setStage index (.answered answer)
  | _, .fail error, _ => s.setStage index (failStage operation error)
  | _, _, _ => s

variable (ontology : Ontology N C) (parseFilter : String → Except String FilterNode)

/-- One step of the system, under the policies that are then in force. -/
def step : Event N C → State N C
  | .submit principal session request =>
    { s with
      operations := s.operations ++ [⟨principal, session, request, .received⟩] }
  | .act index action =>
    match s.operations[index]? with
    | none => s
    | some operation =>
      s.perform service sessions policies index operation action
  | .maintain busy => s.maintain sessions busy
  | .detach connection => s.detach sessions connection
  | .closeSession session =>
    { s with closedSessions := session :: s.closedSessions }
  | .stop => { s with stopped := true }
  | .clear => if s.stopped then { s with table := .empty } else s
  | .tick elapsed => { s with now := s.now + elapsed }
  | .write command =>
    { s with store := s.store.step ontology parseFilter command }

end

/-- A run, each of whose steps has its own policies. -/
def run (service : Service) (sessions : Nat → SubscriptionSession)
    (ontology : Ontology N C) (parseFilter : String → Except String FilterNode)
    (s : State N C)
    (events : List ((Principal → PolicySnapshot) × Event N C)) : State N C :=
  events.foldl (fun s (policies, event) =>
      s.step service sessions policies ontology parseFilter event) s

end State
end Subscription
end App
end Haystack
