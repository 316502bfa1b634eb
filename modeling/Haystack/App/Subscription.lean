import Haystack.App.Sanitize
import Haystack.Collections.Bytes

/-!
# State subscriptions

A subscription keeps the authorized projection of some entities that its client
has acknowledged, and at most one delivery that leads from there to a later
revision.  A typed watch keeps its members and the revision of its last poll.
Every operation captures an authorized view of the graph, and prepares the next
state of its record from it.

Instants and durations are nanoseconds.  Budgets are left out: an operation can
fail with a read error wherever the source charges or checks its budget.
-/

namespace Haystack
namespace App
namespace Subscription

open Std (ExtTreeMap)
open Collections Haystack.Graph

/-! ## Requests and outcomes -/

structure SubscriptionId where
  authority : BitVec 128
  watch : BitVec 128
  key : String
  deriving DecidableEq

structure SubscriptionCreate where
  authority : BitVec 128
  key : String
  ids : List String
  leaseMs : Nat
  deriving DecidableEq

inductive SubscriptionRequest
  | describe
  | create (create : SubscriptionCreate)
  | poll (watch : SubscriptionId)
  | resume (watch : SubscriptionId) (scopeGeneration acknowledged : Nat)
  | acknowledge (watch : SubscriptionId) (scopeGeneration : Nat)
      (token : BitVec 128) (through : Nat)
  | renew (watch : SubscriptionId) (leaseMs : Nat)
  | replace (watch : SubscriptionId) (expectedScopeGeneration : Nat) (ids : List String)
  | unsubscribe (watch : SubscriptionId)
  deriving DecidableEq

def SubscriptionRequest.watch : SubscriptionRequest → Option SubscriptionId
  | .describe | .create _ => none
  | .poll watch | .resume watch .. | .acknowledge watch .. | .renew watch _
  | .replace watch .. | .unsubscribe watch => some watch

inductive SubscriptionRejection
  | invalid
  | forbidden
  | conflict
  | capacity
  | limit
  | pending
  deriving DecidableEq

inductive SubscriptionResync
  | authority
  | sessionExpired
  | revoked
  | leaseExpired
  | gap
  | incarnation
  | catalog
  | policy
  | scopeChanged
  | shutdown
  | overflow
  | unknown
  deriving DecidableEq

structure SubscriptionDelivery where
  watch : SubscriptionId
  dataset : BitVec 128
  incarnation : BitVec 128
  catalogGeneration : Nat
  scopeGeneration : Nat
  token : BitVec 128
  fromRevision : Nat
  through : Nat
  initial : Bool
  rows : List HDict
  removed : List String

inductive SubscriptionOutcome
  | authority (authority dataset : BitVec 128)
  | delivery (delivery : SubscriptionDelivery)
  | idle (watch : SubscriptionId) (scopeGeneration acknowledged : Nat)
  | acknowledged (watch : SubscriptionId) (scopeGeneration : Nat)
      (token : BitVec 128) (through : Nat)
  | renewed (watch : SubscriptionId) (leaseMs : Nat)
  | closed (watch : SubscriptionId)
  | rejected (reason : SubscriptionRejection)
  | resync (reason : SubscriptionResync)
  | unknown

def SubscriptionOutcome.watch : SubscriptionOutcome → Option SubscriptionId
  | .delivery sent => some sent.watch
  | .idle watch .. | .acknowledged watch .. | .renewed watch _ | .closed watch =>
    some watch
  | _ => none

inductive WatchRequest
  | sub (watch : Option String) (ids : List String) (lease : Option Nat)
  | unsub (watch : String) (ids : List String) (close : Bool)
  | poll (watch : String) (refresh current : Bool)

namespace WatchRequest

def watch : WatchRequest → Option String
  | .sub watch .. => watch
  | .unsub watch .. | .poll watch .. => some watch

def cleanup : WatchRequest → Bool
  | .unsub .. => true
  | _ => false

def ids : WatchRequest → List String
  | .sub _ ids _ | .unsub _ ids _ => ids
  | .poll .. => []

end WatchRequest

/-- The errors that a typed watch answers. -/
inductive ApiError
  | invalidArgs
  | notAcceptable
  | permission
  | timeout
  | unavailable
  | internal
  deriving DecidableEq

def ApiError.ofRead : ReadError → ApiError
  | .forbidden => .permission
  | .deadline => .timeout
  | .projection => .notAcceptable
  | .invalidQuery _ | .budget _ | .unitTooLarge | .staleCursor => .invalidArgs
  | .invalidLimits => .internal
  | _ => .unavailable

/-- The grid that a typed watch answers.  The lease is in nanoseconds. -/
structure WatchGrid where
  watch : Option String
  cols : List String
  rows : List HDict
  lease : Option Nat

def WatchGrid.new : WatchGrid := ⟨none, [], [], none⟩

/-! ## Limits -/

structure SubscriptionLimits where
  maxWatches : Nat
  maxWatchesPerSession : Nat
  maxBindings : Nat
  maxBindingsPerSession : Nat
  maxIds : Nat
  maxViewBytes : Nat
  maxDeliveryBytes : Nat
  maxRetainedBytes : Nat
  maxChangeDiffs : Nat
  maxLease : Nat

/-- The typed encodings, which may refuse a value. -/
structure SubscriptionCodec where
  encodeRow : HDict → Option (List UInt8)
  encodeRequest : SubscriptionRequest → Option (List UInt8)
  encodeDelivery : SubscriptionDelivery → Option (List UInt8)

def millisecond : Nat := 1000000

/-- The bytes that the ids of a subscription are charged. -/
def membershipBytes (ids : List String) : Nat := ids.foldl (fun total id =>
    saturatingAdd (saturatingAdd total 24) id.utf8ByteSize) 64

/-- The bytes that the members of a typed watch are charged. -/
def memberBytes (ids : List String) : Nat := ids.foldl (fun total id =>
    saturatingAdd (saturatingAdd total id.utf8ByteSize) 256) 64

/-- The ids in order and without duplicates. -/
def normalize (ids : List String) : List String := (ids.insertionSort (· ≤ ·)).dedup

/-- The ids that an operation captures for the members of its watch. -/
def WatchRequest.captures (members : List String) : WatchRequest → List String
  | .sub _ ids _ => normalize (members ++ ids)
  | _ => members

/-- The lower-case hexadecimal text of an identity. -/
def idText (id : BitVec 128) : String := String.ofList ((beBytes 16 id.toNat).flatMap fun byte =>
    [Nat.digitChar (byte.toNat / 16), Nat.digitChar (byte.toNat % 16)])

/-- The value of a lower-case hexadecimal digit. -/
def hexDigit (c : Char) : Option Nat :=
  if 48 ≤ c.toNat ∧ c.toNat ≤ 57 then some (c.toNat - 48)
  else if 97 ≤ c.toNat ∧ c.toNat ≤ 102 then some (c.toNat - 87)
  else none

def idBytes (text : String) : Option (BitVec 128) :=
  if text.utf8ByteSize ≠ 32 then none
  else
    (text.toList.foldlM (fun value c => (hexDigit c).map (value * 16 + ·)) 0).map
      (BitVec.ofNat 128)

/-! ## Records -/

structure ProjectedRow where
  row : HDict
  canonical : List UInt8

abbrev Projection := ExtTreeMap String ProjectedRow

structure Ack where
  scope : Nat
  token : BitVec 128
  through : Nat
  deriving DecidableEq

structure Prepared where
  delivery : SubscriptionDelivery
  projection : Projection

/-- A native subscription. -/
structure Live where
  ids : List String
  graph : GraphState
  policy : String
  scope : Nat
  acknowledged : Nat
  projection : Projection
  prepared : Option Prepared
  lastAck : Option Ack
  leaseUntil : Nat

structure Member where
  active : Bool
  enrolled : Nat

/-- A typed watch. -/
structure WatchLive where
  members : ExtTreeMap String Member
  observed : GraphState
  policy : String
  projection : Projection
  pollRevision : Nat
  firstPoll : Bool
  lease : Nat
  leaseUntil : Nat

namespace WatchLive

def membershipBytes (live : WatchLive) : Nat := memberBytes live.members.keys

/-- The subscription whose capture a watch shares. -/
def previous (live : WatchLive) : Live where
  ids := live.members.keys
  graph := live.observed
  policy := live.policy
  scope := 1
  acknowledged := live.pollRevision
  projection := live.projection
  prepared := none
  lastAck := none
  leaseUntil := live.leaseUntil

end WatchLive

inductive Status
  | preparing
  | live (live : Live)
  | watch (live : WatchLive)
  | closed
  | resync (reason : SubscriptionResync)

namespace Status

def leaseUntil : Status → Option Nat
  | .live state => some state.leaseUntil
  | .watch state => some state.leaseUntil
  | _ => none

/-- The record is that of a subscription or watch in use. -/
def isLive : Status → Bool
  | .live _ | .watch _ => true
  | _ => false

/-- The record has come to its end. -/
def isOver : Status → Bool
  | .closed | .resync _ => true
  | _ => false

end Status

structure Record where
  revision : Nat
  status : Status

/-! ## Capture -/

structure CaptureContext where
  previous : Option WatchLive
  ids : List String
  policyScope : String

structure Captured where
  authorized : List String
  changed : List String
  deleted : Bool

def Captured.empty : Captured := ⟨[], [], false⟩

structure Capture where
  graph : GraphState
  policy : String
  projection : Projection
  watch : Option Captured

inductive CaptureError
  | read (error : ReadError)
  | resync (reason : SubscriptionResync)
  deriving DecidableEq

namespace CaptureContext

def existing (context : CaptureContext) (id : String) : Bool :=
  context.previous.any (·.members.contains id)

/-- A removal counts after the enrolment of an active member, and an update since
the last poll. -/
def observe (context : CaptureContext) (captured : Captured) (diff : GraphDiff) : Captured :=
  let member := context.previous.bind (·.members[diff.refVal]?)
  let removed := diff.op = .remove &&
    member.any fun member => member.active && diff.version > member.enrolled
  { captured with
    deleted := captured.deleted || removed
    changed :=
      if context.ids.contains diff.refVal then diff.refVal :: captured.changed
      else captured.changed }

end CaptureContext

section Capturing

variable (limits : SubscriptionLimits) (codec : SubscriptionCodec) (policy : PolicySnapshot)

/-- The loop over the units since the last position. -/
def observeUnits (observe : Captured → GraphDiff → Captured) :
    Nat → List ChangeUnit → Captured → Except CaptureError Captured
  | _, [], captured => .ok captured
  | diffs, unit :: units, captured =>
    if unit.len > limits.maxChangeDiffs - diffs then
      .error (.resync .overflow)
    else
      observeUnits observe (diffs + unit.len) units (unit.diffs.foldl observe captured)

/-- The identity of an entity is visible. -/
def showsIdentity (id : String) : Bool := policy.entity id && policy.tag id "id"

/-- The policy still shows what a projection holds. -/
def reauthorizes (projection : Projection) : Bool := projection.toList.all fun (id, stored) =>
    ((policy.record id stored.row).bind codec.encodeRow).any (· = stored.canonical)

/-- What the capture of a live record checks before it projects. -/
def captureSince (g : EntityGraph N C) (previous : Live)
    (watch : Option CaptureContext) : Except CaptureError Captured :=
  if g.state.incarnation ≠ previous.graph.incarnation then
    .error (.resync .incarnation)
  else if g.state.catalogGeneration ≠ previous.graph.catalogGeneration then
    .error (.resync .catalog)
  else
    let position := (previous.prepared.map (·.delivery.through)).getD previous.acknowledged
    match g.changeUnitsSince position with
    | .error _ => .error (.resync .gap)
    | .ok units =>
      let observe := (watch.map CaptureContext.observe).getD fun captured _ => captured
      match observeUnits limits observe 0 (units.collect units.log.length) .empty with
      | .error error => .error error
      | .ok captured =>
        if previous.ids.all (showsIdentity policy) &&
            reauthorizes codec policy previous.projection &&
            (previous.prepared.all fun prepared =>
              reauthorizes codec policy prepared.projection) then
          .ok captured
        else .error (.resync .policy)

structure Projecting where
  projection : Projection
  bytes : Nat
  authorized : List String

/-- What a caller sees of an entity of the graph. -/
def viewEntity (g : EntityGraph N C) (id : String) : Option HDict :=
  if !policy.entity id then none else (g.get id).bind (policy.record id)

/-- One id of the projection. -/
def projectId (g : EntityGraph N C) (watch : Option CaptureContext) (projecting : Projecting)
    (id : String) : Except CaptureError Projecting :=
  if !showsIdentity policy id then
    if watch.any (!·.existing id) then .ok projecting
    else .error (.resync .policy)
  else
    let projecting := { projecting with authorized := id :: projecting.authorized }
    match viewEntity policy g id with
    | none => .ok projecting
    | some row =>
      match codec.encodeRow row with
      | none => .error (.resync .overflow)
      | some canonical =>
        let bytes := saturatingAdd (saturatingAdd
          (saturatingAdd projecting.bytes canonical.length) id.utf8ByteSize)
          512
        if bytes > limits.maxViewBytes then .error (.resync .overflow)
        else
          .ok { projecting with
            projection := projecting.projection.insert id ⟨row, canonical⟩
            bytes }

/-- An authorized view of the graph. -/
def capture (g : EntityGraph N C) (ids : List String) (previous : Option Live)
    (watch : Option CaptureContext) : Except CaptureError Capture :=
  if watch.any (policy.scopeKey ≠ ·.policyScope) ||
      !policy.operation .subscriptions || !policy.operation .read then
    .error (.resync .policy)
  else if policy.scopeKey.utf8ByteSize > 1024 then
    .error (.read (.budget .input))
  else if previous.any (·.policy ≠ policy.scopeKey) then
    .error (.resync .policy)
  else
    match (match previous with
      | some previous => captureSince limits codec policy g previous watch
      | none => .ok .empty) with
    | .error error => .error error
    | .ok captured =>
      match ids.foldlM (projectId limits codec policy g watch) ⟨∅, 0, []⟩ with
      | .error error => .error error
      | .ok projecting =>
        .ok {
          graph := g.state
          policy := policy.scopeKey
          projection := projecting.projection
          watch := watch.map fun _ =>
            { captured with authorized := projecting.authorized } }

end Capturing

/-! ## Preparation of native operations -/

/-- The two projections show the same rows. -/
def sameProjection (left right : Projection) : Bool :=
  left.size = right.size &&
    left.toList.all fun (id, row) =>
      right[id]?.any fun other => row.canonical = other.canonical

/-- The rows of a delivery: all of them, or those that are new or differ. -/
def changedRows (initial : Bool) (old new : Projection) : List HDict :=
  (new.toList.filter fun (id, row) =>
    initial || old[id]?.all fun old => old.canonical ≠ row.canonical).map
    (·.2.row)

/-- The identities that a delivery removes. -/
def removedIds (initial : Bool) (old new : Projection) : List String :=
  if initial then [] else old.keys.filter fun id => !new.contains id

/-- The service whose records these are. -/
structure Service where
  authority : BitVec 128
  dataset : BitVec 128
  limits : SubscriptionLimits
  codec : SubscriptionCodec

namespace Service

variable (service : Service)

/-- A delivery that leads to a captured projection. -/
def delivery (identity : SubscriptionId) (live : Live) (capture : Capture) (initial : Bool)
    (token : BitVec 128) : Except ReadError Prepared :=
  let delivery : SubscriptionDelivery := {
    watch := identity
    dataset := service.dataset
    incarnation := capture.graph.incarnation
    catalogGeneration := capture.graph.catalogGeneration
    scopeGeneration := live.scope
    token
    fromRevision := if initial then capture.graph.revision else live.acknowledged
    through := capture.graph.revision
    initial
    rows := changedRows initial live.projection capture.projection
    removed := removedIds initial live.projection capture.projection }
  match service.codec.encodeDelivery delivery with
  | none => .error (.budget .output)
  | some bytes =>
    if bytes.length > service.limits.maxDeliveryBytes then
      .error (.budget .output)
    else .ok ⟨delivery, capture.projection⟩

/-- A new delivery becomes the outstanding one. -/
def deliver (identity : SubscriptionId) (live : Live) (capture : Capture) (initial : Bool)
    (token : BitVec 128) : Except ReadError (Status × SubscriptionOutcome) :=
  match service.delivery identity live capture initial token with
  | .error error => .error error
  | .ok prepared =>
    .ok (.live { live with prepared := some prepared }, .delivery prepared.delivery)

/-- The outstanding delivery, a new one, or nothing to deliver. -/
def preparePoll (identity : SubscriptionId) (live : Live) (capture : Capture)
    (token : BitVec 128) : Except ReadError (Status × SubscriptionOutcome) :=
  match live.prepared with
  | some prepared => .ok (.live live, .delivery prepared.delivery)
  | none =>
    if capture.graph.revision = live.acknowledged ∧
        sameProjection live.projection capture.projection then
      .ok (.live live, .idle identity live.scope live.acknowledged)
    else service.deliver identity live capture false token

def prepareAcknowledge (identity : SubscriptionId) (live : Live)
    (ack : Ack) : Status × SubscriptionOutcome :=
  let accepted := SubscriptionOutcome.acknowledged identity ack.scope ack.token ack.through
  if ack.scope ≠ live.scope then (.live live, .rejected .conflict)
  else if live.lastAck = some ack then (.live live, accepted)
  else
    match live.prepared with
    | some prepared =>
      if ack = ⟨prepared.delivery.scopeGeneration, prepared.delivery.token,
          prepared.delivery.through⟩ then
        (.live { live with
            prepared := none
            acknowledged := ack.through
            projection := prepared.projection
            lastAck := some ack },
          accepted)
      else (.live live, .rejected .conflict)
    | none => (.live live, .rejected .conflict)

def prepareReplace (identity : SubscriptionId) (live : Live) (ids : List String)
    (capture : Capture)
    (token : BitVec 128) : Except ReadError (Status × SubscriptionOutcome) :=
  match checkedAdd u64Max live.scope 1 with
  | none => .error .unavailable
  | some scope =>
    service.deliver identity
      { live with
        ids
        scope
        acknowledged := capture.graph.revision
        projection := ∅
        lastAck := none }
      capture true token

/-- The next state of a live record, whose graph is the captured one. -/
def prepareLive (identity : SubscriptionId) (request : SubscriptionRequest) (live : Live)
    (ids : List String) (capture : Capture) (now : Nat)
    (token : BitVec 128) : Except ReadError (Status × SubscriptionOutcome) :=
  match request with
  -- `unreachable!`
  | .describe => .error .unavailable
  | .replace .. => service.prepareReplace identity live ids capture token
  | .create _ | .poll _ => service.preparePoll identity live capture token
  | .resume _ scopeGeneration acknowledged =>
    if scopeGeneration ≠ live.scope ∨ acknowledged ≠ live.acknowledged then
      .ok (.live live, .resync .scopeChanged)
    else service.preparePoll identity live capture token
  | .acknowledge _ scopeGeneration token through =>
    .ok (prepareAcknowledge identity live ⟨scopeGeneration, token, through⟩)
  | .renew _ leaseMs =>
    if leaseMs * millisecond > service.limits.maxLease then
      .ok (.live live, .rejected .limit)
    else
      .ok (.live { live with leaseUntil := now + leaseMs * millisecond },
        .renewed identity leaseMs)
  | .unsubscribe _ => .ok (.closed, .closed identity)

/-- The first state of a record. -/
def prepareCreate (identity : SubscriptionId) (create : SubscriptionCreate)
    (ids : List String) (capture : Capture) (now : Nat)
    (token : BitVec 128) : Except ReadError (Status × SubscriptionOutcome) :=
  service.deliver identity
    { ids
      graph := capture.graph
      policy := capture.policy
      scope := 1
      acknowledged := capture.graph.revision
      projection := ∅
      prepared := none
      lastAck := none
      leaseUntil := now + create.leaseMs * millisecond }
    capture true token

/-- The next record of a native operation and its outcome. -/
def prepare (identity : SubscriptionId) (request : SubscriptionRequest)
    (record : Record) (ids : List String) (capture : Capture) (now : Nat)
    (token : BitVec 128) : Except ReadError (Record × SubscriptionOutcome) :=
  match checkedAdd u64Max record.revision 1 with
  | none => .error .unavailable
  | some revision =>
    let next := match record.status, request with
      | .preparing, .create create =>
        service.prepareCreate identity create ids capture now token
      | .live live, request =>
        service.prepareLive identity request
          { live with graph := capture.graph } ids capture now token
      -- `unreachable!`
      | _, _ => .error .unavailable
    match next with
    | .error error => .error error
    | .ok (status, outcome) => .ok (⟨revision, status⟩, outcome)

/-! ## Preparation of typed watches -/

/-- A row, or an empty one. -/
def copyRow (row : Option ProjectedRow) : HDict := (row.map (·.row)).getD .new

def currentTags : List String := ["id", "curVal", "curStatus"]

/-- The tags of a row that a poll for current values answers. -/
def selectCurrent (row : HDict) : HDict := currentTags.foldl (fun selected key =>
    match row.get key with
    | some value => selected.set key value
    | none => selected) .new

def watchGrid (rows : List HDict) (watch : String) (current : Bool)
    (lease : Option Nat) : WatchGrid :=
  if current then ⟨some watch, currentTags, rows.map selectCurrent, lease⟩
  else
    ⟨some watch, normalize ("id" :: rows.flatMap HDict.tagNames), rows, lease⟩

/-- The members after a subscription: an authorized id that is not a member yet
becomes one, active if the entity exists. -/
def enrol (capture : Capture) (details : Captured) (members : ExtTreeMap String Member)
    (id : String) : ExtTreeMap String Member :=
  if details.authorized.contains id && !members.contains id then
    members.insert id ⟨capture.projection.contains id, capture.graph.revision⟩
  else members

/-- The rows that a poll answers. -/
def pollRows (live : WatchLive) (capture : Capture) (details : Captured)
    (refresh : Bool) : List HDict :=
  (live.members.toList.filter fun (id, member) =>
    member.active && (refresh || live.firstPoll || details.changed.contains id)).filterMap
    fun (id, _) => capture.projection[id]?.map (·.row)

/-- The lease of the next state of a watch, cut at the end of its session. -/
def nextLease (request : WatchRequest) (previous : Option WatchLive) (expires : Option Nat)
    (now : Nat) : Nat :=
  let held := (previous.map (·.lease)).getD (60 * 1000 * millisecond)
  let wanted := match request with
    | .sub _ _ lease => lease.getD held
    | _ => held
  let lease := min wanted service.limits.maxLease
  min lease ((expires.map (· - now)).getD lease)

/-- A watch that does not exist yet. -/
def newWatch (capture : Capture) (lease now : Nat) : WatchLive where
  members := ∅
  observed := capture.graph
  policy := capture.policy
  projection := ∅
  pollRevision := capture.graph.revision
  firstPoll := true
  lease
  leaseUntil := now + lease

/-- The members, the fence of the poll and the answer of an operation. -/
def respond (watch : BitVec 128) (request : WatchRequest) (live : WatchLive)
    (capture : Capture) (details : Captured)
    (lease : Nat) : WatchLive × WatchGrid :=
  match request with
  | .sub _ ids _ =>
    ({ live with members := ids.foldl (enrol capture details) live.members },
      watchGrid (ids.map fun id => copyRow capture.projection[id]?)
        (idText watch) false (some lease))
  | .unsub _ ids _ =>
    ({ live with members := ids.foldl (·.erase ·) live.members }, .new)
  | .poll _ refresh current =>
    ({ live with pollRevision := capture.graph.revision, firstPoll := false },
      watchGrid (pollRows live capture details refresh) (idText watch) current none)

/-- The next record of a typed watch and its answer. -/
def prepareWatch (watch : BitVec 128) (request : WatchRequest) (record : Record)
    (previous : Option WatchLive) (capture : Capture) (details : Captured)
    (expires : Option Nat)
    (now : Nat) : Except ApiError (Record × WatchGrid) :=
  let lease := service.nextLease request previous expires now
  if lease = 0 then .error .permission
  else
    let live := previous.getD (newWatch capture lease now)
    let (live, grid) := respond watch request live capture details lease
    match checkedAdd u64Max record.revision 1 with
    | none => .error .unavailable
    | some revision =>
      .ok (⟨revision, .watch { live with
          observed := capture.graph
          policy := capture.policy
          projection := retain (fun id _ => live.members.contains id) capture.projection
          lease
          leaseUntil := now + lease }⟩, grid)

end Service
end Subscription
end App
end Haystack
