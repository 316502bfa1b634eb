import Haystack.App.Subscription
import Haystack.Codecs.Messages

/-!
# State-subscription messages

The requests and outcomes of state subscriptions as typed payloads.  Writing
checks the sizes of a message before it is cloned (`sourceBytes`); reading checks
the parts as it meets them, and then the whole message once more.  The two do not
charge the rows and the removed ids of a delivery alike.
-/

namespace Haystack
namespace Codecs
namespace SubscriptionWire

open Collections
open Haystack.Graph (ValueBudget)
open App (maxPayloadBytes)
open App.Subscription
open Typed (TypedPayloadError)
open Messages

def profile : String := "state-subscription-v1"

def maxIds : Nat := 1000

def maxKeyBytes : Nat := 128

def maxLeaseMs : Nat := 3600000

def invalid : TypedPayloadError := .invalid "invalid state subscription envelope"

/-! ## Checks -/

def require (condition : Bool) : Except TypedPayloadError Unit :=
  if condition then .ok () else .error invalid

def checkKey (key : String) : Except TypedPayloadError Unit :=
  require !(key.isEmpty || key.utf8ByteSize > maxKeyBytes ||
    key.toList.any App.OperationIdentity.isControl)

def checkId (id : String) : Except TypedPayloadError Unit :=
  require !(id.isEmpty || id.utf8ByteSize > 1024 || id.toList.any App.OperationIdentity.isControl)

def checkLease (lease : Nat) : Except TypedPayloadError Unit :=
  require !(lease = 0 || lease > maxLeaseMs)

/-- Charge one more id. -/
def chargeId (bytes : Nat) (id : String) : Except TypedPayloadError Nat := do
  checkId id
  let bytes := saturatingAdd bytes (id.utf8ByteSize + 64)
  require !(bytes > 65536)
  .ok bytes

def idsBytes (ids : List String) (allowEmpty : Bool) : Except TypedPayloadError Nat := do
  require !(!allowEmpty && ids.isEmpty || ids.length > maxIds)
  ids.foldlM chargeId 0

/-- The bytes of a message, with the key of its watch. -/
def keyBytes (bytes : Nat) : Option SubscriptionId → Except TypedPayloadError Nat
  | some watch => do
    checkKey watch.key
    .ok (bytes + watch.key.utf8ByteSize)
  | none => .ok bytes

/-- Add the charge of what is particular to a request. -/
def requestCharge (bytes : Nat) : SubscriptionRequest → Except TypedPayloadError Nat
  | .create create => do
    checkKey create.key
    checkLease create.leaseMs
    let ids ← idsBytes create.ids false
    .ok (bytes + (create.key.utf8ByteSize + ids))
  | .replace _ expectedScopeGeneration ids => do
    require !(expectedScopeGeneration = 0)
    let ids ← idsBytes ids true
    .ok (bytes + ids)
  | .renew _ leaseMs => do
    checkLease leaseMs
    .ok bytes
  | .resume _ scopeGeneration _ | .acknowledge _ scopeGeneration _ _ => do
    require !(scopeGeneration = 0)
    .ok bytes
  | _ => .ok bytes

/-- The bytes of the source of a request, when it is within its bounds. -/
def requestBytes (request : SubscriptionRequest) : Except TypedPayloadError Nat := do
  let bytes ← keyBytes 512 request.watch
  let bytes ← requestCharge bytes request
  require !(bytes > 65536)
  .ok bytes

/-- Add an id to the ids of a delivery, which are distinct. -/
def addId (ids : List String) (id : String) : Except TypedPayloadError (List String) := do
  checkId id
  require !(ids.contains id)
  .ok (id :: ids)

/-- Charge one more row, and add its id. -/
def chargeRow (progress : ValueBudget × List String) (row : HDict) :
    Except TypedPayloadError (ValueBudget × List String) :=
  match progress.1.dict row 1, row.get "id" with
  | some budget, some (.ref id) => do
    let ids ← addId progress.2 id.val
    .ok (budget, ids)
  | _, _ => .error invalid

/-- The budget of the rows of a delivery. -/
def rowBudget : ValueBudget := .new 100000 (maxPayloadBytes * 4) 48

/-- The bytes that removed ids are charged. -/
def removedBytes (ids : List String) : Nat := (ids.map fun id => id.utf8ByteSize + 64).sum

def deliveryBytes (bytes : Nat) (delivery : SubscriptionDelivery) :
    Except TypedPayloadError Nat := do
  require !(delivery.rows.length > maxIds || delivery.removed.length > maxIds ||
    delivery.scopeGeneration = 0 || delivery.fromRevision > delivery.through ||
    (delivery.initial && (delivery.fromRevision ≠ delivery.through || !delivery.removed.isEmpty)))
  let (budget, ids) ← delivery.rows.foldlM chargeRow (rowBudget, [])
  let _ ← delivery.removed.foldlM addId ids
  .ok (saturatingAdd (saturatingAdd bytes budget.usedBytes) (removedBytes delivery.removed))

/-- Add the charge of what is particular to an outcome. -/
def outcomeCharge (bytes : Nat) : SubscriptionOutcome → Except TypedPayloadError Nat
  | .delivery delivery => deliveryBytes bytes delivery
  | .idle _ scopeGeneration _ | .acknowledged _ scopeGeneration _ _ => do
    require !(scopeGeneration = 0)
    .ok bytes
  | .renewed _ leaseMs => do
    checkLease leaseMs
    .ok bytes
  | _ => .ok bytes

/-- The bytes of the source of an outcome, when it is within its bounds. -/
def outcomeBytes (outcome : SubscriptionOutcome) : Except TypedPayloadError Nat := do
  let bytes ← keyBytes 1024 outcome.watch
  outcomeCharge bytes outcome

/-! ## Parts -/

def parseHex : Kind → Except TypedPayloadError (BitVec 128)
  | .str digits => parseHexText invalid digits
  | _ => .error invalid

/-- The tags of a dictionary with exactly the named fields. -/
def fields (value : Kind) (names : List String) :
    Except TypedPayloadError (List (String × Kind)) :=
  match value with
  | .dict tags => do
    require !(tags.length ≠ names.length ||
      !names.all fun name => (Assoc.lookup name tags).isSome)
    .ok tags
  | _ => .error invalid

def identity (id : SubscriptionId) : Kind :=
  dict [("authority", hex id.authority), ("watch", hex id.watch), ("key", text id.key)]

def parseIdentity (value : Kind) : Except TypedPayloadError SubscriptionId := do
  let d ← fields value ["authority", "watch", "key"]
  let key ← string invalid d "key"
  checkKey key
  let authority ← field invalid d "authority" >>= parseHex
  let watch ← field invalid d "watch" >>= parseHex
  .ok ⟨authority, watch, key⟩

def idsKind (ids : List String) : Kind := .list (ids.map text)

/-- Read the ids of a list, with the bytes charged so far. -/
def parseIdsFrom (bytes : Nat) : List Kind → Except TypedPayloadError (List String)
  | [] => .ok []
  | .str id :: rest => do
    let bytes ← chargeId bytes id
    let ids ← parseIdsFrom bytes rest
    .ok (id :: ids)
  | _ :: _ => .error invalid

def parseIds (value : Kind) (allowEmpty : Bool) : Except TypedPayloadError (List String) :=
  match value with
  | .list ids => do
    require !(ids.length > maxIds || !allowEmpty && ids.isEmpty)
    parseIdsFrom 0 ids
  | _ => .error invalid

def envelope (kind : String) (body : Kind) : Kind :=
  dict [("profile", text profile), ("type", text kind), ("body", body)]

/-- The type and the body of an envelope. -/
def openEnvelope (value : Kind) : Except TypedPayloadError (String × Kind) := do
  let d ← fields value ["profile", "type", "body"]
  let found ← string invalid d "profile"
  require (found = profile)
  let kind ← string invalid d "type"
  let body ← field invalid d "body"
  .ok (kind, body)

/-! ## Requests -/

def requestBody : SubscriptionRequest → String × Kind
  | .describe => ("describe", dict [])
  | .create c =>
    ("create", dict [("authority", hex c.authority), ("key", text c.key),
      ("ids", idsKind c.ids), ("leaseMs", uint c.leaseMs)])
  | .poll watch => ("poll", dict [("watch", identity watch)])
  | .resume watch scopeGeneration acknowledged =>
    ("resume", dict [("watch", identity watch), ("scopeGeneration", uint scopeGeneration),
      ("acknowledged", uint acknowledged)])
  | .acknowledge watch scopeGeneration token through =>
    ("acknowledge", dict [("watch", identity watch),
      ("scopeGeneration", uint scopeGeneration), ("token", hex token),
      ("through", uint through)])
  | .renew watch leaseMs =>
    ("renew", dict [("watch", identity watch), ("leaseMs", uint leaseMs)])
  | .replace watch expectedScopeGeneration ids =>
    ("replace", dict [("watch", identity watch),
      ("scopeGeneration", uint expectedScopeGeneration), ("ids", idsKind ids)])
  | .unsubscribe watch => ("unsubscribe", dict [("watch", identity watch)])

def readRequest (kind : String) (body : Kind) : Except TypedPayloadError SubscriptionRequest :=
  match kind with
  | "describe" => do
    let _ ← fields body []
    .ok .describe
  | "create" => do
    let d ← fields body ["authority", "key", "ids", "leaseMs"]
    let key ← string invalid d "key"
    checkKey key
    let authority ← field invalid d "authority" >>= parseHex
    let ids ← field invalid d "ids" >>= (parseIds · false)
    let leaseMs ← number invalid d "leaseMs"
    .ok (.create ⟨authority, key, ids, leaseMs⟩)
  | "poll" => do
    let d ← fields body ["watch"]
    let watch ← field invalid d "watch" >>= parseIdentity
    .ok (.poll watch)
  | "unsubscribe" => do
    let d ← fields body ["watch"]
    let watch ← field invalid d "watch" >>= parseIdentity
    .ok (.unsubscribe watch)
  | "resume" => do
    let d ← fields body ["watch", "scopeGeneration", "acknowledged"]
    let watch ← field invalid d "watch" >>= parseIdentity
    let scopeGeneration ← number invalid d "scopeGeneration"
    let acknowledged ← number invalid d "acknowledged"
    .ok (.resume watch scopeGeneration acknowledged)
  | "acknowledge" => do
    let d ← fields body ["watch", "scopeGeneration", "token", "through"]
    let watch ← field invalid d "watch" >>= parseIdentity
    let scopeGeneration ← number invalid d "scopeGeneration"
    let token ← field invalid d "token" >>= parseHex
    let through ← number invalid d "through"
    .ok (.acknowledge watch scopeGeneration token through)
  | "renew" => do
    let d ← fields body ["watch", "leaseMs"]
    let watch ← field invalid d "watch" >>= parseIdentity
    let leaseMs ← number invalid d "leaseMs"
    .ok (.renew watch leaseMs)
  | "replace" => do
    let d ← fields body ["watch", "scopeGeneration", "ids"]
    let watch ← field invalid d "watch" >>= parseIdentity
    let expectedScopeGeneration ← number invalid d "scopeGeneration"
    let ids ← field invalid d "ids" >>= (parseIds · true)
    .ok (.replace watch expectedScopeGeneration ids)
  | _ => .error invalid

def request : EntityWire SubscriptionRequest where
  toKind request := do
    let _ ← requestBytes request
    let (kind, body) := requestBody request
    .ok (envelope kind body)
  fromKind value := do
    let (kind, body) ← openEnvelope value
    let request ← readRequest kind body
    let _ ← requestBytes request
    .ok request

/-! ## Outcomes -/

def rejectionName : SubscriptionRejection → String
  | .invalid => "invalid"
  | .forbidden => "forbidden"
  | .conflict => "conflict"
  | .capacity => "capacity"
  | .limit => "limit"
  | .pending => "pending"

def rejection : String → Except TypedPayloadError SubscriptionRejection
  | "invalid" => .ok .invalid
  | "forbidden" => .ok .forbidden
  | "conflict" => .ok .conflict
  | "capacity" => .ok .capacity
  | "limit" => .ok .limit
  | "pending" => .ok .pending
  | _ => .error SubscriptionWire.invalid

def resyncName : SubscriptionResync → String
  | .authority => "authority"
  | .sessionExpired => "sessionExpired"
  | .revoked => "revoked"
  | .leaseExpired => "leaseExpired"
  | .gap => "gap"
  | .incarnation => "incarnation"
  | .catalog => "catalog"
  | .policy => "policy"
  | .scopeChanged => "scopeChanged"
  | .shutdown => "shutdown"
  | .overflow => "overflow"
  | .unknown => "unknown"

def resync : String → Except TypedPayloadError SubscriptionResync
  | "authority" => .ok .authority
  | "sessionExpired" => .ok .sessionExpired
  | "revoked" => .ok .revoked
  | "leaseExpired" => .ok .leaseExpired
  | "gap" => .ok .gap
  | "incarnation" => .ok .incarnation
  | "catalog" => .ok .catalog
  | "policy" => .ok .policy
  | "scopeChanged" => .ok .scopeChanged
  | "shutdown" => .ok .shutdown
  | "overflow" => .ok .overflow
  | "unknown" => .ok .unknown
  | _ => .error invalid

def outcomeBody : SubscriptionOutcome → String × Kind
  | .authority authority dataset =>
    ("authority", dict [("authority", hex authority), ("dataset", hex dataset)])
  | .delivery v =>
    ("delivery", dict [("watch", identity v.watch), ("dataset", hex v.dataset),
      ("incarnation", hex v.incarnation),
      ("catalogGeneration", uint v.catalogGeneration),
      ("scopeGeneration", uint v.scopeGeneration), ("token", hex v.token),
      ("from", uint v.fromRevision), ("through", uint v.through),
      ("initial", .bool v.initial), ("rows", .list (v.rows.map rowKind)),
      ("removed", idsKind v.removed)])
  | .idle watch scopeGeneration acknowledged =>
    ("idle", dict [("watch", identity watch), ("scopeGeneration", uint scopeGeneration),
      ("acknowledged", uint acknowledged)])
  | .acknowledged watch scopeGeneration token through =>
    ("acknowledged", dict [("watch", identity watch),
      ("scopeGeneration", uint scopeGeneration), ("token", hex token),
      ("through", uint through)])
  | .renewed watch leaseMs =>
    ("renewed", dict [("watch", identity watch), ("leaseMs", uint leaseMs)])
  | .closed watch => ("closed", dict [("watch", identity watch)])
  | .rejected reason => ("rejected", dict [("reason", text (rejectionName reason))])
  | .resync reason => ("resync", dict [("reason", text (resyncName reason))])
  | .unknown => ("unknown", dict [])

/-- The rows of a delivery, which are charged as values. -/
def readRows (rows : List Kind) : Except TypedPayloadError (List HDict) := do
  require !(rows.length > maxIds)
  match rowBudget.items 1 rows with
  | none => .error invalid
  | some _ => rows.mapM (checkedRow invalid)

def readDelivery (body : Kind) : Except TypedPayloadError SubscriptionDelivery := do
  let d ← fields body ["watch", "dataset", "incarnation", "catalogGeneration",
    "scopeGeneration", "token", "from", "through", "initial", "rows", "removed"]
  let rows ← list invalid d "rows" >>= readRows
  let initial ← flag invalid d "initial"
  let watch ← field invalid d "watch" >>= parseIdentity
  let dataset ← field invalid d "dataset" >>= parseHex
  let incarnation ← field invalid d "incarnation" >>= parseHex
  let catalogGeneration ← number invalid d "catalogGeneration"
  let scopeGeneration ← number invalid d "scopeGeneration"
  let token ← field invalid d "token" >>= parseHex
  let fromRevision ← number invalid d "from"
  let through ← number invalid d "through"
  let removed ← field invalid d "removed" >>= (parseIds · true)
  .ok { watch, dataset, incarnation, catalogGeneration, scopeGeneration, token,
        fromRevision, through, initial, rows, removed }

def readOutcome (kind : String) (body : Kind) : Except TypedPayloadError SubscriptionOutcome :=
  match kind with
  | "authority" => do
    let d ← fields body ["authority", "dataset"]
    let authority ← field invalid d "authority" >>= parseHex
    let dataset ← field invalid d "dataset" >>= parseHex
    .ok (.authority authority dataset)
  | "delivery" => do
    let delivery ← readDelivery body
    .ok (.delivery delivery)
  | "idle" => do
    let d ← fields body ["watch", "scopeGeneration", "acknowledged"]
    let watch ← field invalid d "watch" >>= parseIdentity
    let scopeGeneration ← number invalid d "scopeGeneration"
    let acknowledged ← number invalid d "acknowledged"
    .ok (.idle watch scopeGeneration acknowledged)
  | "acknowledged" => do
    let d ← fields body ["watch", "scopeGeneration", "token", "through"]
    let watch ← field invalid d "watch" >>= parseIdentity
    let scopeGeneration ← number invalid d "scopeGeneration"
    let token ← field invalid d "token" >>= parseHex
    let through ← number invalid d "through"
    .ok (.acknowledged watch scopeGeneration token through)
  | "renewed" => do
    let d ← fields body ["watch", "leaseMs"]
    let watch ← field invalid d "watch" >>= parseIdentity
    let leaseMs ← number invalid d "leaseMs"
    .ok (.renewed watch leaseMs)
  | "closed" => do
    let d ← fields body ["watch"]
    let watch ← field invalid d "watch" >>= parseIdentity
    .ok (.closed watch)
  | "rejected" => do
    let d ← fields body ["reason"]
    let reason ← string invalid d "reason" >>= rejection
    .ok (.rejected reason)
  | "resync" => do
    let d ← fields body ["reason"]
    let reason ← string invalid d "reason" >>= resync
    .ok (.resync reason)
  | "unknown" => do
    let _ ← fields body []
    .ok .unknown
  | _ => .error invalid

def outcome : EntityWire SubscriptionOutcome where
  toKind outcome := do
    let _ ← outcomeBytes outcome
    let (kind, body) := outcomeBody outcome
    .ok (envelope kind body)
  fromKind value := do
    let (kind, body) ← openEnvelope value
    let outcome ← readOutcome kind body
    let _ ← outcomeBytes outcome
    .ok outcome

end SubscriptionWire
end Codecs
end Haystack
