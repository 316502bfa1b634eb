import Haystack.App.HistoryTypes
import Haystack.App.Sanitize
import Haystack.Graph.Run

/-!
# The command simulator

Writable points with seventeen levels of commands.  A request is admitted, reads
the schema of its point, and is published under the store lock against the state
of the graph that it has read; it is answered later.  Policies, sessions, budgets
and the lock are inputs: a failure that they cause is an argument of the step that
it can happen in.
-/

namespace Haystack
namespace App

open Std (ExtTreeMap)
open Collections Haystack.Graph
open Haystack.Filter (FilterNode Ontology)

namespace Command

inductive ApiError
  | invalidArgs
  | notImplemented
  | unknownEntity
  | permission
  | timeout
  | commandUnknown
  | unavailable
  | internal
  deriving DecidableEq

inductive CommandAction
  | inspect
  | set
  | relinquish
  deriving DecidableEq

/-- The command rules of one principal. -/
structure CommandPolicySnapshot where
  scopeKey : String
  action : CommandAction → Bool
  point : String → CommandAction → Bool

inductive SimulatedCommandMode
  | inspectOnly
  | writable
  deriving DecidableEq

structure CommandLimits where
  maxPoints : Nat
  maxRetainedBytes : Nat
  maxValueBytes : Nat
  maxWhoBytes : Nat
  maxDuration : Nat

structure CommandRequest where
  id : String
  level : Option Nat
  value : Option Kind
  who : Option String
  duration : Option Nat

def CommandRequest.action (request : CommandRequest) : CommandAction :=
  if request.level.isNone then .inspect
  else
    match request.value with
    | none | some .null => .relinquish
    | some _ => .set

/-- The configuration of a simulator.  `durationMax` is the longest time that the
clock can represent. -/
structure CommandService where
  tables : Tables
  mode : SimulatedCommandMode
  limits : CommandLimits
  durationMax : Nat

/-! ## Schemas and values -/

inductive PointKind
  | bool
  | number
  | str
  deriving DecidableEq

/-- The values that a point can take. -/
inductive PointValue
  | bool (value : Bool)
  | number (value : Number)
  | str (value : String)
  deriving DecidableEq

structure Schema where
  kind : PointKind
  unit : Option String
  default : Option PointValue
  deriving DecidableEq

def F64.isFinite (x : F64) : Bool := x.magnitude < 0x7FF0000000000000

/-- The units of a number and of a schema are the same, or the number has none. -/
def Schema.acceptsUnit (schema : Schema) (tables : Tables) (limit : Nat)
    (unit : Option String) : Bool :=
  match unit with
  | none => true
  | some name =>
    name.utf8ByteSize ≤ 128 && name.utf8ByteSize ≤ limit && (match tables.unitFor name with
        | some unit => schema.unit.bind tables.unitFor = some unit
        | none => false)

def Schema.normalize (schema : Schema) (tables : Tables) (limit : Nat)
    (value : Kind) : Except ApiError PointValue :=
  match schema.kind, value with
  | .bool, .bool value => .ok (.bool value)
  | .str, .str value =>
    if value.utf8ByteSize ≤ limit then .ok (.str value)
    else .error .invalidArgs
  | .number, .number number =>
    if F64.isFinite number.val && schema.acceptsUnit tables limit number.unit
    then .ok (.number ⟨number.val, schema.unit⟩)
    else .error .invalidArgs
  | _, _ => .error .invalidArgs

def readKind (row : HDict) : Except ApiError PointKind :=
  match row.get "kind" with
  | some (.str "Bool") => .ok .bool
  | some (.str "Number") => .ok .number
  | some (.str "Str") => .ok .str
  | some (.str _) => .error .notImplemented
  | _ => .error .invalidArgs

def readUnit (tables : Tables) (kind : PointKind) (row : HDict) :
    Except ApiError (Option String) :=
  match row.get "unit" with
  | none => .ok none
  | some (.str unit) =>
    if kind = .number && unit.utf8ByteSize ≤ 128 && (tables.unitFor unit).isSome then
      .ok (some unit)
    else .error .invalidArgs
  | some _ => .error .invalidArgs

def isMarker : Option Kind → Bool
  | some .marker => true
  | _ => false

def Schema.read (tables : Tables) (limit : Nat) (row : HDict) : Except ApiError Schema :=
  if !isMarker (row.get "point") || !isMarker (row.get "writable") then
    .error .notImplemented
  else do
    let kind ← readKind row
    let unit ← readUnit tables kind row
    let schema : Schema := ⟨kind, unit, none⟩
    match row.get "writeDef" with
    | none | some .null => return schema
    | some value =>
      return { schema with default := some (← schema.normalize tables limit value) }

/-- The tags that a schema is read from. -/
def schemaTags : List String := ["point", "writable", "kind", "unit", "writeDef"]

/-! ## Points -/

def PointValue.bytes : PointValue → Nat
  | .str text => text.utf8ByteSize + 64
  | .number n => (n.unit.map (·.utf8ByteSize)).getD 0 + 64
  | .bool _ => 64

structure Slot where
  value : Option PointValue
  who : Option String
  generation : Nat
  deadline : Option Nat
  deriving DecidableEq

def Slot.empty : Slot := ⟨none, none, 0, none⟩

def Slot.bytes (slot : Slot) : Nat := 128 + (slot.who.map (·.utf8ByteSize)).getD 0 +
    (slot.value.map PointValue.bytes).getD 0

/-- The slots of the levels one to seventeen. -/
instance neZeroSlots : NeZero 17 := ⟨by decide⟩

abbrev Slots := Fin 17 → Slot

structure Point where
  schema : Schema
  graph : GraphState
  slots : Slots
  effective : Option PointValue
  effectiveLevel : Nat

/-- The first slot with a value. -/
def firstValue (slots : Slots) : Option (Fin 17 × PointValue) :=
  (List.finRange 17).findSome? fun index =>
    (slots index).value.map fun value => (index, value)

namespace Point

def resolve (point : Point) : Point :=
  match firstValue point.slots with
  | some (index, value) =>
    { point with effective := some value, effectiveLevel := index + 1 }
  | none => { point with effective := none, effectiveLevel := 17 }

def new (schema : Schema) (graph : GraphState) : Point := resolve
    { schema
      graph
      slots := Function.update (fun _ => .empty) 16
        { Slot.empty with value := schema.default }
      effective := none
      effectiveLevel := 17 }

/-- The bytes of the largest value of the slots. -/
def largestValue (slots : Slots) : Nat := ((List.finRange 17).filterMap fun index =>
    (slots index).value.map PointValue.bytes).foldl max 0

def bytes (point : Point) (id : String) : Nat :=
  id.utf8ByteSize + 512 + (point.schema.unit.map (·.utf8ByteSize)).getD 0 +
    (point.schema.default.map PointValue.bytes).getD 0 +
    ((List.finRange 17).map fun index => (point.slots index).bytes).sum +
    largestValue point.slots

end Point

/-! ## Expiry -/

/-- The deadline of a slot has passed. -/
def Slot.isDue (slot : Slot) (now : Nat) : Bool := slot.deadline.any (· ≤ now)

def Slot.expire (slot : Slot) (now : Nat) : Slot :=
  if slot.isDue now then { slot with value := none, deadline := none } else slot

def Point.expire (point : Point) (now : Nat) : Point :=
  if (List.finRange 17).any fun index => (point.slots index).isDue now then
    Point.resolve { point with slots := fun index => (point.slots index).expire now }
  else point

structure Store where
  points : ExtTreeMap String Point
  bytes : Nat

/-- Subtraction that fails below zero. -/
def checkedSub (left right : Nat) : Option Nat :=
  if right ≤ left then some (left - right) else none

/-- Expire one point.  The byte count of the store may not underflow. -/
def Store.expirePoint (now : Nat) (store : Store) (entry : String × Point) : Option Store :=
  if (List.finRange 17).any fun index => (entry.2.slots index).isDue now then do
    let point := entry.2.expire now
    let rest ← checkedSub store.bytes (entry.2.bytes entry.1)
    return ⟨store.points.insert entry.1 point, rest + point.bytes entry.1⟩
  else some store

def Store.expire (store : Store) (now : Nat) : Option Store :=
  store.points.toList.foldlM (expirePoint now) store

/-! ## Admission -/

/-- A caller: its principal, whether its session is one of this principal, and
what the policies say about it. -/
structure Caller where
  principal : Principal
  matched : Bool
  commandPolicy : CommandPolicySnapshot
  policy : PolicySnapshot
  expectedPolicy : Option String

/-- The failures of the environment while a request is prepared. -/
structure PrepareStops where
  admission : Option ApiError
  snapshots : Option ApiError
  charge : Option ApiError
  graph : Option ApiError

/-- Go on unless the environment stops the request. -/
def unlessStopped (stop : Option ApiError) : Except ApiError Unit :=
  match stop with
  | some failure => .error failure
  | none => .ok ()

/-- The value of an option, or a failure. -/
def orFail (value : Option α) (failure : ApiError) : Except ApiError α :=
  match value with
  | some value => .ok value
  | none => .error failure

def refuseIf (condition : Bool) (failure : ApiError) : Except ApiError Unit :=
  if condition then .error failure else .ok ()

def transport (principal : Principal) (action : CommandAction) : Bool :=
  match principal with
  | .anonymous => false
  | .trustedEmbedding _ => true
  | .authenticated _ permissions => permissions.any fun permission =>
    permission = "admin" || permission = if action = .inspect then "read" else "write"

/-- The level and the duration of a request are out of range. -/
def CommandRequest.isInvalid (request : CommandRequest) (limits : CommandLimits) : Bool :=
  request.id.isEmpty || request.id.utf8ByteSize > limits.maxValueBytes ||
    request.level.any (fun level => level < 1 || 17 < level) ||
    request.duration.any fun duration =>
      duration = 0 || duration > limits.maxDuration || request.level ≠ some 8 ||
        request.action ≠ .set

/-- Whom a command is attributed to. -/
def attribution (principal : Principal) (request : CommandRequest) : Except ApiError String :=
  match principal with
  | .authenticated subject _ | .trustedEmbedding subject =>
    .ok (request.who.getD subject)
  | .anonymous => .error .permission

/-- The checks before the graph is read. -/
def CommandService.admission
    (service : CommandService) (caller : Caller) (request : CommandRequest)
    (stops : PrepareStops) : Except ApiError String := do
  let action := request.action
  unlessStopped stops.admission
  refuseIf (!caller.matched) .permission
  refuseIf (!transport caller.principal action) .permission
  refuseIf (action ≠ .inspect && service.mode ≠ .writable) .notImplemented
  refuseIf (request.isInvalid service.limits) .invalidArgs
  unlessStopped stops.snapshots
  refuseIf (caller.commandPolicy.scopeKey.utf8ByteSize > 1024 ||
    caller.policy.scopeKey.utf8ByteSize > 1024) .unavailable
  refuseIf (!caller.commandPolicy.action action) .permission
  refuseIf (caller.expectedPolicy.any (· ≠ caller.policy.scopeKey)) .permission
  refuseIf (action = .inspect && !caller.policy.operation .read) .permission
  refuseIf (!caller.commandPolicy.point request.id action ||
    !caller.policy.entity request.id || !caller.policy.tag request.id "id")
    .unknownEntity
  refuseIf (schemaTags.any fun tag => !caller.policy.tag request.id tag) .unknownEntity
  let who ← attribution caller.principal request
  refuseIf (who.utf8ByteSize > service.limits.maxWhoBytes) .invalidArgs
  unlessStopped stops.charge
  return who

/-- A request that has read its point. -/
structure Prepared where
  request : CommandRequest
  who : String
  schema : Schema
  value : Option PointValue
  observed : GraphState
  commandScope : String
  readScope : String

/-- The value that a request sets. -/
def CommandService.readValue (service : CommandService) (schema : Schema)
    (request : CommandRequest) : Except ApiError (Option PointValue) :=
  if request.action = .set then
    match request.value with
    | none => .error .invalidArgs
    | some value =>
      (schema.normalize service.tables service.limits.maxValueBytes value).map some
  else .ok none

def CommandService.prepare (service : CommandService) (g : EntityGraph N C) (caller : Caller)
    (request : CommandRequest)
    (stops : PrepareStops) : Except ApiError Prepared := do
  let who ← service.admission caller request stops
  unlessStopped stops.graph
  let row ← orFail (g.get request.id) .unknownEntity
  let schema ← Schema.read service.tables service.limits.maxValueBytes row
  let value ← service.readValue schema request
  return ⟨request, who, schema, value, g.state, caller.commandPolicy.scopeKey,
    caller.policy.scopeKey⟩

/-! ## Publication -/

/-- The failures of the environment while a request is published, and the time
that passes between its two readings of the clock. -/
structure PublishStops where
  check : Option ApiError
  commandScope : String
  readScope : String
  catalog : Option ApiError
  recheck : Option ApiError
  charge : Nat → Option ApiError
  finalCheck : Option ApiError
  dispatch : Option ApiError
  elapsed : Nat

/-- A diff touches the schema of a point. -/
def touchesSchema (service : CommandService) (schema : Schema) (diff : GraphDiff) : Bool :=
  diff.op = .remove || diff.changedTags.any (fun tags => schemaTags.any tags.has) ||
    diff.new.any fun row =>
      Schema.read service.tables service.limits.maxValueBytes row ≠ .ok schema

/-- The changes since a point was last published. -/
def CommandService.fence (service : CommandService) (charge : Nat → Option ApiError) (id : String)
    (schema : Schema) : List ChangeUnit → Except ApiError Unit
  | [] => .ok ()
  | unit :: rest => do
    unlessStopped (charge (unit.len + 1))
    refuseIf ((unit.diffs.filter (·.refVal = id)).any (touchesSchema service schema)) .unavailable
    service.fence charge id schema rest

/-- A stored point is still the one that the request has read. -/
def CommandService.checkStored
    (service : CommandService) (g : EntityGraph N C) (prepared : Prepared)
    (charge : Nat → Option ApiError)
    (point : Point) : Except ApiError Unit := do
  refuseIf (point.schema ≠ prepared.schema ||
    point.graph.incarnation ≠ prepared.observed.incarnation ||
    point.graph.catalogGeneration ≠ prepared.observed.catalogGeneration)
    .unavailable
  match g.changeUnitsSince point.graph.revision with
  | .error _ => .error .unavailable
  | .ok units =>
    service.fence charge prepared.request.id point.schema (units.collect units.log.length)

/-- The end of a timed command. -/
def CommandService.deadline (service : CommandService) (duration : Option Nat)
    (now : Nat) : Except ApiError (Option Nat) :=
  match duration with
  | none => .ok none
  | some duration =>
    (orFail (checkedAdd service.durationMax now duration) .invalidArgs).map some

/-- The slot after a command. -/
def CommandService.writeSlot (service : CommandService) (prepared : Prepared) (now : Nat)
    (slot : Slot) : Except ApiError Slot := do
  let generation ← orFail (checkedAdd u64Max slot.generation 1) .unavailable
  let deadline ← service.deadline prepared.request.duration now
  return ⟨prepared.value, some prepared.who, generation, deadline⟩

/-- The index of the slot of a level. -/
def slotIndex (level : Nat) : Fin 17 := Fin.ofNat 17 (level - 1)

/-- The point that a request starts from. -/
def basePoint (prepared : Prepared) (stored : Option Point) : Point :=
  match stored with
  | some point => { point with graph := prepared.observed }
  | none => Point.new prepared.schema prepared.observed

/-- The point after a request. -/
def CommandService.command (service : CommandService) (prepared : Prepared) (now : Nat)
    (stored : Option Point) : Except ApiError Point :=
  let point := basePoint prepared stored
  match prepared.request.level with
  | none => .ok point.resolve
  | some level => do
    let slot ← service.writeSlot prepared now (point.slots (slotIndex level))
    return Point.resolve
      { point with
        slots := Function.update point.slots (slotIndex level) slot }

/-- A stored point must be the same as before, and a new one must have room. -/
def CommandService.checkPoint (service : CommandService) (g : EntityGraph N C) (store : Store)
    (prepared : Prepared)
    (charge : Nat → Option ApiError) : Except ApiError Unit :=
  match store.points[prepared.request.id]? with
  | some point => service.checkStored g prepared charge point
  | none =>
    refuseIf (store.points.size ≥ service.limits.maxPoints) .unavailable

/-- The new point and the byte count of the store with it. -/
def CommandService.replacePoint
    (service : CommandService) (g : EntityGraph N C) (store : Store) (now : Nat)
    (prepared : Prepared)
    (stops : PublishStops) : Except ApiError (Point × Nat) := do
  let id := prepared.request.id
  service.checkPoint g store prepared stops.charge
  let point ← service.command prepared (now + stops.elapsed) store.points[id]?
  let before := (store.points[id]?.map (Point.bytes · id)).getD 0
  let total ← orFail (checkedAdd usizeMax (store.bytes - before) (point.bytes id)) .unavailable
  refuseIf (total > service.limits.maxRetainedBytes) .unavailable
  unlessStopped stops.finalCheck
  unlessStopped (if prepared.request.action = .inspect then none
    else stops.dispatch)
  return (point, total)

/-- The checks of a publication before the store changes. -/
def checkPublication (g : EntityGraph N C) (prepared : Prepared)
    (stops : PublishStops) : Except ApiError Unit := do
  unlessStopped stops.check
  refuseIf (stops.commandScope ≠ prepared.commandScope ||
    stops.readScope ≠ prepared.readScope) .permission
  unlessStopped stops.catalog
  refuseIf (g.state ≠ prepared.observed) .unavailable
  unlessStopped stops.recheck

/-- Publish a request.  A failure keeps the expiries that were due.  The result
is `none` if the byte count underflows. -/
def CommandService.publish
    (service : CommandService) (g : EntityGraph N C) (store : Store) (now : Nat)
    (prepared : Prepared)
    (stops : PublishStops) : Option (Store × Except ApiError Slots) :=
  match checkPublication g prepared stops with
  | .error failure => some (store, .error failure)
  | .ok () => do
    let store ← store.expire now
    match service.replacePoint g store now prepared stops with
    | .error failure => return (store, .error failure)
    | .ok (point, total) =>
      return (⟨store.points.insert prepared.request.id point, total⟩, .ok point.slots)

/-! ## Answers -/

structure InspectionRow where
  level : Nat
  levelDis : String
  value : Option PointValue
  who : Option String

def levelDis (level : Nat) : String :=
  if level = 1 then "Emergency Override"
  else if level = 8 then "Manual Override"
  else if level = 17 then "Default"
  else "Level " ++ toString level

def inspection (slots : Slots) : List InspectionRow := (List.finRange 17).map fun index =>
    { level := index.val + 1
      levelDis := levelDis (index.val + 1)
      value := (slots index).value
      who := (slots index).who }

/-- Accepted is only the acceptance of the simulator. -/
inductive CommandOutcome
  | inspection (rows : List InspectionRow)
  | accepted
  | rejected (failure : ApiError)
  | unknown

/-- The outcome of a published request: a command that was dispatched and fails
has an unknown effect. -/
def outcome (prepared : Prepared) (slots : Slots) (failure : Option ApiError) : CommandOutcome :=
  match failure with
  | none =>
    if prepared.request.action = .inspect then .inspection (inspection slots)
    else .accepted
  | some failure =>
    if prepared.request.action = .inspect then .rejected failure
    else .unknown

/-! ## The system -/

inductive Stage
  | prepared (prepared : Prepared)
  | published (prepared : Prepared) (slots : Slots)
  | answered (outcome : CommandOutcome)

/-- A command that was published: the level it wrote, the value and its
deadline. -/
structure Publication where
  id : String
  level : Option (Fin 17)
  value : Option PointValue
  deadline : Option Nat

/-- A simulator and its graph.  Nothing reads `publications`; they are the record
that the slots are compared with. -/
structure State (N C : Type) where
  session : Session N C
  store : Store
  now : Nat
  operations : List Stage
  publications : List Publication
  panicked : Bool

inductive Event (N C : Type)
  | write (command : Graph.Command N C)
  | sweep
  | tick (elapsed : Nat)
  | prepare (caller : Caller) (request : CommandRequest) (stops : PrepareStops)
  | publish (operation : Nat) (stops : PublishStops)
  | answer (operation : Nat) (failure : Option ApiError)

def State.initial (session : Session N C) (now : Nat) : State N C where
  session
  store := ⟨∅, 0⟩
  now
  operations := []
  publications := []
  panicked := false

def CommandService.publication (prepared : Prepared) (now : Nat) : Publication where
  id := prepared.request.id
  level := prepared.request.level.map slotIndex
  value := prepared.value
  deadline := prepared.request.duration.map (now + ·)

section

variable (service : CommandService) (ontology : Ontology N C)
variable (parseFilter : String → Except String FilterNode)

/-- One attempt to publish an operation. -/
def State.publish (s : State N C) (operation : Nat) (stops : PublishStops) : State N C :=
  match s.operations[operation]? with
  | some (.prepared prepared) =>
    match service.publish s.session.graph s.store s.now prepared stops with
    | none => { s with panicked := true }
    | some (store, .error failure) =>
      { s with
        store
        now := s.now + stops.elapsed
        operations := s.operations.set operation (.answered (.rejected failure)) }
    | some (store, .ok slots) =>
      { s with
        store
        now := s.now + stops.elapsed
        operations := s.operations.set operation (.published prepared slots)
        publications := s.publications ++
          [CommandService.publication prepared (s.now + stops.elapsed)] }
  | _ => s

def State.answer (s : State N C) (operation : Nat) (failure : Option ApiError) : State N C :=
  match s.operations[operation]? with
  | some (.published prepared slots) =>
    { s with
      operations := s.operations.set operation (.answered (outcome prepared slots failure)) }
  | _ => s

def State.step (s : State N C) : Event N C → State N C
  | .write command =>
    { s with session := s.session.step ontology parseFilter command }
  | .sweep =>
    match s.store.expire s.now with
    | none => { s with panicked := true }
    | some store => { s with store }
  | .tick elapsed => { s with now := s.now + elapsed }
  | .prepare caller request stops =>
    let stage := match service.prepare s.session.graph caller request stops with
      | .error failure => .answered (.rejected failure)
      | .ok prepared => .prepared prepared
    { s with operations := s.operations ++ [stage] }
  | .publish operation stops => s.publish service operation stops
  | .answer operation failure => s.answer operation failure

def State.run (s : State N C) (events : List (Event N C)) : State N C :=
  events.foldl (State.step service ontology parseFilter) s

end

end Command
end App
end Haystack
