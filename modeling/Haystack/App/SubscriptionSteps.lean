import Haystack.App.SubscriptionSystem

/-!
# Steps of the subscription system

What one step can do: an operation moves on by itself, an entry is registered, a
record is replaced or comes to its end, entries leave the registry, or the world
around the registry changes.
-/

namespace Haystack
namespace App
namespace Subscription

open Std (ExtTreeMap)
open Collections Haystack.Graph
open Haystack.Filter (FilterNode Ontology)

/-- The record that an operation has read. -/
def Stage.record : Stage → Option (Hold × Record)
  | .seen hold record => some (hold, record)
  | .closing hold record => some (hold, record)
  | .capturing hold record _ => some (hold, record)
  | .captured hold record _ _ => some (hold, record)
  | .prepared hold record _ _ _ => some (hold, record)
  | _ => none

@[simp] theorem Hold.record_finish (hold : Hold) (answer : Answer) :
    (hold.finish answer).record = none := by
  unfold Hold.finish
  split <;> rfl

/-- The ids that an operation captures for a record. -/
inductive Started : Request → Record → List String → Prop
  | create (create : SubscriptionCreate) (legacy : Bool)
      (connection : Option (BitVec 128)) (revision : Nat) :
      Started (.native (.create create) legacy connection)
        ⟨revision, .preparing⟩ (normalize create.ids)
  | replace (watch : SubscriptionId) (live : Live) (ids : List String)
      (legacy : Bool) (connection : Option (BitVec 128)) (revision : Nat) :
      Started (.native (.replace watch live.scope ids) legacy connection)
        ⟨revision, .live live⟩ (normalize ids)
  | live (live : Live) (request : SubscriptionRequest) (legacy : Bool)
      (connection : Option (BitVec 128)) (revision : Nat)
      (kept : ∀ watch scope ids, request ≠ .replace watch scope ids) :
      Started (.native request legacy connection) ⟨revision, .live live⟩ live.ids
  | newWatch (request : WatchRequest) (policyScope : String) (revision : Nat) :
      Started (.typed request policyScope) ⟨revision, .preparing⟩ (request.captures [])
  | watch (request : WatchRequest) (policyScope : String) (live : WatchLive) (revision : Nat) :
      Started (.typed request policyScope) ⟨revision, .watch live⟩
        (request.captures live.members.keys)

/-- What an operation captures. -/
def CapturedBy (service : Service) (policy : PolicySnapshot) (g : EntityGraph N C)
    (request : Request) (record : Record) (ids : List String)
    (captured : Capture) : Prop :=
  let watch := match request with
    | .native .. => none
    | .typed _ policyScope =>
      some ⟨State.previousWatch record, ids, policyScope⟩
  capture service.limits service.codec policy g ids (State.previousLive record)
    watch = .ok captured

/-- What an operation prepares from its capture. -/
inductive PreparedBy (service : Service) (sessions : Nat → SubscriptionSession) (now : Nat)
    (identity : SubscriptionId) (operation : Operation) (record : Record)
    (ids : List String) (capture : Capture)
    (token : BitVec 128) : Record → Answer → Prop
  | native (request : SubscriptionRequest) (legacy : Bool)
      (connection : Option (BitVec 128)) (next : Record)
      (outcome : SubscriptionOutcome)
      (requested : operation.request = .native request legacy connection)
      (result : service.prepare identity request record ids capture now token =
        .ok (next, outcome)) :
      PreparedBy service sessions now identity operation record ids capture token
        next (.native (.ok outcome))
  | typed (request : WatchRequest) (policyScope : String) (next : Record) (grid : WatchGrid)
      (requested : operation.request = .typed request policyScope)
      (kept : (capture.watch.getD .empty).deleted = false)
      (result : service.prepareWatch identity.watch request record
        (State.previousWatch record) capture (capture.watch.getD .empty)
        (sessions operation.session).expires now = .ok (next, grid)) :
      PreparedBy service sessions now identity operation record ids capture token
        next (.typed (.ok grid))

namespace State

section

variable {N C : Type} (service : Service) (sessions : Nat → SubscriptionSession)
variable (policies : Principal → PolicySnapshot)

/-- An operation moves on by itself. -/
inductive Local (s : State N C) (operation : Operation) (action : Action) : Stage → Prop
  | quiet {stage : Stage} (unread : stage.record = none) : Local s operation action stage
  | read {hold : Hold} {entry : Entry} (stage : operation.stage = .checked hold)
      (found : s.heap[hold.entry]? = some entry) :
      Local s operation action (.seen hold entry.record)
  | closing {hold : Hold} {revision : Nat} {live : WatchLive}
      (stage : operation.stage = .seen hold ⟨revision, .watch live⟩) :
      Local s operation action (.closing hold ⟨revision, .watch live⟩)
  | started {hold : Hold} {record : Record} {ids : List String}
      (stage : operation.stage = .seen hold record)
      (started : Started operation.request record ids) :
      Local s operation action (.capturing hold record ids)
  | captured {hold : Hold} {record : Record} {ids : List String} {capture : Capture}
      (stage : operation.stage = .capturing hold record ids)
      (captured : CapturedBy service (policies operation.principal)
        s.store.graph operation.request record ids capture) :
      Local s operation action (.captured hold record ids capture)
  | prepared {hold : Hold} {record : Record} {ids : List String}
      {capture : Capture} {entry : Entry} {token : BitVec 128} {next : Record}
      {answer : Answer}
      (stage : operation.stage = .captured hold record ids capture)
      (acted : action = .prepare token)
      (found : s.heap[hold.entry]? = some entry)
      (prepared : PreparedBy service sessions s.now entry.identity operation
        record ids capture token next answer) :
      Local s operation action (.prepared hold record capture.graph next answer)
  | closed {hold : Hold} {record : Record} {revision : Nat}
      (stage : operation.stage = .closing hold record)
      (counted : checkedAdd u64Max record.revision 1 = some revision) :
      Local s operation action (.prepared hold record s.store.graph.state
        ⟨revision, .closed⟩ (.typed (.ok .new)))

/-- Some entries come to their end or leave the registry. -/
inductive Swept (s : State N C) : State N C → Prop
  | refl : Swept s s
  | expired {after : State N C} (rest : Swept s after) {ptr : Nat} {entry : Entry}
      (found : after.heap[ptr]? = some entry) :
      Swept s (after.setEntry ptr (after.maintained entry))
  | unregistered {after : State N C} (rest : Swept s after)
      {watch : BitVec 128} {ptr : Nat} {entry : Entry}
      (found : after.heap[ptr]? = some entry)
      (registered : after.table.entries[watch]? = some ptr) :
      Swept s (after.unregister sessions watch entry)
  | detached {after : State N C} (rest : Swept s after)
      {watch : BitVec 128} {ptr : Nat} {entry : Entry}
      (found : after.heap[ptr]? = some entry)
      (registered : after.table.entries[watch]? = some ptr) :
      Swept s ((after.setEntry ptr { entry with active := false }).unregister
        sessions watch entry)

/-- A new entry that may be registered. -/
structure Admits (s : State N C) (entry : Entry) : Prop where
  fresh : s.isFresh entry.identity.watch = true
  unbound : s.table.bindings[bindingKey sessions entry]? = none
  room : s.isFull service entry.session entry.reservation = false
  active : entry.active = true
  record : entry.record = ⟨0, .preparing⟩

/-- What one step of the system does. -/
inductive Stepped (s : State N C) : Event N C → State N C → Prop
  | idle (event : Event N C) : Stepped s event s
  | submitted (principal : Principal) (session : Nat) (request : Request) :
      Stepped s (.submit principal session request) { s with
          operations := s.operations ++ [⟨principal, session, request, .received⟩] }
  | advanced {index : Nat} {operation : Operation} {action : Action} {stage : Stage}
      (found : s.operations[index]? = some operation)
      (moved : s.Local service sessions policies operation action stage) :
      Stepped s (.act index action) (s.setStage index stage)
  | registered {index : Nat} {operation : Operation} {watch : BitVec 128} {entry : Entry}
      (found : s.operations[index]? = some operation)
      (drawn : entry.identity.watch = watch)
      (admits : s.Admits service sessions entry) :
      Stepped s (.act index (.enter watch)) (s.register sessions index entry)
  | published {index : Nat} {operation : Operation} {hold : Hold}
      {record next : Record} {observed : GraphState} {answer : Answer}
      {closed contended : Bool} {entry : Entry} {growth : Nat}
      (found : s.operations[index]? = some operation)
      (stage : operation.stage = .prepared hold record observed next answer)
      (done : s.publication service sessions operation hold record observed next
        closed contended = .done entry growth) :
      Stepped s (.act index (.publish closed contended)) (({ s with
          heap := s.heap.set hold.entry entry
          table := { s.table with
            reservedBytes := s.table.reservedBytes + growth } }).setStage index
          (.answered answer))
  | ended {index : Nat} {operation : Operation} {hold : Hold} {entry : Entry}
      {revision : Nat} {reason : SubscriptionResync} {answer : Answer}
      (found : s.operations[index]? = some operation)
      (held : s.heap[hold.entry]? = some entry)
      (counted : checkedAdd u64Max entry.record.revision 1 = some revision) :
      Stepped s (.act index .finish) ((s.setEntry hold.entry { entry with
          active := false
          record := ⟨revision, .resync reason⟩ }).setStage index
          (hold.finish answer))
  | released {index : Nat} {operation : Operation} {after : State N C} {answer : Answer}
      (found : s.operations[index]? = some operation)
      (swept : Swept sessions s after) :
      Stepped s (.act index .release) (after.setStage index (.answered answer))
  | swept {event : Event N C} {after : State N C} (swept : Swept sessions s after) :
      Stepped s event after
  | closedSession (session : Nat) : Stepped s (.closeSession session)
        { s with closedSessions := session :: s.closedSessions }
  | stopped : Stepped s .stop { s with stopped := true }
  | cleared (stopped : s.stopped = true) : Stepped s .clear { s with table := .empty }
  | ticked (elapsed : Nat) : Stepped s (.tick elapsed) { s with now := s.now + elapsed }
  | written (ontology : Ontology N C) (parseFilter : String → Except String FilterNode)
      (command : Command N C) :
      Stepped s (.write command) { s with store := s.store.step ontology parseFilter command }

variable {service sessions policies} {s : State N C} {index : Nat} {operation : Operation}

/-! ## Steps of operations -/

variable {action : Action}

theorem Stepped.quiet {stage : Stage} (found : s.operations[index]? = some operation)
    (unread : stage.record = none) :
    Stepped service sessions policies s (.act index action) (s.setStage index stage) :=
  .advanced found (.quiet unread)

theorem record_admitNative (request : SubscriptionRequest) (legacy closed : Bool) :
    (s.admitNative service sessions policies operation request legacy closed).record = none := by
  unfold admitNative
  dsimp only
  repeat' split
  all_goals rfl

theorem record_admitTyped (request : WatchRequest) :
    (s.admitTyped service sessions operation request).record = none := by
  unfold admitTyped
  dsimp only
  repeat' split
  all_goals rfl

theorem record_checkRound (hold : Hold) (closed : Bool) :
    (s.checkRound sessions operation hold closed).record = none := by
  unfold checkRound
  dsimp only
  repeat' split
  all_goals first | rfl | exact hold.record_finish _

theorem record_failNative (hold : Hold) (record : Record) (preparing : Bool) (error : ReadError) :
    (failNative hold record preparing error).record = none := by
  unfold failNative
  repeat' split
  all_goals first | rfl | exact hold.record_finish _

theorem record_failCapture (hold : Hold) (record : Record) (error : ReadError) :
    (failCapture hold record error).record = none := by
  unfold failCapture
  split
  · rfl
  · exact hold.record_finish _

variable {hold : Hold} {record : Record} {legacy : Bool}
variable {connection : Option (BitVec 128)} {request : SubscriptionRequest}

theorem Local.startNative (requested : operation.request = .native request legacy connection)
    (stage : operation.stage = .seen hold record) (identity : SubscriptionId) :
    s.Local service sessions policies operation action
      (s.startNative service hold record identity request) := by
  obtain ⟨_, status⟩ := record
  unfold State.startNative
  cases status with
  | closed | resync reason | watch live => exact .quiet (hold.record_finish _)
  | preparing =>
    dsimp only
    split
    · exact .quiet (hold.record_finish _)
    · split
      · next create =>
        exact .started stage (requested ▸ .create create _ _ _)
      · exact .quiet (hold.record_finish _)
  | live live =>
    dsimp only
    split
    · exact .quiet rfl
    · unfold startLive
      split
      · next watch scope ids =>
        split
        · exact .quiet (hold.record_finish _)
        · split
          · exact .quiet (hold.record_finish _)
          · next same _ =>
            obtain rfl := Decidable.not_not.mp same
            exact .started stage (requested ▸ .replace watch live ids _ _ _)
      · next kept =>
        exact .started stage (requested ▸ .live live request _ _ _ kept)

variable {policyScope : String}

theorem Local.startTyped {request : WatchRequest}
    (requested : operation.request = .typed request policyScope)
    (stage : operation.stage = .seen hold record) :
    s.Local service sessions policies operation action
      (s.startTyped service sessions policies operation hold record request policyScope) := by
  obtain ⟨_, status⟩ := record
  unfold State.startTyped
  cases status with
  | closed | resync reason | live live =>
    split <;> exact .quiet (hold.record_finish _)
  | preparing =>
    dsimp only
    split
    · split
      · exact .quiet (hold.record_finish _)
      · exact .started stage (requested ▸ .newWatch _ _ _)
    · split <;> exact .quiet (hold.record_finish _)
  | watch live =>
    dsimp only
    split
    · exact .quiet rfl
    · split
      · exact .closing stage
      · split
        · exact .quiet (hold.record_finish _)
        · exact .started stage (requested ▸ .watch _ _ live _)

variable {ids : List String}

theorem Local.captureNative (requested : operation.request = .native request legacy connection)
    (stage : operation.stage = .capturing hold record ids) :
    s.Local service sessions policies operation action
      (s.captureNative service (policies operation.principal) hold record ids) := by
  unfold State.captureNative
  split
  · next capture result =>
    refine .captured stage ?_
    rw [requested]
    exact result
  · exact .quiet (record_failNative _ _ _ _)
  · split
    · exact .quiet (hold.record_finish _)
    · exact .quiet rfl

theorem Local.captureTyped {request : WatchRequest}
    (requested : operation.request = .typed request policyScope)
    (stage : operation.stage = .capturing hold record ids) :
    s.Local service sessions policies operation action
      (s.captureTyped service (policies operation.principal) hold record ids policyScope) := by
  unfold State.captureTyped
  dsimp only
  split
  · next capture result =>
    refine .captured stage ?_
    rw [requested]
    exact result
  · exact .quiet (record_failCapture _ _ _)
  · split
    · exact .quiet rfl
    · exact .quiet (hold.record_finish _)

variable {entry : Entry} {capture : Capture}

theorem Local.prepareNative (requested : operation.request = .native request legacy connection)
    (stage : operation.stage = .captured hold record ids capture)
    (found : s.heap[hold.entry]? = some entry) (token : BitVec 128) :
    s.Local service sessions policies operation (.prepare token)
      (s.prepareNative service (policies operation.principal) entry.identity
        request hold record ids capture token) := by
  unfold State.prepareNative
  split
  · exact .quiet (record_failNative _ _ _ _)
  · next next outcome result =>
    split
    · exact .prepared stage rfl found
        (.native request legacy connection next outcome requested result)
    · exact .quiet rfl

theorem Local.prepareTyped {request : WatchRequest}
    (requested : operation.request = .typed request policyScope)
    (stage : operation.stage = .captured hold record ids capture)
    (found : s.heap[hold.entry]? = some entry) (token : BitVec 128) :
    s.Local service sessions policies operation (.prepare token)
      (s.prepareTyped service sessions (policies operation.principal)
        entry.identity.watch operation request hold record capture) := by
  unfold State.prepareTyped
  dsimp only
  split
  · exact .quiet rfl
  · next kept =>
    split
    · exact .quiet (hold.record_finish _)
    · next next grid result =>
      split
      · exact .prepared stage rfl found (.typed request policyScope next grid
          requested (Bool.eq_false_iff.mpr kept) result)
      · exact .quiet rfl

theorem Local.prepareClose (stage : operation.stage = .closing hold record) :
    s.Local service sessions policies operation action (s.prepareClose hold record) := by
  unfold State.prepareClose
  split
  · exact .quiet (hold.record_finish _)
  · next revision counted => exact .closed stage counted

theorem record_failStage (operation : Operation) (error : ReadError) :
    (failStage operation error).record = none := by
  obtain ⟨_, _, request, stage⟩ := operation
  cases request <;> cases stage <;> first
    | rfl
    | exact Hold.record_finish _ _
    | exact record_failNative _ _ _ _
    | exact record_failCapture _ _ _

/-! ## Steps on the registry -/

variable {watch : BitVec 128} (found : s.operations[index]? = some operation)

include found

theorem Stepped.enterCreate {create : SubscriptionCreate} {canonical : List UInt8} :
    Stepped service sessions policies s (.act index (.enter watch))
      (s.enterCreate service sessions index operation create canonical legacy
        connection watch) := by
  unfold State.enterCreate
  dsimp only
  split
  · split
    · exact .idle _
    · split
      · exact .idle _
      · split
        · exact .quiet found rfl
        · exact .quiet found rfl
  · next unbound =>
    split
    · exact .quiet found rfl
    · next room =>
      split
      · exact .idle _
      · next fresh =>
        refine .registered found rfl ⟨?_, unbound, ?_, rfl, rfl⟩
        · simpa using fresh
        · exact Bool.eq_false_iff.mpr room

theorem Stepped.enterNative :
    Stepped service sessions policies s (.act index (.enter watch))
      (s.enterNative service sessions index operation request legacy connection watch) := by
  unfold State.enterNative
  split
  · split
    · exact .idle _
    · exact .enterCreate found
  · split
    · exact .idle _
    · split
      · exact .quiet found rfl
      · split
        · exact .idle _
        · split
          · exact .quiet found rfl
          · exact .quiet found rfl

theorem Stepped.enterTyped {request : WatchRequest} :
    Stepped service sessions policies s (.act index (.enter watch))
      (s.enterTyped service sessions policies index operation request policyScope watch) := by
  unfold State.enterTyped
  split
  · unfold watchReserve
    dsimp only
    split
    · exact .quiet found rfl
    · next room =>
      split
      · exact .idle _
      · next drawn =>
        simp only [Bool.or_eq_true, Bool.not_eq_true', not_or, Bool.not_eq_false] at drawn
        have unbound : s.table.bindings[(⟨(sessions operation.session).id,
            idText watch⟩ : BindingKey)]? = none := by
          simpa using drawn.2
        exact .registered found rfl ⟨drawn.1, unbound, Bool.eq_false_iff.mpr room, rfl, rfl⟩
  · split
    · exact .quiet found rfl
    · split
      · split
        · exact .idle _
        · split
          · exact .quiet found rfl
          · exact .quiet found rfl
      · split
        · exact .quiet found rfl
        · exact .quiet found rfl

omit found

variable {answer : Answer}

theorem Stepped.publish {next : Record} {observed : GraphState}
    {closed contended : Bool} (found : s.operations[index]? = some operation)
    (stage : operation.stage = .prepared hold record observed next answer) :
    Stepped service sessions policies s (.act index (.publish closed contended))
      (s.publish service sessions policies index operation hold record observed
        next answer closed contended) := by
  unfold State.publish
  split
  · exact .quiet found rfl
  · exact .quiet found (hold.record_finish _)
  · exact .quiet found (hold.record_finish _)
  · next entry growth done => exact .published found stage done

theorem Stepped.terminal {revision : Nat} {reason : SubscriptionResync}
    (found : s.operations[index]? = some operation) :
    Stepped service sessions policies s (.act index .finish)
      (s.terminal index operation hold revision reason answer) := by
  unfold State.terminal
  split
  · exact .idle _
  · next entry held =>
    split
    · exact .quiet found rfl
    · next same =>
      obtain rfl := Decidable.not_not.mp same
      split
      · exact .quiet found (hold.record_finish _)
      · next counted => exact .ended found held counted

theorem Swept.remove (s : State N C) (ptr : Nat) : Swept sessions s (s.remove sessions ptr) := by
  unfold State.remove
  split
  · exact .refl
  · next entry found =>
    split
    · next registered => exact .unregistered .refl found registered
    · exact .refl

theorem Stepped.perform (found : s.operations[index]? = some operation) (action : Action) :
    Stepped service sessions policies s (.act index action)
      (s.perform service sessions policies index operation action) := by
  unfold State.perform
  split
  · exact .quiet found (record_admitNative _ _ _)
  · exact .quiet found (record_admitTyped _)
  · exact .enterNative found
  · exact .enterTyped found
  · exact .quiet found (record_checkRound _ _)
  · next hold stage =>
    split
    · exact .idle _
    · next entry held => exact .advanced found (.read stage held)
  · next stage requested =>
    split
    · exact .idle _
    · exact .advanced found (.startNative requested stage _)
  · next stage requested => exact .advanced found (.startTyped requested stage)
  · next stage requested =>
    exact .advanced found (.captureNative requested stage)
  · next stage requested => exact .advanced found (.captureTyped requested stage)
  · next stage requested =>
    split
    · exact .idle _
    · next entry held =>
      exact .advanced found (.prepareNative requested stage held _)
  · next stage requested =>
    split
    · exact .idle _
    · next entry held =>
      exact .advanced found (.prepareTyped requested stage held _)
  · next stage => exact .advanced found (.prepareClose stage)
  · next stage => exact .publish found stage
  · exact .terminal found
  · exact .released found (.remove s _)
  · exact .quiet found (record_failStage _ _)
  · exact .idle _

/-! ## Sweeps -/

theorem getElem?_setEntry_self {ptr : Nat} (found : s.heap[ptr]? = some entry) (after : Entry) :
    (s.setEntry ptr after).heap[ptr]? = some after :=
  List.getElem?_set_self (List.getElem?_eq_some_iff.mp found).1

theorem getElem?_unregister_of_ne
    {watch other : BitVec 128} (different : other ≠ watch) (entry : Entry) :
    (s.unregister sessions watch entry).table.entries[other]? = s.table.entries[other]? := by
  simp only [unregister, ExtTreeMap.getElem?_erase]
  rw [if_neg (by simpa using different.symm)]

/-- A visit to a registered entry, which leaves the other ones registered. -/
def Visits (sessions : Nat → SubscriptionSession) (s : State N C)
    (visit : State N C → BitVec 128 × Nat → State N C) : Prop :=
  ∀ after item, Swept sessions s after → after.table.entries[item.1]? = some item.2 →
    Swept sessions s (visit after item) ∧
      ∀ watch, watch ≠ item.1 → (visit after item).table.entries[watch]? =
        after.table.entries[watch]?

theorem visits_maintainEntry (busy : List Nat) :
    Visits sessions s (maintainEntry sessions busy) := by
  intro after item swept registered
  unfold maintainEntry
  split
  · exact ⟨swept, fun _ _ => rfl⟩
  · next entry found =>
    split
    · exact ⟨.unregistered swept found registered,
        fun _ different => getElem?_unregister_of_ne different entry⟩
    · split
      · exact ⟨swept, fun _ _ => rfl⟩
      · dsimp only
        have expired := swept.expired found
        have ended := getElem?_setEntry_self found (after.maintained entry)
        split
        · exact ⟨.unregistered expired ended registered,
            fun _ different => getElem?_unregister_of_ne different _⟩
        · exact ⟨expired, fun _ _ => rfl⟩

theorem visits_detachEntry (connection : BitVec 128) :
    Visits sessions s (detachEntry sessions connection) := by
  intro after item swept registered
  unfold detachEntry
  split
  · exact ⟨swept, fun _ _ => rfl⟩
  · next entry found =>
    split
    · exact ⟨.detached swept found registered,
        fun _ different => getElem?_unregister_of_ne different entry⟩
    · exact ⟨swept, fun _ _ => rfl⟩

/-- A pass over the registered entries finds each of them registered, because it
takes no other entry out. -/
theorem Swept.foldl {visit : State N C → BitVec 128 × Nat → State N C}
    (visits : Visits sessions s visit) :
    Swept sessions s (s.table.entries.toList.foldl visit s) := by
  have pass : ∀ (items : List (BitVec 128 × Nat)) (after : State N C),
      items.Pairwise (fun left right => left.1 ≠ right.1) →
      (∀ item ∈ items, after.table.entries[item.1]? = some item.2) →
      Swept sessions s after → Swept sessions s (items.foldl visit after) := by
    intro items
    induction items with
    | nil => exact fun _ _ _ swept => swept
    | cons item items ih =>
      intro after distinct registered swept
      obtain ⟨others, distinct⟩ := List.pairwise_cons.mp distinct
      obtain ⟨visited, kept⟩ := visits after item swept (registered item List.mem_cons_self)
      refine ih _ distinct (fun other member => ?_) visited
      rw [kept other.1 (others other member).symm]
      exact registered other (.tail _ member)
  refine pass _ s (pairwise_toList _) (fun item member => ?_) .refl
  exact ExtTreeMap.mem_toList_iff_getElem?_eq_some.mp member

/-- Every step of the system is one of the kinds above. -/
theorem stepped (ontology : Ontology N C) (parseFilter : String → Except String FilterNode)
    (event : Event N C) :
    Stepped service sessions policies s event
      (s.step service sessions policies ontology parseFilter event) := by
  cases event with
  | submit principal session request => exact .submitted principal session request
  | act index action =>
    unfold State.step
    dsimp only
    split
    · exact .idle _
    · next operation found => exact .perform found action
  | maintain busy => exact .swept (.foldl (visits_maintainEntry busy))
  | detach connection => exact .swept (.foldl (visits_detachEntry connection))
  | closeSession session => exact .closedSession session
  | stop => exact .stopped
  | clear =>
    unfold State.step
    dsimp only
    split
    · next stopped => exact .cleared stopped
    · exact .idle _
  | tick elapsed => exact .ticked elapsed
  | write command => exact .written ontology parseFilter command

end

end State
end Subscription
end App
end Haystack
