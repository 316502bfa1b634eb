import Mathlib.Data.List.Basic

/-!
# The application's lifecycle

One coordinator initialises the resources of an application, waits until the
owner is sealed, drains the admitted work and runs the cleanup hooks.  Requests,
resource tasks and the owner run beside it: each step below is one critical
section of one of them.  Deadlines fire at any time after they are due, and what
a resource's futures return is an argument of the step that observes it.
-/

namespace Haystack
namespace App
namespace Lifecycle

/-! ## Configuration and reports -/

inductive ApplicationState
  | starting
  | running
  | closing
  | closed
  | failed
  deriving DecidableEq

inductive ShutdownPhase
  | tasks
  | resources
  deriving DecidableEq

inductive ApplicationError
  | notReady
  | closed
  | configuration (message : String)
  | abandoned
  | startupTimeout
  | resource (resource message : String)
  | task (name : String)
  | shutdownTimeout (phase : ShutdownPhase) (outstanding : Nat)
  deriving DecidableEq

/-- Durations are in nanoseconds. -/
structure ShutdownPolicy where
  drainTimeout : Nat
  stopTimeout : Nat

def hour : Nat := 3600 * 1000000000

def ShutdownPolicy.validate (policy : ShutdownPolicy) : Except ApplicationError Unit :=
  if policy.drainTimeout > hour ∨ policy.stopTimeout = 0 ∨ policy.stopTimeout > hour then
    .error (.configuration "shutdown durations must be finite and stop must be positive")
  else .ok ()

def validateStartup (timeout : Nat) : Except ApplicationError Unit :=
  if timeout = 0 ∨ timeout > hour then
    .error (.configuration "startup timeout must be positive and at most one hour")
  else .ok ()

structure ListenerInfo where
  resource : String
  address : String
  deriving DecidableEq

structure ReadyInfo where
  listeners : List ListenerInfo
  deriving DecidableEq

structure CloseReport where
  drainExpired : Bool
  deriving DecidableEq

structure TerminationReport where
  close : Except ApplicationError CloseReport
  cleanupErrors : List ApplicationError

/-- The resources that are registered with a builder, by their names. -/
structure BuildParts where
  history : Bool
  subscriptions : Bool
  commands : Bool
  resources : List String

/-- The order of initialisation: the application's own resources come first. -/
def BuildParts.ordered (parts : BuildParts) : List String :=
  (if parts.history then ["history"] else []) ++
  (if parts.subscriptions then ["state subscriptions"] else []) ++
  (if parts.commands then ["local command simulator"] else []) ++
  parts.resources

/-! ## The shared record -/

structure Control where
  state : ApplicationState
  closeStarted : Option Nat
  ready : Option ReadyInfo
  failure : Option ApplicationError
  close : Option (Except ApplicationError CloseReport)
  termination : Option TerminationReport

/-- A resource task that fails reports its error, seals the owner and leaves. -/
inductive TaskStage
  | running
  | failing
  | leaving
  deriving DecidableEq

inductive Registration
  | work
  | task (name : String) (stage : TaskStage)
  deriving DecidableEq

/-- Registrations by number.  A released one leaves `none`. -/
structure TaskTracker where
  closed : Bool
  registrations : List (Option Registration)

namespace TaskTracker

def register (tasks : TaskTracker) (registration : Registration) : TaskTracker :=
  { tasks with
    registrations := tasks.registrations ++ [some registration] }

def set (tasks : TaskTracker) (index : Nat) (registration : Option Registration) : TaskTracker :=
  { tasks with registrations := tasks.registrations.set index registration }

/-- The registration with a number, if it is outstanding. -/
def holder (tasks : TaskTracker) (index : Nat) : Option Registration :=
  (tasks.registrations[index]?).join

def len (tasks : TaskTracker) : Nat := tasks.registrations.countP Option.isSome

/-- Nothing is outstanding. -/
def Idle (tasks : TaskTracker) : Prop := ∀ registration ∈ tasks.registrations, registration = none

instance (tasks : TaskTracker) : Decidable tasks.Idle :=
  inferInstanceAs (Decidable (∀ registration ∈ tasks.registrations, registration = none))

/-- `wait` returns once the tracker is closed and empty. -/
def waited (tasks : TaskTracker) : Bool := tasks.closed && decide tasks.Idle

end TaskTracker

structure Life where
  control : Control
  tasks : TaskTracker
  stop : Bool
  sealed : Bool

namespace Life

def new : Life where
  control := ⟨.starting, none, none, none, none, none⟩
  tasks := ⟨false, []⟩
  stop := false
  sealed := false

/-- A guard is the number of its registration. -/
def admission (life : Life) : Except ApplicationError Nat × Life :=
  match life.control.state with
  | .running =>
    (.ok life.tasks.registrations.length, { life with tasks := life.tasks.register .work })
  | .starting => (.error .notReady, life)
  | _ => (.error .closed, life)

/-- A resource may start its tasks only before readiness. -/
def spawn (life : Life) (name : String) : Except ApplicationError Nat × Life :=
  if life.control.state = .starting then
    (.ok life.tasks.registrations.length,
      { life with tasks := life.tasks.register (.task name .running) })
  else (.error .closed, life)

/-- A child continues the work of its parent, also during the drain. -/
def child (life : Life) (guard : Nat) : Life :=
  match life.tasks.holder guard with
  | some .work => { life with tasks := life.tasks.register .work }
  | _ => life

def sealOwner (life : Life) (now : Nat) : Life :=
  if life.control.closeStarted.isNone then
    { life with
      control :=
        { life.control with
          closeStarted := some now
          state := if life.control.state = .failed then .failed
            else .closing }
      tasks := { life.tasks with closed := true }
      sealed := true }
  else life

/-- The first critical section of `fail`.  The second one is `sealOwner`. -/
def report (life : Life) (error : ApplicationError) : Life :=
  if life.control.termination.isSome then life
  else
    { life with
      control :=
        { life.control with
          failure := life.control.failure.or (some error)
          state := .failed } }

def running (life : Life) (ready : ReadyInfo) : Life :=
  if life.control.state = .starting then
    { life with
      control := { life.control with ready := some ready, state := .running } }
  else life

/-- The last critical section of `timed_out`. -/
def setClose (life : Life) (error : ApplicationError) : Life :=
  { life with
    control := { life.control with close := life.control.close.or (some (.error error)) } }

def finish (life : Life) (result : Except ApplicationError CloseReport)
    (cleanupErrors : List ApplicationError) : Life :=
  let close := life.control.close.getD result
  { life with
    control :=
      { life.control with
        close := some close
        state := if close.isOk then .closed else .failed
        termination := some ⟨close, cleanupErrors⟩ } }

end Life

/-! ## The coordinator -/

inductive Hook
  | rollback (index : Nat)
  | close (index : Nat)
  deriving DecidableEq

def Hook.index : Hook → Nat
  | .rollback index => index
  | .close index => index

/-- The critical sections a thread still has to run before it goes on. -/
inductive Action
  | sealOwner
  | setClose (error : ApplicationError)
  | finish (result : Except ApplicationError CloseReport) (cleanupErrors : List ApplicationError)

/-- Where the coordinator stands; `building` is before `start`. -/
inductive Phase
  | building
  | starting (index : Nat)
  | initializing (index : Nat)
  | started
  | serving
  | draining
  | stopping
  | overdue
  | cleaning (remaining : List Hook)
  | hooking (hook : Hook) (late : Bool) (remaining : List Hook)
  | settling
  | terminated
  deriving DecidableEq

structure Coordinator where
  phase : Phase
  pending : List Action
  startupDeadline : Nat
  policy : ShutdownPolicy
  initialized : Nat
  partialIndex : Option Nat
  ready : ReadyInfo
  drainEnd : Nat
  stopEnd : Nat
  drainExpired : Bool
  cleanupErrors : List ApplicationError

/-- The hooks that are due: the partial start first, then the initialised
resources from the last to the first. -/
def Coordinator.hooks (coordinator : Coordinator) : List Hook :=
  (coordinator.partialIndex.map Hook.rollback).toList ++
    (List.range coordinator.initialized).reverse.map Hook.close

/-- What has happened.  No step reads it. -/
structure Record where
  reported : List ApplicationError
  attempted : List Nat
  succeeded : List Nat
  begun : List Hook
  finished : List Hook
  published : Nat

structure State where
  life : Life
  now : Nat
  coordinator : Coordinator
  record : Record

/-- What the coordinator wakes up for.  A future that panics has no result. -/
inductive Wake
  | next
  | deadline
  | initialized (result : Option (Except ApplicationError ReadyInfo))
  | cleaned (result : Option (Except ApplicationError Unit))

inductive TaskEnd
  | returned
  | failed (error : ApplicationError)
  | panicked
  | aborted

/-- The error that an ending of a task reports. -/
def TaskEnd.error (name : String) : TaskEnd → Option ApplicationError
  | .failed error => some error
  | .panicked => some (.task name)
  | _ => none

inductive Event
  | tick (elapsed : Nat)
  | start (policy : ShutdownPolicy) (startupTimeout : Nat)
  | abandon
  | admission
  | child (guard : Nat)
  | release (guard : Nat)
  | spawn (name : String)
  | finishTask (task : Nat) (ending : TaskEnd)
  | leave (task : Nat)
  | requestClose
  | coordinate (wake : Wake)

namespace State

def initial (now : Nat) : State where
  life := .new
  now
  coordinator := ⟨.building, [], 0, ⟨0, 0⟩, 0, none, ⟨[]⟩, 0, 0, false, []⟩
  record := ⟨[], [], [], [], [], 0⟩

/-- The first critical section of `fail`, with the sections that follow it. -/
def fail (s : State) (error : ApplicationError) (following : List Action) : State :=
  { s with
    life := s.life.report error
    coordinator :=
      { s.coordinator with
        pending := (if s.life.control.termination.isSome then []
          else [.sealOwner]) ++ following }
    record := { s.record with reported := s.record.reported ++ [error] } }

def timedOut (s : State) (phase : ShutdownPhase) : State :=
  let error := .shutdownTimeout phase s.life.tasks.len
  s.fail error [.setClose error]

def goto (s : State) (phase : Phase) : State :=
  { s with coordinator := { s.coordinator with phase } }

/-- Dropping a builder that was not started. -/
def abandon (s : State) : State :=
  (s.fail .abandoned [.finish (.error .abandoned) []]).goto .terminated

def start (s : State) (policy : ShutdownPolicy) (startupTimeout : Nat) : State :=
  match policy.validate, validateStartup startupTimeout with
  | .ok (), .ok () =>
    { s with
      coordinator :=
        { s.coordinator with
          phase := .starting 0
          policy
          startupDeadline := s.now + startupTimeout } }
  | _, _ => s.abandon

/-- One critical section that the coordinator has left to run. -/
def perform (s : State) (action : Action) (rest : List Action) : State :=
  let s := { s with coordinator := { s.coordinator with pending := rest } }
  match action with
  | .sealOwner => { s with life := s.life.sealOwner s.now }
  | .setClose error => { s with life := s.life.setClose error }
  | .finish result cleanupErrors =>
    { s with
      life := s.life.finish result cleanupErrors
      record := { s.record with published := s.record.published + 1 } }

/-- The resource at `index` has not been initialised. -/
def abort (s : State) (index : Nat) : State :=
  { s with
    coordinator := { s.coordinator with phase := .started, partialIndex := some index } }

/-- The registration of a task can lose against sealing; that is no failure of
the resource. -/
def initializeFailed (s : State) (index : Nat) (error : ApplicationError) : State :=
  if error = .closed ∧ s.life.sealed then s.abort index
  else (s.abort index).fail error []

def initializeSucceeded (s : State) (index : Nat) (info : ReadyInfo) : State :=
  { s with
    coordinator :=
      { s.coordinator with
        phase := .starting (index + 1)
        initialized := s.coordinator.initialized + 1
        ready := ⟨s.coordinator.ready.listeners ++ info.listeners⟩ }
    record := { s.record with succeeded := s.record.succeeded ++ [index] } }

/-- Enter the drain with the deadlines that the time of sealing gives. -/
def drain (s : State) : State :=
  let start := s.life.control.closeStarted.getD 0
  let drainEnd := start + s.coordinator.policy.drainTimeout
  { s with
    coordinator :=
      { s.coordinator with
        phase := .draining
        drainEnd
        stopEnd := drainEnd + s.coordinator.policy.stopTimeout } }

def stopWork (s : State) (drainExpired : Bool) : State :=
  { s with
    life := { s.life with stop := true }
    coordinator := { s.coordinator with phase := .stopping, drainExpired } }

def beginHook (s : State) (hook : Hook) (remaining : List Hook) : State :=
  { s.goto (.hooking hook false remaining) with
    record := { s.record with begun := s.record.begun ++ [hook] } }

def endHook (s : State) (hook : Hook) (remaining : List Hook) : State :=
  { s.goto (.cleaning remaining) with
    record := { s.record with finished := s.record.finished ++ [hook] } }

def cleanupFailed (s : State) (error : ApplicationError) : State :=
  let s := { s with
    coordinator :=
      { s.coordinator with
        cleanupErrors := s.coordinator.cleanupErrors ++ [error] } }
  s.fail error []

/-- The result of the shutdown, read before it is published. -/
def settle (s : State) : State :=
  let result := match s.life.control.failure with
    | some error => .error error
    | none => .ok ⟨s.coordinator.drainExpired⟩
  { s with
    coordinator :=
      { s.coordinator with
        phase := .terminated
        pending := [.finish result s.coordinator.cleanupErrors] } }

section

variable (names : List String)

/-- The coordinator in a phase, with nothing left of an earlier call. -/
def advance (s : State) (wake : Wake) : State :=
  match s.coordinator.phase, wake with
  | .starting index, .next =>
    if s.life.sealed ∨ names.length ≤ index then s.goto .started
    else
      { s.goto (.initializing index) with
        record := { s.record with attempted := s.record.attempted ++ [index] } }
  | .initializing index, .next =>
    if s.life.sealed then s.abort index else s
  | .initializing index, .deadline =>
    if s.coordinator.startupDeadline ≤ s.now then
      (s.abort index).fail .startupTimeout []
    else s
  | .initializing index, .initialized result =>
    match result.getD (.error (.resource (names.getD index "") "initialization panicked")) with
    | .ok info => s.initializeSucceeded index info
    | .error error => s.initializeFailed index error
  | .started, .next =>
    if s.coordinator.initialized = names.length then
      { s with life := s.life.running s.coordinator.ready }.goto .serving
    else s.goto .serving
  | .serving, .next => if s.life.sealed then s.drain else s
  | .draining, .next => if s.life.tasks.waited then s.stopWork false else s
  | .draining, .deadline =>
    if s.coordinator.drainEnd ≤ s.now then s.stopWork true else s
  | .stopping, .next =>
    if s.life.tasks.waited then s.goto (.cleaning s.coordinator.hooks) else s
  | .stopping, .deadline =>
    if s.coordinator.stopEnd ≤ s.now then (s.timedOut .tasks).goto .overdue
    else s
  | .overdue, .next =>
    if s.life.tasks.waited then s.goto (.cleaning s.coordinator.hooks) else s
  | .cleaning (hook :: remaining), .next => s.beginHook hook remaining
  | .cleaning [], .next => s.goto .settling
  | .hooking hook false remaining, .deadline =>
    if s.coordinator.stopEnd ≤ s.now then
      (s.timedOut .resources).goto (.hooking hook true remaining)
    else s
  | .hooking hook _ remaining, .cleaned result =>
    match result.getD (.error (.resource (names.getD hook.index "") "cleanup panicked")) with
    | .ok () => s.endHook hook remaining
    | .error error => (s.endHook hook remaining).cleanupFailed error
  | .settling, .next => s.settle
  | _, _ => s

def coordinate (s : State) (wake : Wake) : State :=
  match s.coordinator.pending with
  | action :: rest => s.perform action rest
  | [] => s.advance names wake

def taskStage (s : State) (task : Nat) (stage : Option TaskStage) (name : String) : State :=
  { s with
    life :=
      { s.life with
        tasks := s.life.tasks.set task (stage.map (Registration.task name)) } }

/-- A task reports its failure while it is still registered. -/
def finishTask (s : State) (task : Nat) (ending : TaskEnd) : State :=
  match s.life.tasks.holder task with
  | some (.task name .running) =>
    match ending.error name with
    | none => s.taskStage task none name
    | some error =>
      let stage := if s.life.control.termination.isSome then .leaving
        else .failing
      { s with
        life := s.life.report error
        record := { s.record with reported := s.record.reported ++ [error] } }
        |>.taskStage task (some stage) name
  | _ => s

/-- The rest of a failed task: it seals the owner, then its future is dropped. -/
def leave (s : State) (task : Nat) : State :=
  match s.life.tasks.holder task with
  | some (.task name .failing) =>
    { s with life := s.life.sealOwner s.now }.taskStage task (some .leaving) name
  | some (.task name .leaving) => s.taskStage task none name
  | _ => s

def release (s : State) (guard : Nat) : State :=
  match s.life.tasks.holder guard with
  | some .work =>
    { s with life := { s.life with tasks := s.life.tasks.set guard none } }
  | _ => s

def step (s : State) : Event → State
  | .tick elapsed => { s with now := s.now + elapsed }
  | .start policy startupTimeout =>
    if s.coordinator.phase = .building then s.start policy startupTimeout
    else s
  | .abandon => if s.coordinator.phase = .building then s.abandon else s
  | .admission => { s with life := s.life.admission.2 }
  | .child guard => { s with life := s.life.child guard }
  | .release guard => s.release guard
  | .spawn name =>
    if s.coordinator.phase = .building then s
    else { s with life := (s.life.spawn name).2 }
  | .finishTask task ending => s.finishTask task ending
  | .leave task => s.leave task
  | .requestClose =>
    if s.coordinator.phase = .building then s
    else { s with life := s.life.sealOwner s.now }
  | .coordinate wake => s.coordinate names wake

def run (s : State) (events : List Event) : State := events.foldl (step names) s

end

end State
end Lifecycle
end App
end Haystack
