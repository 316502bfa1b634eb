import Haystack.App.Lifecycle

/-!
# What every lifecycle keeps

The invariant has three parts: the shared record is consistent, the books of
initialisations and hooks follow the coordinator's phase, and the phase agrees
with the record.  Each critical section keeps all three.
-/

namespace Haystack
namespace App
namespace Lifecycle

/-- The owner has left the states in which it takes work. -/
def Control.Left (control : Control) : Prop :=
  control.state ≠ .starting ∧ control.state ≠ .running

/-! ## The shared record -/

structure Life.Sound (life : Life) (reported : List ApplicationError) : Prop where
  sealedSince : life.sealed = life.control.closeStarted.isSome
  trackerClosed : life.tasks.closed = life.sealed
  left : life.sealed = true → life.control.Left
  failed : life.control.state = .failed ↔ life.control.failure.isSome = true
  first : life.control.failure = reported.head?
  ready : life.control.state = .running → life.control.ready.isSome = true
  closedError : ∀ error, life.control.close = some (.error error) →
    life.control.failure.isSome = true
  closedOk : ∀ report, life.control.close = some (.ok report) →
    life.control.failure = none ∧ life.control.termination.isSome = true

namespace Life.Sound

variable {life : Life} {reported : List ApplicationError}

theorem new : Life.new.Sound [] where
  sealedSince := rfl
  trackerClosed := rfl
  left := nofun
  failed := by simp [Life.new]
  first := rfl
  ready := nofun
  closedError := nofun
  closedOk := nofun

variable (sound : life.Sound reported)

include sound

/-- Only the tracker's closing is part of the record. -/
theorem tracked {tasks : TaskTracker} (closed : tasks.closed = life.tasks.closed) (stop : Bool) :
    Life.Sound { life with tasks, stop } reported :=
  { sound with trackerClosed := closed.trans sound.trackerClosed }

theorem sealOwner (now : Nat) : (life.sealOwner now).Sound reported := by
  unfold Life.sealOwner
  split
  next =>
    exact {
      sealedSince := rfl
      trackerClosed := rfl
      left := fun _ => by
        dsimp only [Control.Left]
        split <;> simp
      failed := by
        rw [← sound.failed]
        split <;> simp_all
      first := sound.first
      ready := by
        split <;> simp
      closedError := sound.closedError
      closedOk := sound.closedOk }
  next => exact sound

theorem report (error : ApplicationError) (open' : life.control.termination = none) :
    (life.report error).Sound (reported ++ [error]) := by
  rw [Life.report, open']
  exact {
    sealedSince := sound.sealedSince
    trackerClosed := sound.trackerClosed
    left := fun _ => ⟨by simp, by simp⟩
    failed := by cases life.control.failure <;> simp
    first := by
      rw [sound.first, List.head?_append]
      rfl
    ready := by simp
    closedError := fun _ _ => by cases life.control.failure <;> rfl
    closedOk := fun result close => by
      have ended := (sound.closedOk result close).2
      rw [open'] at ended
      cases ended }

theorem running (ready : ReadyInfo) : (life.running ready).Sound reported := by
  unfold Life.running
  split
  next starting =>
    exact {
      sealedSince := sound.sealedSince
      trackerClosed := sound.trackerClosed
      left := fun isSealed => absurd starting (sound.left isSealed).1
      failed := by
        rw [← sound.failed, starting]
        simp
      first := sound.first
      ready := fun _ => rfl
      closedError := sound.closedError
      closedOk := sound.closedOk }
  next => exact sound

theorem setClose (error : ApplicationError) (failure : life.control.failure.isSome = true) :
    (life.setClose error).Sound reported :=
  { sound with
    closedError := fun _ _ => failure
    closedOk := fun report close => by
      refine sound.closedOk report ?_
      simp only [Life.setClose] at close
      cases found : life.control.close with
      | none => simp [found] at close
      | some =>
        rw [found] at close
        exact close }

omit sound

/-- The result that is published agrees with the recorded failure. -/
def Agrees (life : Life) (result : Except ApplicationError CloseReport) : Prop :=
  result.isOk = life.control.failure.isNone

theorem finish (sound : life.Sound reported) {result : Except ApplicationError CloseReport}
    (agrees : Agrees life result) (cleanupErrors : List ApplicationError) :
    (life.finish result cleanupErrors).Sound reported := by
  have agreed : Agrees life (life.control.close.getD result) := by
    cases close : life.control.close with
    | none => exact agrees
    | some result' =>
      cases result' with
      | error error =>
        have failure := sound.closedError error close
        unfold Agrees
        cases found : life.control.failure with
        | none => simp [found] at failure
        | some => rfl
      | ok report =>
        have failure := (sound.closedOk report close).1
        unfold Agrees
        rw [failure]
        rfl
  unfold Life.finish
  generalize life.control.close.getD result = close at agreed ⊢
  unfold Agrees at agreed
  cases close with
  | error =>
    have failure : life.control.failure.isSome = true := by
      cases found : life.control.failure with
      | none => simp [found, Except.isOk, Except.toBool] at agreed
      | some => rfl
    exact {
      sealedSince := sound.sealedSince
      trackerClosed := sound.trackerClosed
      left := fun _ => ⟨by simp [Except.isOk, Except.toBool],
        by simp [Except.isOk, Except.toBool]⟩
      failed := by simp [failure, Except.isOk, Except.toBool]
      first := sound.first
      ready := by simp [Except.isOk, Except.toBool]
      closedError := fun _ _ => failure
      closedOk := by simp }
  | ok =>
    have failure : life.control.failure = none := by
      cases found : life.control.failure with
      | none => rfl
      | some => simp [found, Except.isOk, Except.toBool] at agreed
    exact {
      sealedSince := sound.sealedSince
      trackerClosed := sound.trackerClosed
      left := fun _ => ⟨by simp [Except.isOk, Except.toBool],
        by simp [Except.isOk, Except.toBool]⟩
      failed := by simp [failure, Except.isOk, Except.toBool]
      first := sound.first
      ready := by simp [Except.isOk, Except.toBool]
      closedError := by simp
      closedOk := fun _ _ => ⟨failure, rfl⟩ }

end Life.Sound

/-! ## The books -/

/-- How far the initialisation has come in a phase. -/
def Phase.Starts (initialized : Nat) (partialIndex : Option Nat)
    (attempted : List Nat) : Phase → Prop
  | .building =>
    initialized = 0 ∧ partialIndex = none ∧ attempted = []
  | .starting index =>
    index = initialized ∧ partialIndex = none ∧ attempted = List.range initialized
  | .initializing index =>
    index = initialized ∧ partialIndex = none ∧ attempted = List.range (initialized + 1)
  | _ =>
    (partialIndex = none ∧ attempted = List.range initialized) ∨
    (partialIndex = some initialized ∧ attempted = List.range (initialized + 1))

/-- How far the hooks that are due have come in a phase. -/
def Phase.Cleans (hooks begun finished : List Hook) : Phase → Prop
  | .cleaning remaining => begun ++ remaining = hooks ∧ finished = begun
  | .hooking hook _ remaining =>
    finished ++ [hook] = begun ∧ begun ++ remaining = hooks
  | .settling => begun = hooks ∧ finished = hooks
  | .terminated => begun = hooks ∧ finished = hooks
  | _ => begun = [] ∧ finished = []

structure Books (coordinator : Coordinator) (record : Record) : Prop where
  succeeded : record.succeeded = List.range coordinator.initialized
  starts : coordinator.phase.Starts coordinator.initialized
    coordinator.partialIndex record.attempted
  cleans : coordinator.phase.Cleans coordinator.hooks record.begun record.finished

variable {coordinator : Coordinator} {record : Record}

/-- The hooks that are due are those of the initialisations on record. -/
theorem Books.hooks_eq (books : Books coordinator record)
    (started : ∀ index, coordinator.phase ≠ .initializing index) :
    coordinator.hooks = (record.attempted.filter (· ∉ record.succeeded)).map Hook.rollback ++
        record.succeeded.reverse.map Hook.close := by
  have none_left : (List.range coordinator.initialized).filter
        (· ∉ List.range coordinator.initialized) = [] := by
    simp
  have split : (coordinator.partialIndex = none ∧
        record.attempted = List.range coordinator.initialized) ∨
      (coordinator.partialIndex = some coordinator.initialized ∧
        record.attempted = List.range (coordinator.initialized + 1)) := by
    have starts := books.starts
    cases phase : coordinator.phase with
    | initializing index => exact absurd phase (started index)
    | building =>
      rw [phase] at starts
      obtain ⟨zero, absent, attempted⟩ := starts
      exact .inl ⟨absent, by rw [attempted, zero]; rfl⟩
    | starting =>
      rw [phase] at starts
      exact .inl starts.2
    | _ =>
      rw [phase] at starts
      exact starts
  rw [Coordinator.hooks, books.succeeded]
  obtain ⟨absent, attempted⟩ | ⟨present, attempted⟩ := split
  · rw [absent, attempted, none_left]
    rfl
  · rw [present, attempted, List.range_succ]
    simp

/-! ## The phase and the record -/

/-- The coordinator has seen the owner leave. -/
def Phase.Closing : Phase → Prop
  | .building | .starting _ | .initializing _ | .started | .serving => False
  | _ => True

/-- The coordinator has seen the work end. -/
def Phase.Late : Phase → Prop
  | .cleaning _ | .hooking _ _ _ | .settling | .terminated => True
  | _ => False

def Action.isFinish : Action → Bool
  | .finish _ _ => true
  | _ => false

/-- What a critical section that is left to run relies on. -/
def Action.Ready (life : Life) : Action → Prop
  | .sealOwner => True
  | .setClose _ => life.control.failure.isSome = true
  | .finish result _ => Life.Sound.Agrees life result

structure Linked (s : State) : Prop where
  building : s.coordinator.phase = .building →
    s.life.control.state = .starting ∧ s.coordinator.pending = []
  idle : s.coordinator.phase = .building ∨ s.coordinator.phase.Late → s.life.tasks.Idle
  left : s.coordinator.phase.Closing → s.life.control.Left
  counted : s.record.published + s.coordinator.pending.countP Action.isFinish =
    if s.coordinator.phase = .terminated then 1 else 0
  ended : s.life.control.termination.isSome = decide (0 < s.record.published)
  ready : ∀ action ∈ s.coordinator.pending, action.Ready s.life

structure Sound (s : State) : Prop where
  life : s.life.Sound s.record.reported
  books : Books s.coordinator s.record
  linked : Linked s

/-! ## Critical sections -/

namespace TaskTracker

variable {tasks : TaskTracker}

theorem Idle.holder (idle : tasks.Idle) (index : Nat) : tasks.holder index = none := by
  unfold TaskTracker.holder
  cases found : tasks.registrations[index]? with
  | none => rfl
  | some registration =>
    exact idle registration (List.mem_of_getElem? found)

theorem Idle.set_none (idle : tasks.Idle) (index : Nat) : (tasks.set index none).Idle := by
  intro registration member
  rcases List.mem_or_eq_of_mem_set member with earlier | rfl
  · exact idle registration earlier
  · rfl

theorem idle_of_waited (waited : tasks.waited = true) : tasks.Idle := by
  simp only [TaskTracker.waited, Bool.and_eq_true, decide_eq_true_eq] at waited
  exact waited.2

end TaskTracker

theorem Control.Left.of_failed {control : Control} (failed : control.state = .failed) :
    control.Left := by
  unfold Control.Left
  simp [failed]

namespace Life

@[simp] theorem sealOwner_failure (life : Life) (now : Nat) :
    (life.sealOwner now).control.failure = life.control.failure := by
  unfold Life.sealOwner
  split <;> rfl

@[simp] theorem sealOwner_termination (life : Life) (now : Nat) :
    (life.sealOwner now).control.termination = life.control.termination := by
  unfold Life.sealOwner
  split <;> rfl

@[simp] theorem sealOwner_close (life : Life) (now : Nat) :
    (life.sealOwner now).control.close = life.control.close := by
  unfold Life.sealOwner
  split <;> rfl

@[simp] theorem sealOwner_registrations (life : Life) (now : Nat) :
    (life.sealOwner now).tasks.registrations = life.tasks.registrations := by
  unfold Life.sealOwner
  split <;> rfl

theorem left_sealOwner {life : Life} (now : Nat) (left : life.control.Left) :
    (life.sealOwner now).control.Left := by
  unfold Life.sealOwner
  split
  next =>
    unfold Control.Left
    split <;> simp
  next => exact left

theorem report_control {life : Life} (error : ApplicationError)
    (unended : life.control.termination = none) :
    (life.report error).control = { life.control with
        failure := life.control.failure.or (some error)
        state := .failed } := by
  rw [Life.report, unended]
  rfl

@[simp] theorem report_tasks (life : Life) (error : ApplicationError) :
    (life.report error).tasks = life.tasks := by
  unfold Life.report
  split <;> rfl

end Life

/-- A critical section that relies on a failure may run after another one. -/
theorem Action.Ready.of_failure
    {life life' : Life} (failure : life.control.failure = life'.control.failure) {action : Action}
    (ready : action.Ready life) : action.Ready life' := by
  cases action with
  | sealOwner => trivial
  | setClose =>
    unfold Action.Ready at *
    rw [← failure]
    exact ready
  | finish =>
    unfold Action.Ready Life.Sound.Agrees at *
    rw [← failure]
    exact ready

namespace Sound

variable {s : State}

theorem initial (now : Nat) : Sound (State.initial now) where
  life := .new
  books := ⟨rfl, ⟨rfl, rfl, rfl⟩, ⟨rfl, rfl⟩⟩
  linked :=
    { building := fun _ => ⟨rfl, rfl⟩
      idle := fun _ => nofun
      left := nofun
      counted := rfl
      ended := rfl
      ready := nofun }

variable (sound : Sound s)

include sound

/-- Before the end nothing is published. -/
theorem termination_eq_none (unended : s.coordinator.phase ≠ .terminated) :
    s.life.control.termination = none := by
  have counted := sound.linked.counted
  have ended := sound.linked.ended
  rw [if_neg unended] at counted
  have zero : s.record.published = 0 := by omega
  rw [zero] at ended
  simpa using ended

theorem ticked (elapsed : Nat) : Sound { s with now := s.now + elapsed } :=
  ⟨sound.life, sound.books, { sound.linked with }⟩

theorem tracked {tasks : TaskTracker} (closed : tasks.closed = s.life.tasks.closed)
    (idle : s.coordinator.phase = .building ∨ s.coordinator.phase.Late →
      s.life.tasks.Idle → tasks.Idle) :
    Sound { s with life := { s.life with tasks } } where
  life := sound.life.tracked closed _
  books := sound.books
  linked :=
    { sound.linked with
      idle := fun late => idle late (sound.linked.idle late)
      ready := fun action member =>
        (sound.linked.ready action member).of_failure rfl }

theorem sealOwner (started : s.coordinator.phase ≠ .building) :
    Sound { s with life := s.life.sealOwner s.now } where
  life := sound.life.sealOwner _
  books := sound.books
  linked :=
    { building := fun building => absurd building started
      idle := fun late registration member => sound.linked.idle late registration
        (by rwa [Life.sealOwner_registrations] at member)
      left := fun closing => Life.left_sealOwner _ (sound.linked.left closing)
      counted := sound.linked.counted
      ended := by
        rw [Life.sealOwner_termination]
        exact sound.linked.ended
      ready := fun action member =>
        (sound.linked.ready action member).of_failure (Life.sealOwner_failure _ _).symm }

/-- A failure that is reported while the coordinator has not ended. -/
theorem reported (error : ApplicationError) (started : s.coordinator.phase ≠ .building)
    (unended : s.coordinator.phase ≠ .terminated) :
    Sound { s with
        life := s.life.report error
        record := { s.record with reported := s.record.reported ++ [error] } } := by
  have absent := sound.termination_eq_none unended
  have control := Life.report_control error absent
  refine ⟨sound.life.report error absent,
    ⟨sound.books.succeeded, sound.books.starts, sound.books.cleans⟩, ?_⟩
  exact {
    building := fun building => absurd building started
    idle := fun late => by
      rw [Life.report_tasks]
      exact sound.linked.idle late
    left := fun _ => .of_failed (by rw [control])
    counted := sound.linked.counted
    ended := by
      rw [control]
      exact sound.linked.ended
    ready := fun action member => by
      cases action with
      | sealOwner => trivial
      | setClose =>
        unfold Action.Ready
        rw [control]
        cases s.life.control.failure <;> rfl
      | finish result =>
        -- A result is left to publish only at the end.
        have counted := sound.linked.counted
        rw [if_neg unended] at counted
        have waiting : _ ∈ s.coordinator.pending := member
        have positive := List.countP_pos_iff.mpr ⟨_, waiting, (rfl : Action.isFinish _ = true)⟩
        omega }

/-- The coordinator goes from a phase to one that the books allow. -/
theorem moved {phase : Phase} (here : s.coordinator.phase = phase) (unended : phase ≠ .terminated)
    (pending : coordinator.pending = s.coordinator.pending)
    (published : record.published = s.record.published)
    (reported : record.reported = s.record.reported)
    (building : coordinator.phase ≠ .building) (terminated : coordinator.phase ≠ .terminated)
    (idle : coordinator.phase.Late → phase.Late ∨ s.life.tasks.Idle)
    (left : coordinator.phase.Closing → phase.Closing ∨ s.life.control.Left)
    (books : phase.Starts s.coordinator.initialized s.coordinator.partialIndex s.record.attempted →
      phase.Cleans s.coordinator.hooks s.record.begun s.record.finished →
      Books coordinator record) :
    Sound { s with coordinator, record } := by
  subst here
  refine ⟨?_, books sound.books.starts sound.books.cleans, ?_⟩
  · rw [reported]
    exact sound.life
  · exact {
      building := fun now => absurd now building
      idle := fun late => (idle (late.resolve_left building)).elim
        (fun late => sound.linked.idle (.inr late)) id
      left := fun closing => (left closing).elim sound.linked.left id
      counted := by
        have counted := sound.linked.counted
        rw [if_neg unended] at counted
        rw [pending, published, if_neg terminated]
        exact counted
      ended := by
        rw [published]
        exact sound.linked.ended
      ready := by
        rw [pending]
        exact sound.linked.ready }

end Sound
end Lifecycle
end App
end Haystack
