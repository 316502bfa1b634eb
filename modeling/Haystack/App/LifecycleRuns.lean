import Haystack.App.LifecycleSound
import Mathlib.Data.List.Nodup

/-!
# Runs of the lifecycle

Every step of the coordinator and of the threads beside it keeps the invariant,
so every reachable state has it.  What a run publishes does not change again.
-/

namespace Haystack
namespace App
namespace Lifecycle

/-! ## What does not change again -/

/-- The owner does not come back, and what is published stays. -/
structure Control.Follows (before after : Control) : Prop where
  left : before.Left → after.Left
  close : ∀ result, before.close = some result → after.close = some result
  termination : ∀ report, before.termination = some report → after.termination = some report

namespace Control.Follows

theorem refl (control : Control) : control.Follows control :=
  ⟨id, fun _ same => same, fun _ same => same⟩

theorem trans {before middle after : Control} (first : before.Follows middle)
    (second : middle.Follows after) : before.Follows after where
  left := second.left ∘ first.left
  close := fun result found => second.close result (first.close result found)
  termination := fun report found =>
    second.termination report (first.termination report found)

variable (life : Life)

theorem sealOwner (now : Nat) :
    life.control.Follows (life.sealOwner now).control where
  left := Life.left_sealOwner now
  close := fun result found => by
    rw [Life.sealOwner_close]
    exact found
  termination := fun report found => by
    rw [Life.sealOwner_termination]
    exact found

theorem report (error : ApplicationError) : life.control.Follows (life.report error).control := by
  unfold Life.report
  split
  next => exact refl _
  next =>
    exact ⟨fun _ => .of_failed rfl, fun _ found => found, fun _ found => found⟩

theorem running (ready : ReadyInfo) : life.control.Follows (life.running ready).control := by
  unfold Life.running
  split
  next starting =>
    exact ⟨fun left => absurd starting left.1, fun _ found => found, fun _ found => found⟩
  next => exact refl _

theorem setClose (error : ApplicationError) :
    life.control.Follows (life.setClose error).control where
  left := id
  close := fun result found => by
    simp only [Life.setClose, found]
    rfl
  termination := fun _ found => found

theorem finish (unended : life.control.termination = none)
    (result : Except ApplicationError CloseReport) (cleanupErrors : List ApplicationError) :
    life.control.Follows (life.finish result cleanupErrors).control where
  left := fun _ => by
    unfold Life.finish Control.Left
    dsimp only
    split <;> simp
  close := fun result found => by
    simp only [Life.finish, found]
    rfl
  termination := fun report found => by
    rw [unended] at found
    cases found

end Control.Follows

/-- A step keeps the invariant and what is published. -/
structure Keeps (s s' : State) : Prop where
  sound : Sound s'
  follows : s.life.control.Follows s'.life.control

namespace Sound

variable {s : State}

theorem keeps (sound : Sound s) : Keeps s s := ⟨sound, .refl _⟩

/-! ## The coordinator -/

variable (sound : Sound s)

include sound

/-- The coordinator's own failures leave sections to run. -/
theorem fail (error : ApplicationError) (started : s.coordinator.phase ≠ .building)
    (unended : s.coordinator.phase ≠ .terminated)
    (nothing : s.coordinator.pending = []) {following : List Action}
    (closes : following = [] ∨ following = [.setClose error]) :
    Sound (s.fail error following) := by
  have after := sound.reported error started unended
  have absent := sound.termination_eq_none unended
  have pending : (s.fail error following).coordinator.pending = .sealOwner :: following := by
    simp [State.fail, absent]
  refine ⟨after.life, ⟨sound.books.succeeded, sound.books.starts, sound.books.cleans⟩, ?_⟩
  exact {
    building := fun building => absurd building started
    idle := after.linked.idle
    left := after.linked.left
    counted := by
      have counted := after.linked.counted
      rw [nothing] at counted
      rw [pending]
      rcases closes with rfl | rfl <;> exact counted
    ended := after.linked.ended
    ready := fun action member => by
      rw [pending] at member
      rcases List.mem_cons.mp member with rfl | member
      · trivial
      rcases closes with rfl | rfl
      · cases member
      · rw [List.mem_singleton.mp member]
        unfold Action.Ready
        rw [show (s.fail error _).life = s.life.report error from rfl,
          Life.report_control error absent]
        cases s.life.control.failure <;> rfl }

theorem timedOut (phase : ShutdownPhase) (started : s.coordinator.phase ≠ .building)
    (unended : s.coordinator.phase ≠ .terminated) (nothing : s.coordinator.pending = []) :
    Sound (s.timedOut phase) :=
  sound.fail _ started unended nothing (.inr rfl)

/-- An abandoned builder has nothing to clean up. -/
theorem abandon (building : s.coordinator.phase = .building) : Sound s.abandon := by
  have absent := sound.termination_eq_none (by rw [building]; simp)
  have control := Life.report_control .abandoned absent
  have starts := sound.books.starts
  have cleans := sound.books.cleans
  have counted := sound.linked.counted
  rw [building] at starts cleans
  rw [if_neg (by rw [building]; simp)] at counted
  obtain ⟨zero, noPartial, attempted⟩ := starts
  obtain ⟨begun, finished⟩ := cleans
  have hooks : s.coordinator.hooks = [] := by
    simp [Coordinator.hooks, zero, noPartial]
  have pending : s.abandon.coordinator.pending =
      [.sealOwner, .finish (.error .abandoned) []] := by
    simp [State.abandon, State.fail, State.goto, absent]
  refine ⟨sound.life.report _ absent, ⟨sound.books.succeeded, .inl ⟨noPartial, ?_⟩,
    begun.trans hooks.symm, finished.trans hooks.symm⟩, ?_⟩
  · change s.record.attempted = List.range s.coordinator.initialized
    rw [attempted, zero]
    rfl
  · exact {
      building := fun built => by cases built
      idle := fun _ => by
        change (s.life.report .abandoned).tasks.Idle
        rw [Life.report_tasks]
        exact sound.linked.idle (.inl building)
      left := fun _ => .of_failed (by
        change (s.life.report .abandoned).control.state = .failed
        rw [control])
      counted := by
        change s.record.published + _ = 1
        rw [pending]
        simp only [List.countP_cons, List.countP_nil, Action.isFinish, if_true,
          Bool.false_eq_true, if_false]
        omega
      ended := by
        change (s.life.report .abandoned).control.termination.isSome = _
        rw [control]
        exact sound.linked.ended
      ready := fun action member => by
        rw [pending] at member
        rcases List.mem_cons.mp member with rfl | member
        · trivial
        · rw [List.mem_singleton.mp member]
          change false = (s.life.report .abandoned).control.failure.isNone
          rw [control]
          cases s.life.control.failure <;> rfl }

theorem start (building : s.coordinator.phase = .building)
    (policy : ShutdownPolicy) (startupTimeout : Nat) :
    Keeps s (s.start policy startupTimeout) := by
  unfold State.start
  split
  next =>
    refine ⟨sound.moved building nofun rfl rfl rfl nofun nofun nofun nofun
      fun ⟨zero, noPartial, attempted⟩ cleans =>
        ⟨sound.books.succeeded, ⟨zero.symm, noPartial, ?_⟩, cleans⟩, .refl _⟩
    rw [attempted, zero]
    rfl
  next => exact ⟨sound.abandon building, .report s.life _⟩

omit sound

variable {rest : List Action} {action : Action} (sound : Sound s)

include sound

/-- Each critical section that is left to run keeps the invariant. -/
theorem perform (pending : s.coordinator.pending = action :: rest) :
    Sound (s.perform action rest) := by
  have started : s.coordinator.phase ≠ .building := fun building => by
    have nothing := (sound.linked.building building).2
    rw [nothing] at pending
    cases pending
  have ready := sound.linked.ready
  have counted := sound.linked.counted
  rw [pending] at ready counted
  rw [List.countP_cons] at counted
  have later : ∀ action ∈ rest, action.Ready s.life := fun action member =>
    ready action (List.mem_cons_of_mem _ member)
  have books : Books { s.coordinator with pending := rest } s.record :=
    ⟨sound.books.succeeded, sound.books.starts, sound.books.cleans⟩
  cases action with
  | sealOwner =>
    have after := sound.sealOwner started
    exact ⟨after.life, books, { after.linked with
        building := fun building => absurd building started
        counted := counted
        ready := fun action member => (later action member).of_failure
          (Life.sealOwner_failure _ _).symm }⟩
  | setClose error =>
    have failure : s.life.control.failure.isSome = true := ready _ List.mem_cons_self
    exact ⟨sound.life.setClose error failure, books,
      { building := fun building => absurd building started
        idle := sound.linked.idle
        left := sound.linked.left
        counted := counted
        ended := sound.linked.ended
        ready := fun action member => (later action member).of_failure rfl }⟩
  | finish result cleanupErrors =>
    have agrees : Life.Sound.Agrees s.life result := ready _ List.mem_cons_self
    refine ⟨sound.life.finish agrees cleanupErrors,
      ⟨books.succeeded, books.starts, books.cleans⟩, ?_⟩
    exact {
      building := fun building => absurd building started
      idle := sound.linked.idle
      left := fun _ => by
        change (s.life.finish result cleanupErrors).control.Left
        unfold Life.finish Control.Left
        dsimp only
        split <;> simp
      counted := by
        change s.record.published + 1 + rest.countP Action.isFinish =
          if s.coordinator.phase = .terminated then 1 else 0
        rw [← counted]
        simp only [Action.isFinish, if_true]
        omega
      ended := by
        change true = decide (0 < s.record.published + 1)
        simp
      ready := fun action member => (later action member).of_failure rfl }

theorem follows_perform (pending : s.coordinator.pending = action :: rest) :
    s.life.control.Follows (s.perform action rest).life.control := by
  cases action with
  | sealOwner => exact .sealOwner s.life s.now
  | setClose error => exact .setClose s.life error
  | finish result cleanupErrors =>
    have counted := sound.linked.counted
    have ended := sound.linked.ended
    rw [pending, List.countP_cons_of_pos rfl] at counted
    have zero : s.record.published = 0 := by
      split at counted <;> omega
    rw [zero] at ended
    exact .finish s.life (by simpa using ended) result cleanupErrors

/-- The result that is read before the end is the one that is published. -/
theorem settle (settling : s.coordinator.phase = .settling)
    (nothing : s.coordinator.pending = []) : Sound s.settle := by
  have starts := sound.books.starts
  have cleans := sound.books.cleans
  have counted := sound.linked.counted
  rw [settling] at starts cleans
  rw [if_neg (by rw [settling]; simp), nothing] at counted
  refine ⟨sound.life, ⟨sound.books.succeeded, starts, cleans⟩, ?_⟩
  exact {
    building := nofun
    idle := fun _ => sound.linked.idle (.inr (by rw [settling]; trivial))
    left := fun _ => sound.linked.left (by rw [settling]; trivial)
    counted := by
      change s.record.published + 1 = 1
      simpa using counted
    ended := sound.linked.ended
    ready := fun action member => by
      rw [List.mem_singleton.mp member]
      change Except.isOk _ = s.life.control.failure.isNone
      cases s.life.control.failure <;> rfl }

/-- Readiness changes nothing that the coordinator relies on. -/
theorem running (phase : s.coordinator.phase = .started) (ready : ReadyInfo) :
    Sound { s with life := s.life.running ready } := by
  refine ⟨sound.life.running ready, sound.books, ?_⟩
  have failure : (s.life.running ready).control.failure = s.life.control.failure := by
    unfold Life.running
    split <;> rfl
  exact {
    building := fun building => by rw [phase] at building; cases building
    idle := fun late => by rw [phase] at late; exact absurd late (by simp [Phase.Late])
    left := fun closing => by rw [phase] at closing; cases closing
    counted := sound.linked.counted
    ended := by
      have same : (s.life.running ready).control.termination = s.life.control.termination := by
        unfold Life.running
        split <;> rfl
      rw [same]
      exact sound.linked.ended
    ready := fun action member =>
      (sound.linked.ready action member).of_failure failure.symm }

omit sound

variable {index : Nat} (sound : Sound s)

include sound

variable (phase : s.coordinator.phase = .initializing index)

include phase

/-- The resource whose initialisation has not succeeded is the next one. -/
theorem abort : Sound (s.abort index) := by
  refine sound.moved phase nofun rfl rfl rfl nofun nofun nofun nofun
    fun ⟨next, _, attempted⟩ cleans => ?_
  subst next
  exact ⟨sound.books.succeeded, .inr ⟨rfl, attempted⟩, cleans⟩

theorem initializeFailed (nothing : s.coordinator.pending = []) (error : ApplicationError) :
    Keeps s (s.initializeFailed index error) := by
  unfold State.initializeFailed
  split
  next => exact ⟨sound.abort phase, .refl _⟩
  next =>
    exact ⟨(sound.abort phase).fail error nofun nofun nothing (.inl rfl), .report s.life _⟩

theorem initializeSucceeded (info : ReadyInfo) : Sound (s.initializeSucceeded index info) := by
  refine sound.moved phase nofun rfl rfl rfl nofun nofun nofun nofun
    fun ⟨next, noPartial, attempted⟩ cleans => ?_
  subst next
  refine ⟨?_, ⟨rfl, noPartial, attempted⟩, cleans⟩
  rw [sound.books.succeeded, List.range_succ]

omit phase

/-- A resource is attempted right after those that have succeeded. -/
theorem attempt (phase : s.coordinator.phase = .starting index) :
    Sound { s.goto (.initializing index) with
        record := { s.record with attempted := s.record.attempted ++ [index] } } := by
  refine sound.moved phase nofun rfl rfl rfl nofun nofun nofun nofun
    fun ⟨next, noPartial, attempted⟩ cleans => ?_
  subst next
  refine ⟨sound.books.succeeded, ⟨rfl, noPartial, ?_⟩, cleans⟩
  rw [attempted, List.range_succ]
  rfl

/-- The hooks start once nothing is outstanding. -/
theorem clean (phase : s.coordinator.phase = .stopping ∨ s.coordinator.phase = .overdue)
    (idle : s.life.tasks.Idle) : Sound (s.goto (.cleaning s.coordinator.hooks)) := by
  have books (starts : Phase.stopping.Starts s.coordinator.initialized
        s.coordinator.partialIndex s.record.attempted)
      (cleans : s.record.begun = [] ∧ s.record.finished = []) :
      Books { s.coordinator with phase := .cleaning s.coordinator.hooks } s.record := by
    refine ⟨sound.books.succeeded, starts, ?_⟩
    rw [cleans.1, cleans.2]
    exact ⟨rfl, rfl⟩
  rcases phase with phase | phase
  · exact sound.moved phase nofun rfl rfl rfl nofun nofun (fun _ => .inr idle)
      (fun _ => .inl trivial) books
  · exact sound.moved phase nofun rfl rfl rfl nofun nofun (fun _ => .inr idle)
      (fun _ => .inl trivial) books

omit sound

variable {remaining : List Hook} {hook : Hook} (sound : Sound s)

include sound

theorem beginHook (phase : s.coordinator.phase = .cleaning (hook :: remaining)) :
    Sound (s.beginHook hook remaining) := by
  refine sound.moved phase nofun rfl rfl rfl nofun nofun (fun _ => .inl trivial)
    (fun _ => .inl trivial) fun starts cleans => ⟨sound.books.succeeded, starts, ?_, ?_⟩
  · rw [cleans.2]
  · change s.record.begun ++ [hook] ++ remaining = s.coordinator.hooks
    rw [← cleans.1, List.append_assoc, List.singleton_append]

theorem endHook {late : Bool} (phase : s.coordinator.phase = .hooking hook late remaining) :
    Sound (s.endHook hook remaining) :=
  sound.moved phase nofun rfl rfl rfl nofun nofun (fun _ => .inl trivial) (fun _ => .inl trivial)
    fun starts cleans => ⟨sound.books.succeeded, starts, cleans.2, cleans.1⟩

theorem cleanupFailed (error : ApplicationError) (started : s.coordinator.phase ≠ .building)
    (unended : s.coordinator.phase ≠ .terminated) (nothing : s.coordinator.pending = []) :
    Sound (s.cleanupFailed error) :=
  fail (s :=
    { s with
      coordinator :=
        { s.coordinator with
          cleanupErrors := s.coordinator.cleanupErrors ++ [error] } })
    ⟨sound.life, ⟨sound.books.succeeded, sound.books.starts, sound.books.cleans⟩,
      { sound.linked with }⟩ error started unended nothing (.inl rfl)

/-- The loop over the resources ends. -/
theorem initializationEnds (phase : s.coordinator.phase = .starting index) :
    Sound (s.goto .started) :=
  sound.moved phase nofun rfl rfl rfl nofun nofun nofun nofun
    fun starts cleans => ⟨sound.books.succeeded, .inl starts.2, cleans⟩

theorem serve (phase : s.coordinator.phase = .started) : Sound (s.goto .serving) :=
  sound.moved phase nofun rfl rfl rfl nofun nofun nofun nofun
    fun starts cleans => ⟨sound.books.succeeded, starts, cleans⟩

theorem drain (phase : s.coordinator.phase = .serving) (isSealed : s.life.sealed = true) :
    Sound s.drain :=
  sound.moved phase nofun rfl rfl rfl nofun nofun nofun (fun _ => .inr (sound.life.left isSealed))
    fun starts cleans => ⟨sound.books.succeeded, starts, cleans⟩

theorem stopWork (phase : s.coordinator.phase = .draining) (drainExpired : Bool) :
    Sound (s.stopWork drainExpired) := by
  have moved : Sound { s with
      coordinator := { s.coordinator with phase := .stopping, drainExpired } } :=
    sound.moved phase nofun rfl rfl rfl nofun nofun nofun (fun _ => .inl trivial)
      fun starts cleans => ⟨sound.books.succeeded, starts, cleans⟩
  exact ⟨moved.life.tracked rfl true, moved.books, { moved.linked with
      ready := fun action member =>
        (moved.linked.ready action member).of_failure rfl }⟩

/-- The wait for the work outlasts its deadline. -/
theorem workOverdue (phase : s.coordinator.phase = .stopping)
    (nothing : s.coordinator.pending = []) : Sound ((s.timedOut .tasks).goto .overdue) := by
  have late := sound.timedOut .tasks (by rw [phase]; simp) (by rw [phase]; simp) nothing
  exact late.moved phase nofun rfl rfl rfl nofun nofun nofun (fun _ => .inl trivial)
    fun starts cleans => ⟨late.books.succeeded, starts, cleans⟩

/-- A hook outlasts the deadline; it stays the one that runs. -/
theorem hookOverdue (phase : s.coordinator.phase = .hooking hook false remaining)
    (nothing : s.coordinator.pending = []) :
    Sound ((s.timedOut .resources).goto (.hooking hook true remaining)) := by
  have late := sound.timedOut .resources (by rw [phase]; simp) (by rw [phase]; simp) nothing
  exact late.moved phase nofun rfl rfl rfl nofun nofun (fun _ => .inl trivial)
    (fun _ => .inl trivial) fun starts cleans => ⟨late.books.succeeded, starts, cleans⟩

theorem hooksEnd (phase : s.coordinator.phase = .cleaning []) : Sound (s.goto .settling) := by
  refine sound.moved phase nofun rfl rfl rfl nofun nofun (fun _ => .inl trivial)
    (fun _ => .inl trivial) fun starts cleans => ?_
  have all : s.record.begun = s.coordinator.hooks := by
    rw [← cleans.1, List.append_nil]
  exact ⟨sound.books.succeeded, starts, all, cleans.2.trans all⟩

theorem advance (nothing : s.coordinator.pending = []) (names : List String) (wake : Wake) :
    Keeps s (s.advance names wake) := by
  unfold State.advance
  split
  next index phase =>
    split
    next => exact ⟨sound.initializationEnds phase, .refl _⟩
    next => exact ⟨sound.attempt phase, .refl _⟩
  next index phase =>
    split
    next => exact ⟨sound.abort phase, .refl _⟩
    next => exact sound.keeps
  next index phase =>
    split
    next =>
      exact ⟨(sound.abort phase).fail _ nofun nofun nothing (.inl rfl), .report s.life _⟩
    next => exact sound.keeps
  next index result phase =>
    split
    next info _ => exact ⟨sound.initializeSucceeded phase info, .refl _⟩
    next error _ => exact sound.initializeFailed phase nothing error
  next phase =>
    split
    next => exact ⟨(sound.running phase _).serve phase, .running s.life _⟩
    next => exact ⟨sound.serve phase, .refl _⟩
  next phase =>
    split
    next isSealed => exact ⟨sound.drain phase isSealed, .refl _⟩
    next => exact sound.keeps
  next phase =>
    split
    next => exact ⟨sound.stopWork phase _, .refl _⟩
    next => exact sound.keeps
  next phase =>
    split
    next => exact ⟨sound.stopWork phase _, .refl _⟩
    next => exact sound.keeps
  next phase =>
    split
    next waited =>
      exact ⟨sound.clean (.inl phase) (TaskTracker.idle_of_waited waited), .refl _⟩
    next => exact sound.keeps
  next phase =>
    split
    next => exact ⟨sound.workOverdue phase nothing, .report s.life _⟩
    next => exact sound.keeps
  next phase =>
    split
    next waited =>
      exact ⟨sound.clean (.inr phase) (TaskTracker.idle_of_waited waited), .refl _⟩
    next => exact sound.keeps
  next phase => exact ⟨sound.beginHook phase, .refl _⟩
  next phase => exact ⟨sound.hooksEnd phase, .refl _⟩
  next phase =>
    split
    next => exact ⟨sound.hookOverdue phase nothing, .report s.life _⟩
    next => exact sound.keeps
  next phase =>
    split
    next => exact ⟨sound.endHook phase, .refl _⟩
    next error _ =>
      exact ⟨(sound.endHook phase).cleanupFailed error nofun nofun nothing, .report s.life _⟩
  next phase => exact ⟨sound.settle phase nothing, .refl _⟩
  next => exact sound.keeps

theorem coordinate (names : List String) (wake : Wake) : Keeps s (s.coordinate names wake) := by
  unfold State.coordinate
  cases pending : s.coordinator.pending with
  | nil => exact sound.advance pending names wake
  | cons => exact ⟨sound.perform pending, sound.follows_perform pending⟩

omit sound

/-! ## The other threads -/

variable {registration : Registration} (sound : Sound s)

include sound

variable (held : s.life.tasks.holder index = some registration)

include held

/-- Something outstanding keeps the coordinator from the end, and shows that the
builder was started. -/
theorem busy : s.coordinator.phase ≠ .building ∧ ¬ s.coordinator.phase.Late := by
  have working : ¬ s.life.tasks.Idle := fun idle => by
    rw [idle.holder] at held
    cases held
  exact ⟨fun building => working (sound.linked.idle (.inl building)),
    fun late => working (sound.linked.idle (.inr late))⟩

theorem unended_of_held : s.coordinator.phase ≠ .terminated := by
  intro terminated
  have late := (sound.busy held).2
  rw [terminated] at late
  exact late trivial

omit held

/-- A new registration needs an owner that takes work, or a parent. -/
theorem register (registration : Registration) (started : s.coordinator.phase ≠ .building)
    (early : ¬ s.coordinator.phase.Late) :
    Sound { s with
      life := { s.life with tasks := s.life.tasks.register registration } } :=
  sound.tracked rfl fun late => (late.elim started early).elim

theorem early_of_not_left (working : ¬ s.life.control.Left) : ¬ s.coordinator.phase.Late := by
  intro late
  refine working (sound.linked.left ?_)
  revert late
  cases s.coordinator.phase <;> simp [Phase.Late, Phase.Closing]

theorem admission : Keeps s { s with life := s.life.admission.2 } := by
  unfold Life.admission
  split
  next running =>
    refine ⟨sound.register .work (fun building => ?_)
      (sound.early_of_not_left fun left => left.2 running), .refl _⟩
    have starting := (sound.linked.building building).1
    rw [running] at starting
    cases starting
  next => exact sound.keeps
  next => exact sound.keeps

theorem child (guard : Nat) : Keeps s { s with life := s.life.child guard } := by
  unfold Life.child
  split
  next held =>
    have busy := sound.busy held
    exact ⟨sound.register .work busy.1 busy.2, .refl _⟩
  next => exact sound.keeps

theorem spawn (started : s.coordinator.phase ≠ .building) (name : String) :
    Keeps s { s with life := (s.life.spawn name).2 } := by
  unfold Life.spawn
  split
  next starting =>
    exact ⟨sound.register _ started (sound.early_of_not_left fun left => left.1 starting),
      .refl _⟩
  next => exact sound.keeps

theorem taskStage {task : Nat} (held : s.life.tasks.holder task = some registration)
    (stage : Option TaskStage) (name : String) : Sound (s.taskStage task stage name) := by
  have busy := sound.busy held
  exact sound.tracked rfl fun late => (late.elim busy.1 busy.2).elim

theorem release (guard : Nat) : Keeps s (s.release guard) := by
  unfold State.release
  split
  next => exact ⟨sound.tracked rfl fun _ idle => idle.set_none guard, .refl _⟩
  next => exact sound.keeps

theorem finishTask (task : Nat) (ending : TaskEnd) : Keeps s (s.finishTask task ending) := by
  unfold State.finishTask
  split
  next name held =>
    split
    next => exact ⟨sound.taskStage held none name, .refl _⟩
    next error _ =>
      have still : (s.life.report error).tasks.holder task = some (.task name .running) := by
        rw [Life.report_tasks]
        exact held
      exact ⟨(sound.reported error (sound.busy held).1
        (sound.unended_of_held held)).taskStage still _ name, .report s.life _⟩
  next => exact sound.keeps

theorem leave (task : Nat) : Keeps s (s.leave task) := by
  unfold State.leave
  split
  next name held =>
    have still : (s.life.sealOwner s.now).tasks.holder task = some (.task name .failing) := by
      unfold TaskTracker.holder
      rw [Life.sealOwner_registrations]
      exact held
    exact ⟨(sound.sealOwner (sound.busy held).1).taskStage still _ name, .sealOwner s.life s.now⟩
  next name held => exact ⟨sound.taskStage held none name, .refl _⟩
  next => exact sound.keeps

theorem step (names : List String) (event : Event) : Keeps s (s.step names event) := by
  cases event with
  | tick elapsed => exact ⟨sound.ticked elapsed, .refl _⟩
  | start policy startupTimeout =>
    simp only [State.step]
    split
    next building => exact sound.start building policy startupTimeout
    next => exact sound.keeps
  | abandon =>
    simp only [State.step]
    split
    next building => exact ⟨sound.abandon building, .report s.life _⟩
    next => exact sound.keeps
  | admission => exact sound.admission
  | child guard => exact sound.child guard
  | release guard => exact sound.release guard
  | spawn name =>
    simp only [State.step]
    split
    next => exact sound.keeps
    next started => exact sound.spawn started name
  | finishTask task ending => exact sound.finishTask task ending
  | leave task => exact sound.leave task
  | requestClose =>
    simp only [State.step]
    split
    next => exact sound.keeps
    next started => exact ⟨sound.sealOwner started, .sealOwner s.life s.now⟩
  | coordinate wake => exact sound.coordinate names wake

/-- Every reachable state is sound, and what is published stays. -/
theorem run (names : List String) (events : List Event) : Keeps s (s.run names events) := by
  induction events generalizing s with
  | nil => exact sound.keeps
  | cons event events ih =>
    have first := sound.step names event
    have rest := ih first.sound
    exact ⟨rest.sound, first.follows.trans rest.follows⟩

end Sound

/-! ## The lifecycle -/

/-- The hooks that the initialisations on record ask for. -/
def Record.due (record : Record) : List Hook :=
  (record.attempted.filter (· ∉ record.succeeded)).map Hook.rollback ++
    record.succeeded.reverse.map Hook.close

variable {coordinator : Coordinator} {record : Record} (books : Books coordinator record)

include books

/-- The hooks run in the order in which they are due. -/
theorem Books.ordered :
    record.begun <+: record.due ∧ record.finished <+: record.begun ∧
      record.begun.length ≤ record.finished.length + 1 := by
  have cleans := books.cleans
  cases phase : coordinator.phase with
  | cleaning remaining =>
    have due := books.hooks_eq (by simp [phase])
    rw [phase] at cleans
    rw [Record.due, ← due, cleans.2]
    exact ⟨⟨remaining, cleans.1⟩, List.prefix_rfl, by omega⟩
  | hooking hook late remaining =>
    have due := books.hooks_eq (by simp [phase])
    rw [phase] at cleans
    rw [Record.due, ← due]
    refine ⟨⟨remaining, cleans.2⟩, ⟨[hook], cleans.1⟩, ?_⟩
    rw [← cleans.1]
    simp
  | settling | terminated =>
    have due := books.hooks_eq (by simp [phase])
    rw [phase] at cleans
    rw [Record.due, ← due, cleans.1, cleans.2]
    exact ⟨List.prefix_rfl, List.prefix_rfl, by omega⟩
  | _ =>
    rw [phase] at cleans
    rw [cleans.1, cleans.2]
    exact ⟨List.nil_prefix, List.nil_prefix, by simp⟩

omit books

-- The second resource fails to start, and the cleanup of the first one panics.
example :
    let next := Event.coordinate .next
    let s := (State.initial 0).run ["a", "b"]
      [.start ⟨0, 1⟩ 1, next, .coordinate (.initialized (some (.ok ⟨[]⟩))), next,
        .coordinate (.initialized (some (.error (.resource "b" "refused")))), next,
        next, next, next, next, next, .coordinate (.cleaned (some (.ok ()))), next,
        .coordinate (.cleaned none), next, next, next, next]
    s.record.finished = [.rollback 1, .close 0] ∧
      s.life.control.failure = some (.resource "b" "refused") ∧
      s.life.control.termination.isSome = true := by
  decide

end Lifecycle
end App
end Haystack
