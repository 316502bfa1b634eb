import Haystack.App.CommandStore
import Haystack.Graph.Replay

/-!
# The fence of the command simulator

A stored point remembers the state of the graph at its last publication.  The
changes since then are checked at the next one, so that along all publications no
change since the creation of the point has touched its schema.
-/

namespace Haystack
variable {diffs : List GraphDiff}

namespace Graph
namespace EntityGraph

open Haystack.Filter (FilterNode Ontology)

variable {N C : Type} {ontology : Ontology N C} {parseFilter : String → Except String FilterNode}
variable {g g' : EntityGraph N C} {units : List (List GraphDiff)}

variable {version : Nat}

end EntityGraph
end Graph

namespace App
namespace Command

open Std (ExtTreeMap)
open Collections Haystack.Graph
open Haystack.Graph.EntityGraph (Moved Commit)
open Haystack.Filter (FilterNode Ontology)

/-! ## Changes that touch a schema -/

variable {service : CommandService} {diff : GraphDiff} {schema : Schema}

variable {id : String}

variable {g : EntityGraph N C} {parseFilter : String → Except String FilterNode}

variable {ontology : Ontology N C}

namespace State

variable {service : CommandService} {ontology : Ontology N C}
variable {parseFilter : String → Except String FilterNode}

/-- An event leaves the session or is a command of it. -/
theorem session_step (s : State N C) (event : Event N C) :
    (s.step service ontology parseFilter event).session = s.session ∨
      ∃ command, (s.step service ontology parseFilter event).session =
        s.session.step ontology parseFilter command := by
  cases event with
  | write command => exact .inr ⟨command, rfl⟩
  | sweep =>
    refine .inl ?_
    unfold step
    cases s.store.expire s.now <;> rfl
  | publish operation stops =>
    refine .inl ?_
    change (s.publish service operation stops).session = s.session
    unfold State.publish
    split
    · split <;> rfl
    · rfl
  | answer operation failure =>
    refine .inl ?_
    change (s.answer operation failure).session = s.session
    unfold State.answer
    split <;> rfl
  | _ => exact .inl rfl

theorem moved_step {s : State N C} (sound : s.session.Sound) (event : Event N C) :
    (s.step service ontology parseFilter event).session.Sound ∧
      Moved ontology parseFilter s.session.graph
        (s.step service ontology parseFilter event).session.graph := by
  have session : (s.step service ontology parseFilter event).session =
      s.session ∨ ∃ command, (s.step service ontology parseFilter event).session =
        s.session.step ontology parseFilter command :=
    session_step s event
  obtain same | ⟨command, same⟩ := session
  · rw [same]
    exact ⟨sound, .stay⟩
  · rw [same]
    exact ⟨sound.step command, sound.step_moved command⟩

end State

/-- A simulator, the new graph that it starts with, and the events that follow. -/
structure Run (N C : Type) where
  service : CommandService
  ontology : Ontology N C
  parseFilter : String → Except String FilterNode
  capacity : Nat
  bytes : Nat
  incarnation : BitVec 128
  base : Option (Filter.Arc N)
  now : Nat
  events : List (Event N C)

variable {first : Nat}

namespace Run

/-- The state after the first events. -/
def state (run : Run N C) (count : Nat) : State N C :=
  (State.initial (Session.initial run.capacity run.bytes run.incarnation run.base)
    run.now).run run.service run.ontology run.parseFilter (run.events.take count)

/-- The graph after the first events. -/
def graph (run : Run N C) (count : Nat) : EntityGraph N C := (run.state count).session.graph

/-- The point of an id after the first events. -/
def point (run : Run N C) (count : Nat) (id : String) : Option Point :=
  (run.state count).store.points[id]?

variable {run : Run N C}

theorem state_succ {count : Nat} {event : Event N C} (found : run.events[count]? = some event) :
    run.state (count + 1) = (run.state count).step run.service run.ontology
      run.parseFilter event := by
  simp [state, State.run, List.take_add_one, found]

theorem state_succ_of_none {count : Nat} (absent : run.events[count]? = none) :
    run.state (count + 1) = run.state count := by
  simp [state, List.take_add_one, absent]

/-- Induction over the states of a run. -/
theorem induction_state {motive : Nat → State N C → Prop} (initial : motive 0 (run.state 0))
    (step : ∀ (count : Nat) event, run.events[count]? = some event →
      motive count (run.state count) →
      motive (count + 1) ((run.state count).step run.service run.ontology run.parseFilter event))
    (stay : ∀ (count : Nat), run.events[count]? = none →
      motive count (run.state count) → motive (count + 1) (run.state count))
    (count : Nat) : motive count (run.state count) := by
  induction count with
  | zero => exact initial
  | succ count ih =>
    cases found : run.events[count]? with
    | none =>
      rw [state_succ_of_none found]
      exact stay count found ih
    | some event =>
      rw [state_succ found]
      exact step count event found ih

theorem sound (run : Run N C) (count : Nat) : (run.state count).Sound run.service :=
  (State.sound_initial run.service _ run.now).run _

theorem session_sound (run : Run N C) (count : Nat) : (run.state count).session.Sound := by
  refine induction_state (motive := fun _ s => s.session.Sound) ?_ ?_ ?_ count
  · exact Session.sound_initial _ _ _ _
  · intro _ event _ sound
    exact (State.moved_step sound event).1
  · intro _ _ sound
    exact sound

theorem moved (run : Run N C) (count : Nat) : Moved run.ontology run.parseFilter (run.graph count)
      (run.graph (count + 1)) := by
  cases found : run.events[count]? with
  | none =>
    rw [graph, graph, state_succ_of_none found]
    exact .stay
  | some event =>
    rw [graph, graph, state_succ found]
    exact (State.moved_step (run.session_sound count) event).2

end Run

/-! ## What the fence checks -/

variable {charge : Nat → Option ApiError}

variable {prepared : Prepared} {point : Point}

variable {stops : PublishStops}

namespace Run

variable {run : Run N C} {prepared : Prepared} {last : Nat}

theorem since (run : Run N C) (ordered : first ≤ last) :
    EntityGraph.Since (run.graph first) (run.graph last) := by
  induction last, ordered using Nat.le_induction with
  | base => exact .refl _
  | succ last ordered ih =>
    exact ih.trans (run.moved last).since

/-- A prepared request has read its row in an earlier graph. -/
def Ready (run : Run N C) (count : Nat) (prepared : Prepared) : Prop :=
  ∃ earlier ≤ count, prepared.observed = (run.graph earlier).state ∧
    ∃ row, (run.graph earlier).entities[prepared.request.id]? = some row

theorem prepare_eq_ok {caller : Caller} {request : CommandRequest} {stops : PrepareStops}
    (succeeded : service.prepare g caller request stops = .ok prepared) :
    prepared.observed = g.state ∧ ∃ row, g.entities[prepared.request.id]? = some row := by
  simp only [CommandService.prepare, except_bind_eq_ok, orFail_eq_ok] at succeeded
  obtain ⟨_, _, _, _, row, found, _, _, _, _, same⟩ := succeeded
  cases same
  exact ⟨rfl, row, found⟩

variable {event : Event N C} {operation : Nat}

/-- An operation that waits for its publication was waiting before, or the event
has prepared it. -/
theorem operations_step {s : State N C}
    (waiting : (s.step service ontology parseFilter event).operations[operation]? =
      some (.prepared prepared)) :
    s.operations[operation]? = some (.prepared prepared) ∨
      ∃ caller request stops, service.prepare s.session.graph caller request
        stops = .ok prepared := by
  have kept {other : Nat} {stage : Stage} (final : ∀ prepared, stage ≠ .prepared prepared)
      (found : (s.operations.set other stage)[operation]? = some (.prepared prepared)) :
      s.operations[operation]? = some (.prepared prepared) := by
    rw [List.getElem?_set] at found
    split at found
    · split at found
      · exact absurd (Option.some.inj found) (final prepared)
      · cases found
    · exact found
  cases event with
  | write command | tick elapsed => exact .inl waiting
  | sweep =>
    unfold State.step at waiting
    cases expires : s.store.expire s.now <;> rw [expires] at waiting <;>
      exact .inl waiting
  | prepare caller request stops =>
    change (s.operations ++ [_])[operation]? = _ at waiting
    rw [List.getElem?_append] at waiting
    split at waiting
    · exact .inl waiting
    · have last := List.mem_singleton.mp (List.mem_of_getElem? waiting)
      cases succeeded : service.prepare s.session.graph caller request stops with
      | error =>
        rw [succeeded] at last
        cases last
      | ok =>
        rw [succeeded] at last
        cases last
        exact .inr ⟨caller, request, stops, succeeded⟩
  | publish other stops =>
    change (s.publish service other stops).operations[operation]? = _ at waiting
    unfold State.publish at waiting
    split at waiting
    · split at waiting
      · exact .inl waiting
      · exact .inl (kept (by simp) waiting)
      · exact .inl (kept (by simp) waiting)
    · exact .inl waiting
  | answer other failure =>
    change (s.answer other failure).operations[operation]? = _ at waiting
    unfold State.answer at waiting
    split at waiting
    · exact .inl (kept (by simp) waiting)
    · exact .inl waiting

theorem ready (run : Run N C) (count : Nat)
    (waiting : (run.state count).operations[operation]? = some (.prepared prepared)) :
    run.Ready count prepared := by
  induction count with
  | zero =>
    cases waiting
  | succ count ih =>
    have extend (ready : run.Ready count prepared) : run.Ready (count + 1) prepared := by
      obtain ⟨earlier, before, facts⟩ := ready
      exact ⟨earlier, before.trans (Nat.le_succ count), facts⟩
    cases found : run.events[count]? with
    | none =>
      rw [state_succ_of_none found] at waiting
      exact extend (ih waiting)
    | some =>
      rw [state_succ found] at waiting
      rcases operations_step waiting with
        earlier | ⟨caller, request, stops, succeeded⟩
      · exact extend (ih earlier)
      · exact ⟨count, Nat.le_succ count, prepare_eq_ok succeeded⟩

variable {count : Nat}

/-- The row that a published request has read is still there. -/
theorem Ready.present (ready : run.Ready count prepared)
    (same : (run.graph count).state = prepared.observed) :
    ∃ row, (run.graph count).entities[prepared.request.id]? = some row := by
  obtain ⟨earlier, before, observed, row, found⟩ := ready
  have version : (run.graph earlier).version = (run.graph count).version :=
    congrArg GraphState.revision (observed.symm.trans same.symm)
  have rows := (run.since before).rows version
  have entities : (run.graph count).entities = (run.graph earlier).entities :=
    congrArg Rows.entities rows
  exact ⟨row, by rw [entities, found]⟩

/-! ## The fence along a run -/

variable {slots : Slots}

end Run
end Command
end App
end Haystack
