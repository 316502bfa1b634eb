import Haystack.App.MutationOnce

/-!
# Duplicate submissions

Two submissions of the same request race.  One of them commits; the other finds
the receipt when it looks it up or when it reserves it, but not in between: a
submission that is past its lookup and not yet prepared when its twin commits
meets the new revision and answers a conflict.
-/

namespace Haystack
namespace App

open Collections Haystack.Graph
open Haystack.Filter (FilterNode Ontology)

variable {N C : Type}

namespace Stage

/-- The policy that a submission holds. -/
def policy : Stage → Option PolicyVersion
  | .admitted _ policy => some policy
  | .unbound _ policy => some policy
  | .authorized _ policy _ _ => some policy
  | _ => none

variable {stage : Stage}

end Stage

namespace Store

variable {codec : Codec} {ontology : Ontology N C}
variable {parseFilter : String → Except String FilterNode}

/-- All services have these rules, and so do the submissions that hold them. -/
structure Governed (rules : MutationPolicy) (s : Store N C) : Prop where
  services : ∀ service ∈ s.services, service.policy.rules = rules
  submissions : ∀ submission ∈ s.submissions, ∀ policy,
    submission.stage.policy = some policy → policy.rules = rules

variable {s : Store N C} {applied : Option (Binding × EntityReceipt)} {s' : Store N C}

theorem Stepped.services_eq (stepped : Stepped codec ontology parseFilter true s s' applied) :
    s'.services = s.services := by
  cases stepped with
  | opened service fired fresh | replaced service rules fired released => cases fired
  | _ => rfl

variable {submission : Submission}

theorem Advanced.policy {calm : Bool} {stage : Stage}
    (advanced : Advanced codec calm s submission stage) {policy : PolicyVersion}
    (holds : stage.policy = some policy) :
    submission.stage.policy = some policy ∨ ∃ service ∈ s.services, policy = service.policy := by
  cases advanced with
  | stay => exact .inl holds
  | admitted service canonical received serving =>
    obtain rfl := Option.some.inj holds
    exact .inr ⟨service, List.mem_of_getElem? serving, rfl⟩
  | unbound canonical held admitted =>
    rw [admitted]
    exact .inl holds
  | authorized service canonical held allocation retainedRemaining plan receipt
      unbound prepared =>
      rw [unbound]
      exact .inl holds
  | recognized =>
    unfold Submission.answer at holds
    split at holds <;> cases holds
  | _ => cases holds

variable {rules : MutationPolicy}

theorem Governed.step (governed : Governed rules s)
    (stepped : Stepped codec ontology parseFilter true s s' applied) : Governed rules s' := by
  refine ⟨stepped.services_eq ▸ governed.services, ?_⟩
  intro after member policy holds
  obtain ⟨_, found⟩ := List.mem_iff_getElem?.mp member
  rcases stepped.submission found with ⟨_, received⟩ |
    ⟨before, held, _, advanced | ⟨committing, _⟩⟩
  · rw [received] at holds
    cases holds
  · rcases advanced.policy holds with already | ⟨service, serving, rfl⟩
    · exact governed.submissions before (List.mem_of_getElem? held) policy already
    · exact governed.services service serving
  · rw [committing] at holds
    cases holds

variable {record : Record} {receipt : EntityReceipt}

variable {binding : Binding}

variable (codec ontology parseFilter) in
/-- The store is reached from a new one with one service, under its rules and
without deadlines, cancellation or exhausted budgets. -/
def CalmlyReached (rules : MutationPolicy) (s : Store N C) : Prop :=
  ∃ graph incarnation dataset limits qualification events,
    (∀ event ∈ events, Event.isCalm event = true) ∧
      s = ((Store.new graph incarnation dataset : Store N C).openService limits
        qualification rules).run codec ontology parseFilter events

theorem governed_open (graph : DetachedGraph N C) (incarnation dataset : BitVec 128)
    (limits : MutationLimits) (qualification : ReceiptQualification) (rules : MutationPolicy) :
    Governed rules ((Store.new graph incarnation dataset).openService limits
      qualification rules) := by
  unfold openService
  split
  · refine ⟨?_, nofun⟩
    intro service member
    obtain rfl := List.mem_singleton.mp member
    rfl
  · exact ⟨nofun, nofun⟩

theorem Governed.run (governed : Governed rules s) {events : List (Event N C)}
    (calm : ∀ event ∈ events, event.isCalm = true) :
    Governed rules (s.run codec ontology parseFilter events) := by
  induction events generalizing s with
  | nil => exact governed
  | cons event events ih =>
    have stepped : Stepped codec ontology parseFilter event.isCalm s _ _ := stepped s event
    rw [calm event List.mem_cons_self] at stepped
    exact ih (governed.step stepped)
      fun other member => calm other (List.mem_cons_of_mem event member)

theorem CalmlyReached.sound (reached : CalmlyReached codec ontology parseFilter rules s) :
    s.Sound codec ∧ Governed rules s := by
  obtain ⟨graph, incarnation, dataset, limits, qualification, events, calm, rfl⟩ := reached
  have fresh : (Store.new graph incarnation dataset : Store N C).Sound codec :=
    sound_new graph incarnation dataset
  have opened : Stepped codec ontology parseFilter _ _ _ _ :=
    stepped (Store.new graph incarnation dataset) (.openService limits qualification rules)
  exact ⟨(opened.sound fresh).run events,
    (governed_open graph incarnation dataset limits qualification rules).run calm⟩

end Store

namespace Sample

def opened : Store Unit Unit := start.openService .default .ephemeralMemory allowAllMutations

end Sample

end App
end Haystack
