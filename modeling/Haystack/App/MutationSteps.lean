import Haystack.App.Mutation
import Haystack.Protocol.Ledger

/-!
# Steps of a mutation store

What an event can do to a store: it advances the stage of one submission, binds
a receipt, uses up a prepared mutation, or touches the graph or the policies.
The invariants of a run are derived from these cases.
-/

namespace Haystack
namespace App

open Collections Haystack.Graph
open Haystack.Filter (FilterNode Ontology)
open Protocol

namespace Store

variable {N C : Type} (codec : Codec)

/-- What the stage of a submission may become in a step that leaves everything
else alone. -/
inductive Advanced (calm : Bool) (s : Store N C) (submission : Submission) : Stage → Prop
  | stay : Advanced calm s submission submission.stage
  | interrupted (error : ReadError) (fired : calm = false) (waiting : submission.stage.isOpen) :
      Advanced calm s submission (submission.answer (.error (readReason error)))
  | invalid (received : submission.stage = .received)
      (refused : codec.encodeRequest submission.request = none) :
      Advanced calm s submission (submission.answer (.error .invalid))
  | forbidden (service : Service) (received : submission.stage = .received)
      (serving : s.services[submission.service]? = some service)
      (refused : service.policy.rules.authorizeIntent submission.principal
        submission.request = false) :
      Advanced calm s submission (submission.answer (.error .forbidden))
  | misplaced (received : submission.stage = .received)
      (elsewhere : submission.request.identity.dataset ≠ s.dataset) :
      Advanced calm s submission (submission.answer (.error .conflict))
  | admitted (service : Service) (canonical : List UInt8)
      (received : submission.stage = .received)
      (serving : s.services[submission.service]? = some service)
      (encoded : codec.encodeRequest submission.request = some canonical)
      (authorized : service.policy.rules.authorizeIntent submission.principal
        submission.request = true)
      (placed : submission.request.identity.dataset = s.dataset) :
      Advanced calm s submission (.admitted canonical service.policy)
  | recognized (canonical : List UInt8) (policy : PolicyVersion) (record : Record)
      (waiting : submission.stage = .admitted canonical policy ∨ ∃ plan receipt,
          submission.stage = .authorized canonical policy plan receipt)
      (bound : s.receipts.entries[submission.binding]? = some record) :
      Advanced calm s submission
        (submission.answer (submission.recognize policy canonical record))
  | unbound (canonical : List UInt8) (policy : PolicyVersion)
      (admitted : submission.stage = .admitted canonical policy)
      (free : s.receipts.entries[submission.binding]? = none) :
      Advanced calm s submission (.unbound canonical policy)
  | unprepared (service : Service) (canonical : List UInt8)
      (policy : PolicyVersion) (allocation : Allocation)
      (retainedRemaining : Nat) (reason : RejectionReason)
      (unbound : submission.stage = .unbound canonical policy)
      (failed : s.prepare codec service submission policy allocation
        retainedRemaining = .error reason) :
      Advanced calm s submission (submission.answer (.error reason))
  | authorized (service : Service) (canonical : List UInt8)
      (policy : PolicyVersion) (allocation : Allocation)
      (retainedRemaining : Nat) (plan : PreparedBatch)
      (receipt : EntityReceipt)
      (unbound : submission.stage = .unbound canonical policy)
      (prepared : s.prepare codec service submission policy allocation
        retainedRemaining = .ok (plan, receipt)) :
      Advanced calm s submission (.authorized canonical policy plan receipt)
  | full (canonical : List UInt8) (policy : PolicyVersion)
      (plan : PreparedBatch) (receipt : EntityReceipt)
      (authorized : submission.stage = .authorized canonical policy plan receipt)
      (free : s.receipts.entries[submission.binding]? = none) :
      Advanced calm s submission (submission.answer (.error .capacity))
  | acknowledged (outcome : MutationOutcome) (found : Bool)
      (committing : submission.stage = .committing) :
      Advanced calm s submission (.answered (s.acknowledge submission outcome found))

variable {codec} {calm : Bool} {s : Store N C} {submission : Submission} {service : Service}

theorem admit_advanced (received : submission.stage = .received)
    (serving : s.services[submission.service]? = some service) :
    Advanced codec calm s submission (s.admission codec service submission) := by
  unfold admission
  split
  · rename_i canonical _ encoded
    split
    · rename_i refused
      exact .forbidden service received serving refused
    · rename_i authorized
      split
      · rename_i elsewhere
        exact .misplaced received elsewhere
      · rename_i placed
        exact .admitted service canonical received serving encoded
          (by simpa using authorized) (by simpa using placed)
  · rename_i unencodable
    refine .invalid received ?_
    cases encoded : codec.encodeRequest submission.request with
    | none => rfl
    | some canonical =>
      unfold Codec.encodeRequest at encoded
      split at encoded
      · cases encoded
      · rename_i bytes sourced
        refine (unencodable bytes canonical sourced ?_).elim
        rw [Codec.encodeRequest, sourced]
        exact encoded

theorem lookup_advanced {canonical : List UInt8} {policy : PolicyVersion}
    (admitted : submission.stage = .admitted canonical policy) :
    Advanced codec calm s submission (s.lookup submission canonical policy) := by
  unfold lookup
  split
  · rename_i record bound
    exact .recognized canonical policy record (.inl admitted) bound
  · rename_i free
    exact .unbound canonical policy admitted free

/-- Every action advances the submission. -/
theorem next_advanced (serving : s.services[submission.service]? = some service)
    (action : Action) :
    Advanced codec action.isCalm s submission (s.next codec service submission action) := by
  cases action with
  | interrupt error =>
    simp only [next]
    split
    · rename_i waiting
      exact .interrupted error rfl waiting
    · exact .stay
  | admission =>
    simp only [next]
    split
    · rename_i received
      exact admit_advanced received serving
    · exact .stay
  | lookup =>
    simp only [next]
    split
    · rename_i admitted
      exact lookup_advanced admitted
    · exact .stay
  | prepare allocation retainedRemaining =>
    simp only [next]
    split
    · rename_i canonical policy unbound
      split
      · rename_i failed
        exact .unprepared service canonical policy allocation retainedRemaining _ unbound failed
      · rename_i prepared
        exact .authorized service canonical policy allocation
          retainedRemaining _ _ unbound prepared
    · exact .stay
  | acknowledge outcome found =>
    simp only [next]
    split
    · rename_i committing
      exact .acknowledged outcome found committing
    · exact .stay

variable (codec) (ontology : Ontology N C) (parseFilter : String → Except String FilterNode)

/-- What an event can do to a store, and the batch that it applies. -/
inductive Stepped (calm : Bool) (s : Store N C) :
    Store N C → Option (Binding × EntityReceipt) → Prop
  | stay : Stepped calm s s none
  | opened (service : Service) (fired : calm = false)
      (fresh : service.policy.generation = s.generations) :
      Stepped calm s
        { s with
          services := s.services ++ [service]
          generations := s.generations + 1 } none
  | replaced (service : Nat) (rules : MutationPolicy) (fired : calm = false)
      (released : s.policyHeld service = false) :
      Stepped calm s
        { s with
          services := s.services.modify service ({ · with policy := ⟨rules, s.generations⟩ })
          generations := s.generations + 1 } none
  | submitted (submission : Submission) (received : submission.stage = .received) :
      Stepped calm s { s with submissions := s.submissions ++ [submission] } none
  | advanced (index : Nat) (submission : Submission) (stage : Stage)
      (found : s.submissions[index]? = some submission)
      (advanced : Advanced codec calm s submission stage) :
      Stepped calm s (s.withStage index stage) none
  | bound (index : Nat) (submission : Submission) (canonical : List UInt8)
      (policy : PolicyVersion) (plan : PreparedBatch) (receipt : EntityReceipt)
      (found : s.submissions[index]? = some submission)
      (authorized : submission.stage = .authorized canonical policy plan receipt)
      (free : s.receipts.entries[submission.binding]? = none) :
      Stepped calm s (s.bind index submission canonical
          { service := submission.service
            binding := submission.binding
            plan
            receipt
            generation := policy.generation }) none
  | rejected (index : Nat) (mutation : PreparedMutation) (reason : RejectionReason)
      (found : s.prepared[index]? = some mutation) :
      Stepped calm s (s.settle index mutation (.rejected mutation.receipt.identity reason)) none
  | committed (index : Nat) (mutation : PreparedMutation) (service : Service)
      (now : Int) (reserved : Bool) (span : Option CommitSpan)
      (graph : EntityGraph N C)
      (found : s.prepared[index]? = some mutation)
      (serving : s.services[mutation.service]? = some service)
      (current : service.policy.generation = mutation.generation)
      (applied : s.graph.graph.applyPrepared now reserved mutation.plan = .ok (span, graph)) :
      Stepped calm s
        { s.settle index mutation (.committed mutation.receipt) with
          graph := { s.graph with graph } }
        (some (mutation.binding, mutation.receipt))
  | dropped (index : Nat) : Stepped calm s { s with prepared := s.prepared.eraseIdx index } none
  | wrote (command : Command N C) : Stepped calm s
        { s with graph := s.graph.step ontology parseFilter command } none
  | swapped (next : DetachedGraph N C) (incarnation : BitVec 128)
      (fresh : incarnation ∉ s.incarnations) :
      Stepped calm s
        { s with
          graph := ⟨{ next.graph with incarnation }, []⟩
          incarnations := incarnation :: s.incarnations } none

variable {codec ontology parseFilter}

theorem act_stepped (s : Store N C) (index : Nat) (action : Action) :
    Stepped codec ontology parseFilter action.isCalm s (s.act codec index action) none := by
  unfold act
  cases found : s.submissions[index]? with
  | none =>
    rw [modify_eq_self (by simp [found])]
    exact .stay
  | some submission =>
    cases serving : s.services[submission.service]? with
    | none =>
      rw [modify_eq_self]
      · exact .stay
      · intro party held
        obtain rfl := Option.some.inj (found.symm.trans held)
        simp [advance, serving]
    | some service =>
      have same : s.submissions.modify index (s.advance codec action) = s.submissions.modify index
            ({ · with
              stage := s.next codec service submission action }) := by
        apply modify_congr
        intro party held
        obtain rfl := Option.some.inj (found.symm.trans held)
        simp [advance, serving]
      rw [same]
      exact .advanced index submission _ found (next_advanced serving action)

theorem reserve_stepped (s : Store N C) (index : Nat) (room : Bool) :
    Stepped codec ontology parseFilter calm s (s.reserve index room) none := by
  unfold reserve
  split
  · exact .stay
  rename_i submission found
  split
  · rename_i canonical policy plan receipt service authorized serving
    split
    · rename_i record bound
      exact .advanced index submission _ found
        (.recognized canonical policy record (.inr ⟨plan, receipt, authorized⟩) bound)
    · rename_i free
      split
      · exact .advanced index submission _ found
          (.full canonical policy plan receipt authorized free)
      · exact .bound index submission canonical policy plan receipt found authorized free
  · exact .stay

/-- A mutation is committed by its service under the policy it was prepared
for. -/
theorem commit_eq_ok {mutation : PreparedMutation} {now : Int} {reserved : Bool}
    {stop : Option Stop} {result : Option CommitSpan × EntityGraph N C}
    (committed : s.commit mutation now reserved stop = .ok result) :
    (∃ service, s.services[mutation.service]? = some service ∧
      service.policy.generation = mutation.generation) ∧
      s.graph.graph.applyPrepared now reserved mutation.plan = .ok result := by
  unfold commit at committed
  split at committed
  · cases committed
  split at committed
  · cases committed
  rename_i current
  exact ⟨Option.map_eq_some_iff.mp (not_not.mp current), except_mapError_eq_ok.mp committed⟩

theorem publish_stepped (s : Store N C) (index : Nat) (now : Int) (reserved : Bool)
    (stop : Option Stop) :
    Stepped codec ontology parseFilter calm s (s.publish index now reserved stop)
      (s.applied (.publish index now reserved stop)) := by
  cases found : s.prepared[index]? with
  | none =>
    simp only [publish, applied, found]
    exact .stay
  | some mutation =>
    cases committed : s.commit mutation now reserved stop with
    | error reason =>
      simp only [publish, applied, found, committed]
      exact .rejected index mutation reason found
    | ok =>
      simp only [publish, applied, found, committed]
      obtain ⟨⟨service, serving, current⟩, published⟩ := commit_eq_ok committed
      exact .committed index mutation service now reserved _ _ found serving current published

/-- Every event is one of the steps. -/
theorem stepped (s : Store N C) (event : Event N C) :
    Stepped codec ontology parseFilter event.isCalm s
      (s.step codec ontology parseFilter event) (s.applied event) := by
  cases event with
  | openService =>
    simp only [step, openService]
    split
    · exact .opened _ rfl rfl
    · exact .stay
  | replacePolicy service rules =>
    simp only [step, replacePolicy]
    split
    · exact .stay
    · rename_i released
      exact .replaced service rules rfl (by simpa using released)
  | submit => exact .submitted _ rfl
  | act submission action => exact act_stepped s submission action
  | reserve submission room => exact reserve_stepped s submission room
  | publish prepared now reserved stop =>
    exact publish_stepped s prepared now reserved stop
  | reject prepared reason =>
    simp only [step, reject]
    split
    · exact .stay
    · rename_i mutation found
      exact .rejected prepared mutation reason found
  | drop prepared => exact .dropped prepared
  | native command => exact .wrote command
  | replaceGraph next incarnation =>
    simp only [step, replaceGraph]
    split
    · exact .stay
    · rename_i fresh
      exact .swapped next incarnation fresh

end Store
end App
end Haystack
