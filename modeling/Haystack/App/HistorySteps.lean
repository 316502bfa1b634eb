import Haystack.App.HistoryMutation
import Haystack.App.HistorySeries
import Haystack.Protocol.Ledger

/-!
# Steps of a history authority

What an event can do to an authority: it advances the stage of one submission,
opens a point, binds a receipt, uses up a prepared mutation, runs a native
command, or touches the graph or the policies.
-/

namespace Haystack
namespace App
namespace History

open Collections Haystack.Graph
open Haystack.Filter (FilterNode Ontology)
open Protocol

/-- The request is within the limits of a service. -/
def Limits.Admits (limits : Limits) (request : HistoryWriteRequest) : Prop :=
  request.samples.length ≤ limits.maxSamples ∧
    ∃ source, request.sourceBytes = some source ∧ source ≤ limits.maxSourceBytes

namespace Stage

/-- The submission is being prepared. -/
def isPreparing : Stage → Bool
  | .unbound _ => true
  | .inspected .. => true
  | .opened .. => true
  | _ => false

/-- The submission looks its receipt up next. -/
def looksUp (intent : Intent) : Stage → Prop
  | .admitted held => held = intent
  | .refused held _ => held = intent
  | .planned held _ => held = intent
  | _ => False

end Stage

namespace Authority

variable {N C : Type} (codec : HistoryCodec) (tables : Tables)

/-- What the stage of a submission may become in a step that leaves everything
else alone. -/
inductive Advanced (calm : Bool) (s : Authority N C) (submission : Submission) : Stage → Prop
  | stay : Advanced calm s submission submission.stage
  | interrupted (error : ReadError) (fired : calm = false) :
      Advanced calm s submission (interrupted submission error)
  | overLimit (service : Service) (received : submission.stage = .received)
      (serving : s.services[submission.service]? = some service)
      (exceeds : ¬service.limits.Admits submission.request) :
      Advanced calm s submission (submission.decide (.error .limit))
  | invalid (received : submission.stage = .received)
      (refused : codec.canonicalRequest submission.request = none) :
      Advanced calm s submission (submission.decide (.error .invalid))
  | admitted (service : Service) (source : Nat) (canonical : List UInt8)
      (received : submission.stage = .received)
      (serving : s.services[submission.service]? = some service)
      (admits : service.limits.Admits submission.request)
      (encoded : codec.canonicalRequest submission.request = some canonical) :
      Advanced calm s submission (.admitted ⟨source, canonical, service.policy⟩)
  | recognized (intent : Intent) (record : HistoryRecord)
      (waiting : submission.stage.looksUp intent)
      (bound : s.store.receipts[submission.binding]? = some record) :
      Advanced calm s submission (submission.decide (submission.recognized intent record))
  | unsettled (intent : Intent) (result : Except HistoryWriteRejection HistoryWriteOutcome)
      (admitted : submission.stage = .admitted intent)
      (free : s.store.receipts[submission.binding]? = none) :
      Advanced calm s submission (submission.decide result)
  | unbound (intent : Intent) (admitted : submission.stage = .admitted intent)
      (free : s.store.receipts[submission.binding]? = none)
      (home : submission.request.identity.authority = s.store.authority) :
      Advanced calm s submission (.unbound intent)
  | inspected (intent : Intent) (schema : HistorySchema) (graph : GraphState)
      (unbound : submission.stage = .unbound intent)
      (read : s.inspect tables submission intent.policy = .ok (schema, graph)) :
      Advanced calm s submission (.inspected intent schema graph)
  | refused (intent : Intent) (reason : HistoryWriteRejection)
      (preparing : submission.stage.isPreparing)
      (held : submission.stage.intent = some intent) :
      Advanced calm s submission (.refused intent reason)
  | planned (service : Service) (intent : Intent) (schema : HistorySchema)
      (graph : GraphState) (series : Series) (room : Bool)
      (plan : Option PreparedSeries)
      (opened : submission.stage = .opened intent schema graph)
      (planned : planSeries codec tables s.store service.limits
        service.qualification submission.request intent.source schema graph
        series room = .ok plan) :
      Advanced calm s submission (.planned intent plan)
  | failed (intent : Intent) (reason : HistoryWriteRejection)
      (refused : submission.stage = .refused intent reason)
      (free : s.store.receipts[submission.binding]? = none) :
      Advanced calm s submission (submission.decide (.error reason))
  | full (intent : Intent) (plan : Option PreparedSeries)
      (planned : submission.stage = .planned intent plan)
      (free : s.store.receipts[submission.binding]? = none) :
      Advanced calm s submission (submission.decide (.error .capacity))
  | acknowledged (outcome : HistoryWriteOutcome) (found : Bool)
      (committing : submission.stage = .committing) :
      Advanced calm s submission (.decided (s.acknowledge submission outcome found))
  | finished (outcome : HistoryWriteOutcome) (decided : submission.stage = .decided outcome) :
      Advanced calm s submission (.answered outcome)

variable {codec tables} {calm : Bool} {s : Authority N C} {submission : Submission}

variable {service : Service}

theorem admit_advanced (received : submission.stage = .received)
    (serving : s.services[submission.service]? = some service) :
    Advanced codec tables calm s submission (admission codec service submission) := by
  unfold admission
  split
  · rename_i unsourced
    refine .overLimit service received serving ?_
    rintro ⟨_, source, sourced, _⟩
    rw [unsourced] at sourced
    cases sourced
  · rename_i source sourced
    split
    · rename_i exceeds
      refine .overLimit service received serving ?_
      rintro ⟨few, other, same, small⟩
      obtain rfl := Option.some.inj (sourced.symm.trans same)
      simp only [Bool.or_eq_true, decide_eq_true_eq] at exceeds
      omega
    · rename_i within
      simp only [Bool.or_eq_true, decide_eq_true_eq, not_or, not_lt] at within
      split
      · rename_i refused
        exact .invalid received refused
      · rename_i canonical encoded
        exact .admitted service source canonical received serving
          ⟨within.1, source, sourced, within.2⟩ encoded

variable {intent : Intent}

theorem lookup_advanced (capable : Bool) (admitted : submission.stage = .admitted intent) :
    Advanced codec tables calm s submission (s.lookup submission intent capable) := by
  have undecided (free : s.store.receipts[submission.binding]? = none)
      (result : Except HistoryWriteRejection HistoryWriteOutcome) :
      Advanced codec tables calm s submission (submission.decide result) :=
    .unsettled intent result admitted free
  unfold lookup
  simp only
  split
  · rename_i record bound
    exact .recognized intent record (by rw [admitted]; rfl) bound
  · rename_i free
    split
    · split
      · exact undecided free (.error .forbidden)
      · exact undecided free (.ok (.unknown submission.request.identity .missing))
    · rename_i home
      split
      · exact undecided free (.error .unsupported)
      · split
        · exact undecided free (.error .forbidden)
        · exact .unbound intent admitted free (not_not.mp home)

theorem plan_advanced {schema : HistorySchema} {graph : GraphState}
    (service : Service) (room : Bool) (opened : submission.stage = .opened intent schema graph) :
    Advanced codec tables calm s submission
      (s.plan codec tables service submission intent schema graph room) := by
  have refused (reason : HistoryWriteRejection) :
      Advanced codec tables calm s submission (.refused intent reason) :=
    .refused intent reason (by rw [opened]; rfl) (by rw [opened]; rfl)
  unfold plan
  split
  · exact refused .provider
  · split
    · exact refused _
    · rename_i planned
      exact .planned service intent schema graph _ room _ opened planned

/-- Every action advances the submission. -/
theorem next_advanced (serving : s.services[submission.service]? = some service)
    (action : Action) :
    Advanced codec tables action.isCalm s submission
      (s.next codec tables service submission action) := by
  cases action with
  | interrupt error => exact .interrupted error rfl
  | admission =>
    simp only [next]
    split
    · rename_i received
      exact admit_advanced received serving
    · exact .stay
  | lookup capable =>
    simp only [next]
    split
    · rename_i admitted
      exact lookup_advanced capable admitted
    · exact .stay
  | inspect =>
    simp only [next]
    split
    · rename_i intent unbound
      split
      · exact .refused intent _ (by rw [unbound]; rfl) (by rw [unbound]; rfl)
      · rename_i read
        exact .inspected intent _ _ unbound read
    · exact .stay
  | plan room =>
    simp only [next]
    split
    · rename_i opened
      exact plan_advanced service room opened
    · exact .stay
  | relook =>
    simp only [next]
    split
    · rename_i intent reason refused
      unfold relook
      split
      · rename_i record bound
        exact .recognized intent record (by rw [refused]; rfl) bound
      · rename_i free
        exact .failed intent reason refused free
    · exact .stay
  | acknowledge outcome found =>
    simp only [next]
    split
    · rename_i committing
      exact .acknowledged outcome found committing
    · exact .stay
  | finish =>
    simp only [next]
    split
    · rename_i outcome decided
      exact .finished outcome decided
    · exact .stay

variable (codec tables) (ontology : Ontology N C)
variable (parseFilter : String → Except String FilterNode)

/-- What an event can do to an authority, and the write that it publishes. -/
inductive Stepped (calm : Bool) (s : Authority N C) :
    Authority N C → Option (HistoryBinding × HistoryWriteReceipt) → Prop
  | stay : Stepped calm s s none
  | opened (service : Service) (fired : calm = false) : Stepped calm s { s with
          services := s.services ++ [service]
          generations := s.generations + 1 } none
  | replaced (service : Nat) (rules : Policy) (fired : calm = false) : Stepped calm s { s with
          services := s.services.modify service ({ · with policy := ⟨rules, s.generations⟩ })
          generations := s.generations + 1 } none
  | submitted (submission : Submission) (received : submission.stage = .received) :
      Stepped calm s { s with submissions := s.submissions ++ [submission] } none
  | advanced (index : Nat) (submission : Submission) (stage : Stage)
      (found : s.submissions[index]? = some submission)
      (advanced : Advanced codec tables calm s submission stage) :
      Stepped calm s (s.withStage index stage) none
  | pointed (index : Nat) (submission : Submission) (intent : Intent)
      (schema : HistorySchema) (graph : GraphState) (store : HisStore)
      (series : Series)
      (found : s.submissions[index]? = some submission)
      (inspected : submission.stage = .inspected intent schema graph)
      (opens : s.store.Opened submission.request.identity.point store series) :
      Stepped calm s { s.withStage index (.opened intent schema graph) with store } none
  | bound (index : Nat) (submission : Submission) (intent : Intent) (plan : Option PreparedSeries)
      (found : s.submissions[index]? = some submission)
      (planned : submission.stage = .planned intent plan)
      (free : s.store.receipts[submission.binding]? = none) :
      Stepped calm s (s.bind index submission intent plan) none
  | rejected (index : Nat) (mutation : PreparedMutation) (reason : HistoryWriteRejection)
      (found : s.prepared[index]? = some mutation) :
      Stepped calm s (s.settle index mutation (.rejected mutation.binding.identity reason)) none
  | committed (index : Nat) (mutation : PreparedMutation) (series : Series)
      (found : s.prepared[index]? = some mutation)
      (standing : s.graph.graph.state = mutation.plan.graph)
      (held : s.store.points[mutation.plan.point]? = some series)
      (incarnation : series.incarnation = mutation.plan.change.before.incarnation)
      (generation : series.generation = mutation.plan.change.before.generation)
      (room : s.store.sequence + 1 ≤ u64Max) :
      Stepped calm s { s with
          store := publishStore s.store mutation (s.store.sequence + 1)
          prepared := s.prepared.eraseIdx index }
        (some (mutation.binding, publishedReceipt mutation (s.store.sequence + 1)))
  | dropped (index : Nat) : Stepped calm s { s with prepared := s.prepared.eraseIdx index } none
  | recorded (command : HisStore.HisCommand) :
      Stepped calm s { s with store := s.store.step command } none
  | wrote (command : Command N C) : Stepped calm s
        { s with graph := s.graph.step ontology parseFilter command } none
  | swapped (next : DetachedGraph N C) (incarnation : BitVec 128)
      (fresh : incarnation ∉ s.incarnations) :
      Stepped calm s { s with
          graph := ⟨{ next.graph with incarnation }, []⟩
          incarnations := incarnation :: s.incarnations } none

variable {codec tables ontology parseFilter}

theorem act_stepped (s : Authority N C) (index : Nat) (action : Action) :
    Stepped codec tables ontology parseFilter action.isCalm s
      (s.act codec tables index action) none := by
  unfold act
  cases found : s.submissions[index]? with
  | none =>
    rw [modify_eq_self (by simp [found])]
    exact .stay
  | some submission =>
    cases serving : s.services[submission.service]? with
    | none =>
      rw [modify_eq_self]
      · exact .stay
      · intro party held
        obtain rfl := Option.some.inj (found.symm.trans held)
        simp [advance, serving]
    | some service =>
      have same : s.submissions.modify index (s.advance codec tables action) =
          s.submissions.modify index ({ · with
              stage := s.next codec tables service submission action }) := by
        apply modify_congr
        intro party held
        obtain rfl := Option.some.inj (found.symm.trans held)
        simp [advance, serving]
      rw [same]
      exact .advanced index submission _ found (next_advanced serving action)

theorem openPoint_stepped (s : Authority N C) (index : Nat) (draw : Draw) :
    Stepped codec tables ontology parseFilter calm s (s.openPoint index draw) none := by
  unfold openPoint
  split
  · exact .stay
  rename_i submission found
  split
  · rename_i intent schema graph inspected
    split
    · exact .advanced index submission _ found
        (.refused intent _ (by rw [inspected]; rfl) (by rw [inspected]; rfl))
    · rename_i store series opened
      exact .pointed index submission intent schema graph store series found
        inspected (HisStore.pointIn_eq_ok opened)
  · exact .stay

theorem reserve_stepped (s : Authority N C) (index : Nat) (room : Bool) :
    Stepped codec tables ontology parseFilter calm s (s.reserve index room) none := by
  unfold reserve
  split
  · exact .stay
  rename_i submission found
  split
  · rename_i intent plan planned
    split
    · rename_i record bound
      exact .advanced index submission _ found
        (.recognized intent record (by rw [planned]; rfl) bound)
    · rename_i free
      split
      · exact .advanced index submission _ found (.full intent plan planned free)
      · exact .bound index submission intent plan found planned free
  · exact .stay

/-- A mutation is committed while the graph and the series stand where it was
planned, under the next sequence of the ledger. -/
theorem commit_eq_ok {mutation : PreparedMutation} {stop : Option Stop} {sequence : Nat}
    (committed : s.commit mutation stop = .ok sequence) :
    s.graph.graph.state = mutation.plan.graph ∧
      sequence = s.store.sequence + 1 ∧ s.store.sequence + 1 ≤ u64Max ∧
      ∃ series, s.store.points[mutation.plan.point]? = some series ∧
        series.incarnation = mutation.plan.change.before.incarnation ∧
        series.generation = mutation.plan.change.before.generation := by
  unfold commit at committed
  split at committed
  · cases committed
  split at committed
  · cases committed
  split at committed
  · cases committed
  rename_i standing
  split at committed
  · cases committed
  rename_i series held
  split at committed
  · cases committed
  rename_i current
  split at committed
  · cases committed
  rename_i next grown
  split at committed
  swap
  · cases committed
  obtain rfl := Except.ok.inj committed
  obtain ⟨rfl, room⟩ := checkedAdd_eq_some_iff.mp grown
  simp only [not_or, not_not] at current
  exact ⟨not_not.mp standing, rfl, room, series, held, current.1, current.2⟩

theorem publish_stepped (s : Authority N C) (index : Nat) (stop : Option Stop) :
    Stepped codec tables ontology parseFilter calm s (s.publish index stop)
      (s.applied (.publish index stop)) := by
  cases found : s.prepared[index]? with
  | none =>
    simp only [publish, applied, found]
    exact .stay
  | some mutation =>
    cases committed : s.commit mutation stop with
    | error reason =>
      simp only [publish, applied, found, committed]
      exact .rejected index mutation reason found
    | ok =>
      simp only [publish, applied, found, committed]
      obtain ⟨standing, rfl, room, series, held, incarnation, generation⟩ :=
        commit_eq_ok committed
      exact .committed index mutation series found standing held incarnation generation room

/-- Every event is one of the steps. -/
theorem stepped (s : Authority N C) (event : Event N C) :
    Stepped codec tables ontology parseFilter event.isCalm s
      (s.step codec tables ontology parseFilter event) (s.applied event) := by
  cases event with
  | openService =>
    simp only [step, openService]
    split
    · exact .opened _ rfl
    · exact .stay
  | replacePolicy service rules =>
    simp only [step, replacePolicy]
    split
    · exact .stay
    · exact .replaced service rules rfl
  | submit => exact .submitted _ rfl
  | act submission action => exact act_stepped s submission action
  | openPoint submission draw => exact openPoint_stepped s submission draw
  | reserve submission room => exact reserve_stepped s submission room
  | publish prepared stop => exact publish_stepped s prepared stop
  | reject prepared reason =>
    simp only [step, reject]
    split
    · exact .stay
    · rename_i mutation found
      exact .rejected prepared mutation reason found
  | drop prepared => exact .dropped prepared
  | history command => exact .recorded command
  | native command => exact .wrote command
  | replaceGraph next incarnation =>
    simp only [step, replaceGraph]
    split
    · exact .stay
    · rename_i fresh
      exact .swapped next incarnation fresh

end Authority
end History
end App
end Haystack
