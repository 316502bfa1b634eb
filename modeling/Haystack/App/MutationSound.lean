import Haystack.App.MutationSteps
import Haystack.Graph.PlannedRows

/-!
# Sound mutation stores

The invariant of a mutation store.  A submission that holds a policy was
authorized by it; the plan of an authorized submission or of a prepared mutation
was prepared from its request, and is for the present graph if it is for its
incarnation; a prepared mutation has a pending receipt of its own.
-/

namespace Haystack
namespace App

open Std (ExtTreeMap)
open Collections Haystack.Graph
open Haystack.Filter (FilterNode Ontology)
open EntityGraph (PreparedFrom PlansRows Later Moved)
open Protocol

variable {N C : Type}

/-! ## Plans -/

/-- A plan was prepared for these operations at an earlier state of the graph. -/
def PlanFor (g : EntityGraph N C) (operations : List EntityOperation)
    (plan : PreparedBatch) : Prop :=
  ∃ source effects written rows, PreparedFrom source operations plan effects written rows ∧
      PlansRows source plan ∧ source.Indexed ∧ Later source g

variable {g : EntityGraph N C} {operations : List EntityOperation} {plan : PreparedBatch}

theorem PlanFor.valid (planned : PlanFor g operations plan) : Session.PlanValid g plan := by
  obtain ⟨source, effects, written, rows, prepared, _, indexed, later⟩ := planned
  exact ⟨source, operations, effects, written, rows, prepared, indexed, later⟩

theorem PlanFor.later {g' : EntityGraph N C} (planned : PlanFor g operations plan)
    (later : Later g g') : PlanFor g' operations plan := by
  obtain ⟨source, effects, written, rows, prepared, sighted, indexed, earlier⟩ := planned
  exact ⟨source, effects, written, rows, prepared, sighted, indexed, earlier.trans later⟩

variable {span : Option CommitSpan} {reserved : Bool} {after : EntityGraph N C} {now : Int}

/-- The graph stands where the plan was prepared when it is published. -/
theorem PlanFor.standing (planned : PlanFor g operations plan)
    (applied : g.applyPrepared now reserved plan = .ok (span, after)) :
    ∃ source effects written rows, PreparedFrom source operations plan effects written rows ∧
        PlansRows source plan ∧ EntityGraph.Standing source g := by
  obtain ⟨source, effects, written, rows, prepared, sighted, _, later⟩ := planned
  have current := EntityGraph.current_of_applyPrepared applied
  rw [prepared.state, prepared.indexGeneration] at current
  exact ⟨source, effects, written, rows, prepared, sighted,
    later.standing (congrArg GraphState.revision current.1).symm current.2.symm⟩

/-- Publishing a plan performs its operations on the rows of the graph. -/
theorem PlanFor.published (planned : PlanFor g operations plan)
    (applied : g.applyPrepared now reserved plan = .ok (span, after)) :
    ∃ effects rows, g.rows.Operated operations effects rows ∧
      EntityGraph.Published g after now plan rows := by
  obtain ⟨_, effects, _, rows, prepared, _, standing⟩ := planned.standing applied
  exact ⟨effects, rows, standing.rows ▸ prepared.operated,
    EntityGraph.applyPrepared_published prepared standing applied⟩

namespace Store

/-- The plan and the receipt of a request. -/
structure Planned (s : Store N C) (request : EntityBatchRequest) (plan : PreparedBatch)
    (receipt : EntityReceipt) : Prop where
  known : plan.state.incarnation ∈ s.incarnations
  current : plan.state.incarnation = s.graph.graph.incarnation →
    PlanFor s.graph.graph request.operations plan
  identity : receipt.identity = request.identity
  before : receipt.beforeRevision = plan.state.revision
  after : receipt.afterRevision = plan.afterRevision
  span : receipt.span = plan.span

/-- No service has other rules under the generation of the policy. -/
structure Issued (s : Store N C) (policy : PolicyVersion) : Prop where
  earlier : policy.generation < s.generations
  unique : ∀ service ∈ s.services,
    service.policy.generation = policy.generation → service.policy = policy

/-- A submission holds a policy that authorizes its intent. -/
structure Held (codec : Codec) (s : Store N C) (submission : Submission) (canonical : List UInt8)
    (policy : PolicyVersion) : Prop where
  encoded : codec.encodeRequest submission.request = some canonical
  placed : submission.request.identity.dataset = s.dataset
  issued : Issued s policy
  intent : policy.rules.authorizeIntent submission.principal submission.request = true

/-- The policy accepts every change of the plan. -/
def Accepts (policy : PolicyVersion) (principal : Principal) (plan : PreparedBatch) : Prop :=
  ∀ change ∈ plan.changes, policy.rules.authorizeChange principal change = true

/-- What the stage of a submission says about it. -/
def Backed (codec : Codec) (s : Store N C) (submission : Submission) : Prop :=
  match submission.stage with
  | .admitted canonical policy => Held codec s submission canonical policy
  | .unbound canonical policy => Held codec s submission canonical policy
  | .authorized canonical policy plan receipt =>
    Held codec s submission canonical policy ∧ Planned s submission.request plan receipt ∧
      Accepts policy submission.principal plan
  | _ => True

/-- A record of this binding. -/
structure Kept (s : Store N C) (binding : Binding) (record : Record) : Prop where
  identity : record.request.identity = binding.identity
  placed : binding.identity.dataset = s.dataset
  outcome : record.outcome = .unknown binding.identity .pending ∨
    (∃ receipt, record.outcome = .committed receipt) ∨
    ∃ reason, record.outcome = .rejected binding.identity reason

/-- A prepared mutation has a pending receipt, and comes from a submission that
was authorized under its policy generation. -/
structure Reserved (s : Store N C) (mutation : PreparedMutation) (record : Record)
    (submission : Submission)
    (rules : MutationPolicy) : Prop where
  bound : s.receipts.entries[mutation.binding]? = some record
  pending : record.outcome = .unknown mutation.binding.identity .pending
  planned : Planned s record.request mutation.plan mutation.receipt
  owner : submission ∈ s.submissions
  service : submission.service = mutation.service
  binding : submission.binding = mutation.binding
  request : submission.request = record.request
  issued : Issued s ⟨rules, mutation.generation⟩
  intent : rules.authorizeIntent submission.principal record.request = true
  accepted : Accepts ⟨rules, mutation.generation⟩ submission.principal mutation.plan

/-- The invariant of a store. -/
structure Sound (codec : Codec) (s : Store N C) : Prop where
  graph : s.graph.Sound
  incarnation : s.graph.graph.incarnation ∈ s.incarnations
  services : ∀ service ∈ s.services, Issued s service.policy
  records : ∀ {binding record}, s.receipts.entries[binding]? = some record → Kept s binding record
  submissions : ∀ submission ∈ s.submissions, Backed codec s submission
  prepared : ∀ mutation ∈ s.prepared,
    ∃ record submission rules, Reserved s mutation record submission rules
  distinct : (s.prepared.map (·.binding)).Nodup

/-! ## What every step keeps -/

/-- How the graph of a store may change: it moves on, or is replaced by one with
a new incarnation. -/
inductive Evolved (s s' : Store N C) : Prop
  | later (known : s'.incarnations = s.incarnations)
      (same : s'.graph.graph.incarnation = s.graph.graph.incarnation)
      (later : Later s.graph.graph s'.graph.graph)
  | swapped (known : s'.incarnations = s'.graph.graph.incarnation :: s.incarnations)
      (fresh : s'.graph.graph.incarnation ∉ s.incarnations)

/-- The parts of a store that the facts about its parties rest on. -/
structure Extends (s s' : Store N C) : Prop where
  evolved : Evolved s s'
  dataset : s'.dataset = s.dataset
  issued : ∀ {policy}, Issued s policy → Issued s' policy

variable {s s' : Store N C} {plan : PreparedBatch} {receipt : EntityReceipt}

variable {request : EntityBatchRequest}

theorem Planned.extend (grown : Extends s s') (planned : Planned s request plan receipt) :
    Planned s' request plan receipt := by
  refine ⟨?_, ?_, planned.identity, planned.before, planned.after, planned.span⟩
  · cases grown.evolved with
    | later known => exact known ▸ planned.known
    | swapped known => exact known ▸ List.mem_cons_of_mem _ planned.known
  · intro same
    cases grown.evolved with
    | later known unchanged later =>
      exact (planned.current (same.trans unchanged)).later later
    | swapped known fresh => exact absurd (same ▸ planned.known) fresh

variable {policy : PolicyVersion} {canonical : List UInt8} {codec : Codec}

theorem Held.extend (grown : Extends s s') {submission : Submission}
    (held : Held codec s submission canonical policy) :
    Held codec s' submission canonical policy :=
  ⟨held.encoded, held.placed.trans grown.dataset.symm, grown.issued held.issued, held.intent⟩

theorem Backed.extend (grown : Extends s s') {submission : Submission}
    (backed : Backed codec s submission) : Backed codec s' submission := by
  unfold Backed at backed ⊢
  split at backed
  · exact backed.extend grown
  · exact backed.extend grown
  · exact ⟨backed.1.extend grown, backed.2.1.extend grown, backed.2.2⟩
  · trivial

variable {record : Record} {binding : Binding}

theorem Kept.extend (grown : Extends s s') (kept : Kept s binding record) :
    Kept s' binding record :=
  ⟨kept.identity, kept.placed.trans grown.dataset.symm, kept.outcome⟩

/-- A step that keeps the policies extends the store. -/
theorem Extends.of_policies (evolved : Evolved s s') (dataset : s'.dataset = s.dataset)
    (services : s'.services = s.services) (generations : s'.generations = s.generations) :
    Extends s s' where
  evolved := evolved
  dataset := dataset
  issued issued := ⟨by rw [generations]; exact issued.earlier,
      by rw [services]; exact issued.unique⟩

variable {codec : Codec} {ontology : Ontology N C}
variable {parseFilter : String → Except String FilterNode} {calm : Bool}

/-- A prepared mutation is published only while its plan is for the graph. -/
theorem Planned.published (planned : Planned s request plan receipt) {graph : EntityGraph N C}
    (applied : s.graph.graph.applyPrepared now reserved plan = .ok (span, graph)) :
    PlanFor s.graph.graph request.operations plan :=
  planned.current (congrArg GraphState.incarnation
    (EntityGraph.current_of_applyPrepared applied).1).symm

/-- A policy of a new generation leaves the issued ones alone. -/
theorem Issued.fresh (generations : s'.generations = s.generations + 1)
    (services : ∀ service ∈ s'.services, service ∈ s.services ∨
      service.policy.generation = s.generations)
    (issued : Issued s policy) : Issued s' policy := by
  have earlier := issued.earlier
  refine ⟨by omega, ?_⟩
  intro service member same
  rcases services service member with old | new
  · exact issued.unique service old same
  · omega

variable {index : Nat} {service : Service}

/-- The services after a replacement of a policy. -/
theorem mem_modify_policy {services : List Service}
    (member : service ∈ services.modify index ({ · with policy })) :
    service ∈ services ∨ service.policy = policy := by
  obtain ⟨_, found⟩ := List.mem_iff_getElem?.mp member
  obtain ⟨_, held, same⟩ := getElem?_modify_eq_some_iff.mp found
  split at same
  · exact .inr (by rw [same])
  · exact .inl (same ▸ List.mem_of_getElem? held)

variable {applied : Option (Binding × EntityReceipt)}

theorem Stepped.extends (sound : s.Sound codec)
    (stepped : Stepped codec ontology parseFilter calm s s' applied) : Extends s s' := by
  cases stepped with
  | opened service fired fresh =>
    refine ⟨.later rfl rfl (.refl _), rfl, fun issued => issued.fresh rfl ?_⟩
    intro other member
    rcases List.mem_append.mp member with old | new
    · exact .inl old
    · exact .inr (List.mem_singleton.mp new ▸ fresh)
  | replaced =>
    refine ⟨.later rfl rfl (.refl _), rfl, fun issued => issued.fresh rfl ?_⟩
    intro other member
    rcases mem_modify_policy member with old | new
    · exact .inl old
    · exact .inr (by rw [new])
  | committed index mutation service now reserved span graph found serving current applied =>
      obtain ⟨_, _, _, holds⟩ := sound.prepared mutation (List.mem_of_getElem? found)
      have moved : Moved ontology parseFilter s.graph.graph graph :=
        (holds.planned.published applied).valid.moved applied
      exact .of_policies (.later rfl moved.incarnation moved.later) rfl rfl rfl
  | wrote command =>
    have moved : Moved ontology parseFilter s.graph.graph _ := sound.graph.step_moved command
    exact .of_policies (.later rfl moved.incarnation moved.later) rfl rfl rfl
  | swapped next incarnation fresh =>
    exact ⟨.swapped rfl fresh, rfl, fun issued => ⟨issued.earlier, issued.unique⟩⟩
  | _ => exact .of_policies (.later rfl rfl (.refl _)) rfl rfl rfl

/-- What a step can do to the submission of a slot. -/
theorem Stepped.submission (stepped : Stepped codec ontology parseFilter calm s s' applied)
    {after : Submission} (found : s'.submissions[index]? = some after) :
    (s.submissions[index]? = none ∧ after.stage = .received) ∨
      ∃ before, s.submissions[index]? = some before ∧
        after = { before with stage := after.stage } ∧
        (Advanced codec calm s before after.stage ∨ after.stage = .committing ∧
            s.receipts.entries[before.binding]? = none) := by
  cases stepped with
  | submitted submission received =>
    rw [List.getElem?_append] at found
    split at found
    · exact .inr ⟨after, found, rfl, .inl .stay⟩
    · rename_i beyond
      have new := List.mem_of_getElem? found
      rw [List.mem_singleton] at new
      exact .inl ⟨List.getElem?_eq_none (not_lt.mp beyond), new ▸ received⟩
  | advanced position submission stage held advanced =>
    rcases getElem?_modify_cases held found with old | ⟨rfl, rfl⟩
    · exact .inr ⟨after, old, rfl, .inl .stay⟩
    · exact .inr ⟨submission, held, rfl, .inl advanced⟩
  | bound position submission canonical policy plan receipt held authorized free =>
    rcases getElem?_modify_cases held found with old | ⟨rfl, rfl⟩
    · exact .inr ⟨after, old, rfl, .inl .stay⟩
    · exact .inr ⟨submission, held, rfl, .inr ⟨rfl, free⟩⟩
  | _ => exact .inr ⟨after, found, rfl, .inl .stay⟩

/-! ## The invariant -/

/-- A prepared batch belongs to its request, and the policy accepts it. -/
theorem prepare_eq_ok (sound : s.Sound codec) {submission : Submission}
    {allocation : Allocation} {retainedRemaining : Nat}
    (prepared : s.prepare codec service submission policy allocation
      retainedRemaining = .ok (plan, receipt)) :
    Planned s submission.request plan receipt ∧ Accepts policy submission.principal plan := by
  obtain ⟨_, planned, prepared⟩ := except_bind_eq_ok.mp prepared
  split at prepared
  · cases prepared
  rename_i accepted
  obtain ⟨_, _, prepared⟩ := except_bind_eq_ok.mp prepared
  simp only at prepared
  split at prepared
  · cases prepared
  obtain ⟨rfl, rfl⟩ := Prod.mk.inj (Except.ok.inj prepared)
  have batch := except_mapError_eq_ok.mp planned
  unfold prepareBatch at batch
  split at batch
  · cases batch
  obtain ⟨effects, written, rows, source⟩ :=
    EntityGraph.prepareBatch_preparedFrom sound.graph.bounded batch
  refine ⟨⟨?_, ?_, rfl, rfl, rfl, rfl⟩, ?_⟩
  · rw [source.state]
    exact sound.incarnation
  · intro _
    exact ⟨s.graph.graph, effects, written, rows, source,
      EntityGraph.prepareBatch_plansRows batch, sound.graph.indexed, .refl _⟩
  · intro change member
    by_contra refused
    exact accepted
      (List.any_eq_true.mpr ⟨change, member, by simpa using refused⟩)

/-- A submission is backed at every stage that it advances to. -/
theorem Advanced.backed (sound : s.Sound codec) {submission : Submission}
    (backed : Backed codec s submission) {stage : Stage}
    (advanced : Advanced codec calm s submission stage) :
    Backed codec s { submission with stage } := by
  cases advanced with
  | stay => exact backed
  | admitted service canonical received serving encoded authorized placed =>
    exact ⟨encoded, placed, sound.services service (List.mem_of_getElem? serving), authorized⟩
  | unbound canonical policy admitted =>
    rw [Backed, admitted] at backed
    exact ⟨backed.encoded, backed.placed, backed.issued, backed.intent⟩
  | authorized service canonical policy allocation retainedRemaining plan
      receipt unbound prepared =>
      rw [Backed, unbound] at backed
      have ready := prepare_eq_ok sound prepared
      exact ⟨⟨backed.encoded, backed.placed, backed.issued, backed.intent⟩, ready.1, ready.2⟩
  | recognized =>
    unfold Submission.answer
    split <;> trivial
  | _ => trivial

theorem Stepped.backed (sound : s.Sound codec)
    (stepped : Stepped codec ontology parseFilter calm s s' applied) :
    ∀ submission ∈ s'.submissions, Backed codec s' submission := by
  intro after member
  obtain ⟨_, found⟩ := List.mem_iff_getElem?.mp member
  rcases stepped.submission found with ⟨_, received⟩ |
    ⟨before, held, same, advanced | ⟨committing, _⟩⟩
  · unfold Backed
    rw [received]
    trivial
  · have backed := sound.submissions before (List.mem_of_getElem? held)
    rw [same]
    exact (advanced.backed sound backed).extend (stepped.extends sound)
  · unfold Backed
    rw [committing]
    trivial

/-- A submission stays in the store, with the same request. -/
theorem Stepped.mem_submissions (stepped : Stepped codec ontology parseFilter calm s s' applied)
    {submission : Submission} (member : submission ∈ s.submissions) :
    ∃ stage, { submission with stage } ∈ s'.submissions := by
  have restaged (index : Nat) (stage : Stage) : ∃ kept, { submission with stage := kept } ∈
        (s.withStage index stage).submissions := by
    obtain ⟨position, held⟩ := List.mem_iff_getElem?.mp member
    by_cases here : index = position
    · exact ⟨stage, List.mem_of_getElem? (getElem?_modify_eq_some_iff.mpr
        ⟨submission, held, by rw [if_pos here]⟩)⟩
    · exact ⟨submission.stage, List.mem_of_getElem? (getElem?_modify_eq_some_iff.mpr
          ⟨submission, held, by rw [if_neg here]⟩)⟩
  cases stepped with
  | submitted =>
    exact ⟨submission.stage, List.mem_append_left _ member⟩
  | advanced index other stage => exact restaged index stage
  | bound index =>
    exact restaged index .committing
  | _ => exact ⟨submission.stage, member⟩

variable {mutation : PreparedMutation} {rules : MutationPolicy}

/-- A prepared mutation whose receipt a step leaves alone stays reserved. -/
theorem Reserved.stepped (sound : s.Sound codec)
    (stepped : Stepped codec ontology parseFilter calm s s' applied) {submission : Submission}
    (reserved : Reserved s mutation record submission rules)
    (kept : s'.receipts.entries[mutation.binding]? = s.receipts.entries[mutation.binding]?) :
    ∃ record submission rules, Reserved s' mutation record submission rules := by
  have grown := stepped.extends sound
  obtain ⟨_, owner⟩ := stepped.mem_submissions reserved.owner
  exact ⟨record, _, rules,
    { bound := kept.trans reserved.bound
      pending := reserved.pending
      planned := reserved.planned.extend grown
      owner
      service := reserved.service
      binding := reserved.binding
      request := reserved.request
      issued := grown.issued reserved.issued
      intent := reserved.intent
      accepted := reserved.accepted }⟩

/-! ## Receipts -/

theorem getElem?_settle
    (receipts : Receipts) (binding key : Binding) (outcome : MutationOutcome) :
    (receipts.settle binding outcome).entries[key]? =
      if binding = key then
        (receipts.entries[key]?).map ({ · with outcome })
      else receipts.entries[key]? := by
  rw [Receipts.settle, ExtTreeMap.getElem?_modify]
  by_cases same : binding = key
  · subst same
    simp
  · simp [same]

theorem getElem?_bind (s : Store N C) (index : Nat) (submission : Submission)
    (canonical : List UInt8) (mutation : PreparedMutation) (key : Binding) :
    (s.bind index submission canonical mutation).receipts.entries[key]? =
      if submission.binding = key then
        some
          { canonical
            request := submission.request
            outcome := .unknown submission.request.identity .pending }
      else s.receipts.entries[key]? := by
  rw [bind, ExtTreeMap.getElem?_insert]
  simp

variable {outcome : MutationOutcome}

/-- Settling the receipt of a prepared mutation leaves the others alone. -/
theorem Sound.settled_prepared (sound : s.Sound codec)
    (stepped : Stepped codec ontology parseFilter calm s s' applied) (found : s.prepared[index]? = some mutation)
    (receipts : s'.receipts = s.receipts.settle mutation.binding outcome)
    (prepared : s'.prepared = s.prepared.eraseIdx index) :
    ∀ other ∈ s'.prepared,
      ∃ record submission rules, Reserved s' other record submission rules := by
  intro other member
  rw [prepared] at member
  obtain ⟨_, _, _, reserved⟩ := sound.prepared other (List.mem_of_mem_eraseIdx member)
  apply reserved.stepped sound stepped
  have different := key_ne_of_mem_eraseIdx sound.distinct found member
  rw [receipts, getElem?_settle, if_neg (Ne.symm different)]

variable {key : Binding}

/-- The settled records keep their form. -/
theorem Sound.settled_records (sound : s.Sound codec) (grown : Extends s s')
    (settles : (∃ receipt, outcome = .committed receipt) ∨
      ∃ reason, outcome = .rejected binding.identity reason)
    (receipts : s'.receipts = s.receipts.settle binding outcome)
    (found : s'.receipts.entries[key]? = some record) : Kept s' key record := by
  rw [receipts, getElem?_settle] at found
  split at found
  · rename_i same
    subst same
    obtain ⟨_, held, rfl⟩ := Option.map_eq_some_iff.mp found
    have kept := (sound.records held).extend grown
    exact ⟨kept.identity, kept.placed, .inr settles⟩
  · exact (sound.records found).extend grown

theorem Reserved.identity (sound : s.Sound codec) {submission : Submission}
    (reserved : Reserved s mutation record submission rules) :
    mutation.receipt.identity = mutation.binding.identity :=
  reserved.planned.identity.trans (sound.records reserved.bound).identity

/-- A new receipt belongs to the submission that binds it. -/
theorem Sound.bound_prepared (sound : s.Sound codec) {submission : Submission}
    (found : s.submissions[index]? = some submission)
    (authorized : submission.stage = .authorized canonical policy plan receipt)
    (free : s.receipts.entries[submission.binding]? = none)
    (stepped : Stepped codec ontology parseFilter calm s (s.bind index submission canonical
        ⟨submission.service, submission.binding, plan, receipt, policy.generation⟩) none) :
    let s' := s.bind index submission canonical
      ⟨submission.service, submission.binding, plan, receipt, policy.generation⟩
    ∀ other ∈ s'.prepared,
      ∃ record submission rules, Reserved s' other record submission rules := by
  intro s' other member
  have grown := stepped.extends sound
  rcases List.mem_append.mp member with old | new
  · obtain ⟨_, owner, rules, reserved⟩ := sound.prepared other old
    apply reserved.stepped sound stepped
    have different : submission.binding ≠ other.binding := by
      intro same
      rw [same, reserved.bound] at free
      cases free
    rw [getElem?_bind, if_neg different]
  · obtain rfl := List.mem_singleton.mp new
    have backed := sound.submissions submission (List.mem_of_getElem? found)
    rw [Backed, authorized] at backed
    obtain ⟨held, planned, accepted⟩ := backed
    exact ⟨_, { submission with stage := .committing }, policy.rules,
      { bound := by rw [getElem?_bind, if_pos rfl]
        pending := rfl
        planned := planned.extend grown
        owner := List.mem_of_getElem? (getElem?_modify_eq_some_iff.mpr
          ⟨submission, found, by rw [if_pos rfl]⟩)
        service := rfl
        binding := rfl
        request := rfl
        issued := grown.issued held.issued
        intent := held.intent
        accepted }⟩

theorem Sound.bound_records (sound : s.Sound codec) {submission : Submission}
    (held : Held codec s submission canonical policy) (mutation : PreparedMutation)
    (grown : Extends s (s.bind index submission canonical mutation))
    (found : (s.bind index submission canonical mutation).receipts.entries[key]? = some record) :
    Kept (s.bind index submission canonical mutation) key record := by
  rw [getElem?_bind] at found
  split at found
  · rename_i same
    subst same
    obtain rfl := Option.some.inj found
    exact ⟨rfl, held.placed.trans grown.dataset.symm, .inl rfl⟩
  · exact (sound.records found).extend grown

/-- A new receipt has a binding that no prepared mutation has. -/
theorem Sound.bound_distinct (sound : s.Sound codec)
    (free : s.receipts.entries[mutation.binding]? = none) :
    ((s.prepared ++ [mutation]).map (·.binding)).Nodup := by
  refine nodup_concat sound.distinct fun old held same => ?_
  obtain ⟨_, _, _, reserved⟩ := sound.prepared old held
  rw [← same, reserved.bound] at free
  cases free

/-- A policy that is issued last is the only one of its generation. -/
theorem issued_fresh (sound : s.Sound codec) (latest : policy.generation = s.generations)
    (generations : s'.generations = s.generations + 1)
    (services : ∀ service ∈ s'.services, service ∈ s.services ∨ service.policy = policy) :
    ∀ service ∈ s'.services, Issued s' service.policy := by
  intro service member
  rcases services service member with old | new
  · exact (sound.services service old).fresh generations fun other held =>
      (services other held).imp_right fun same => by rw [same, latest]
  · rw [new]
    refine ⟨by omega, ?_⟩
    intro other held same
    rcases services other held with older | again
    · have earlier := (sound.services other older).earlier
      omega
    · exact again

/-- Every step keeps a store sound. -/
theorem Stepped.sound (sound : s.Sound codec)
    (stepped : Stepped codec ontology parseFilter calm s s' applied) : s'.Sound codec := by
  have grown := stepped.extends sound
  have backed := stepped.backed sound
  have records : s'.receipts = s.receipts → ∀ {binding record},
      s'.receipts.entries[binding]? = some record → Kept s' binding record := by
    intro same binding record found
    rw [same] at found
    exact (sound.records found).extend grown
  have prepared : s'.receipts = s.receipts → (∀ mutation ∈ s'.prepared, mutation ∈ s.prepared) →
      ∀ mutation ∈ s'.prepared, ∃ record submission rules,
          Reserved s' mutation record submission rules := by
    intro same fewer mutation member
    obtain ⟨_, submission, _, reserved⟩ := sound.prepared mutation (fewer mutation member)
    exact reserved.stepped sound stepped (by rw [same])
  have services : s'.services = s.services →
      ∀ service ∈ s'.services, Issued s' service.policy := by
    intro same service member
    rw [same] at member
    exact grown.issued (sound.services service member)
  have distinct (index : Nat) : ((s.prepared.eraseIdx index).map (·.binding)).Nodup := by
    rw [← List.eraseIdx_map]
    exact sound.distinct.eraseIdx index
  cases stepped with
  | stay => exact sound
  | opened service fired fresh =>
    refine ⟨sound.graph, sound.incarnation, ?_, records rfl, backed,
      prepared rfl fun _ => id, sound.distinct⟩
    exact issued_fresh sound fresh rfl fun other member =>
      (List.mem_append.mp member).imp_right fun new => by
        rw [List.mem_singleton.mp new]
  | replaced =>
    refine ⟨sound.graph, sound.incarnation, ?_, records rfl, backed,
      prepared rfl fun _ => id, sound.distinct⟩
    exact issued_fresh sound rfl rfl fun other member =>
      mem_modify_policy member
  | submitted submission received | advanced index submission stage found advanced =>
    exact ⟨sound.graph, sound.incarnation, services rfl, records rfl, backed,
      prepared rfl fun _ => id, sound.distinct⟩
  | bound index submission canonical policy plan receipt found authorized free =>
      have waiting := sound.submissions submission (List.mem_of_getElem? found)
      rw [Backed, authorized] at waiting
      exact ⟨sound.graph, sound.incarnation, services rfl,
        sound.bound_records waiting.1 _ grown, backed,
        sound.bound_prepared found authorized free
          (.bound index submission canonical policy plan receipt found
            authorized free : Stepped codec ontology parseFilter calm s _ none),
        sound.bound_distinct free⟩
  | rejected index mutation reason found =>
    obtain ⟨_, _, _, reserved⟩ := sound.prepared mutation (List.mem_of_getElem? found)
    exact ⟨sound.graph, sound.incarnation, services rfl, sound.settled_records grown
        (.inr ⟨reason, by rw [reserved.identity sound]⟩) rfl, backed,
      sound.settled_prepared (.rejected index mutation reason found :
          Stepped codec ontology parseFilter calm s _ none) found rfl rfl,
      distinct index⟩
  | committed index mutation service now reserved span graph found serving current applied =>
      obtain ⟨_, _, _, holds⟩ := sound.prepared mutation (List.mem_of_getElem? found)
      have moved : Moved ontology parseFilter s.graph.graph graph :=
        (holds.planned.published applied).valid.moved applied
      refine ⟨?_, ?_, services rfl, sound.settled_records grown (.inl ⟨_, rfl⟩) rfl, backed,
        sound.settled_prepared (.committed index mutation service now reserved span graph found
            serving current applied :
            Stepped codec ontology parseFilter calm s _ _) found rfl rfl,
        distinct index⟩
      · exact sound.graph.moved moved fun _ => .inl
      · exact moved.incarnation ▸ sound.incarnation
  | dropped index =>
    exact ⟨sound.graph, sound.incarnation, services rfl, records rfl, backed,
      prepared rfl fun _ => List.mem_of_mem_eraseIdx, distinct index⟩
  | wrote command =>
    have moved : Moved ontology parseFilter s.graph.graph _ := sound.graph.step_moved command
    exact ⟨sound.graph.step command, moved.incarnation ▸ sound.incarnation,
      services rfl, records rfl, backed, prepared rfl fun _ => id,
      sound.distinct⟩
  | swapped next incarnation =>
    exact ⟨next.renewed incarnation, List.mem_cons_self, services rfl,
      records rfl, backed, prepared rfl fun _ => id, sound.distinct⟩

theorem sound_new (graph : DetachedGraph N C) (incarnation dataset : BitVec 128) :
    (Store.new graph incarnation dataset).Sound codec where
  graph := graph.renewed incarnation
  incarnation := List.mem_singleton_self _
  services := nofun
  records found := by simp [new] at found
  submissions := nofun
  prepared := nofun
  distinct := List.nodup_nil

end Store
end App
end Haystack
