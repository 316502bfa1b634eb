import Haystack.App.MutationSound

/-!
# Entity batches are applied at most once

The receipts of a mutation store are a ledger: a binding is bound to one request,
stays pending, and ends committed in the step that applies its batch, or rejected
without effect.  A batch is applied only under the policy that authorized it.
-/

namespace Haystack
namespace App

open Collections Haystack.Graph
open Haystack.Filter (FilterNode Ontology)
open Protocol (Status Keeps applications)
open Protocol.Status (Turned)

variable {N C : Type}

/-- What has become of a record. -/
def Record.status (record : Record) : Status (List UInt8 × EntityBatchRequest) EntityReceipt
      (OperationIdentity × RejectionReason) :=
  match record.outcome with
  | .committed receipt => .committed (record.canonical, record.request) receipt
  | .rejected identity reason =>
    .rejected (record.canonical, record.request) (identity, reason)
  | .unknown _ _ => .pending (record.canonical, record.request)

theorem Record.status_ne_unbound (record : Record) : record.status ≠ .unbound := by
  unfold status
  split <;> nofun

/-- The submission has not looked its receipt up. -/
def Stage.isEarly : Stage → Bool
  | .received => true
  | .admitted .. => true
  | _ => false

namespace Store

/-- The receipts of a store as a ledger. -/
def ledger (s : Store N C) (binding : Binding) :
    Status (List UInt8 × EntityBatchRequest) EntityReceipt
      (OperationIdentity × RejectionReason) :=
  match s.receipts.entries[binding]? with
  | none => .unbound
  | some record => record.status

variable {codec : Codec} {ontology : Ontology N C}
variable {parseFilter : String → Except String FilterNode} {calm : Bool}

theorem ledger_bind (s : Store N C) (index : Nat) (submission : Submission)
    (canonical : List UInt8) (mutation : PreparedMutation) :
    (s.bind index submission canonical mutation).ledger =
      Function.update s.ledger submission.binding (.pending (canonical, submission.request)) := by
  funext key
  simp only [ledger, getElem?_bind, Function.update_apply]
  by_cases same : submission.binding = key
  · subst same
    simp [Record.status]
  · simp [same, Ne.symm same]

variable {s s' : Store N C} {record : Record} {binding : Binding}

theorem ledger_settle (bound : s.receipts.entries[binding]? = some record)
    (outcome : MutationOutcome) (receipts : s'.receipts = s.receipts.settle binding outcome) :
    s'.ledger = Function.update s.ledger binding { record with outcome }.status := by
  funext key
  simp only [ledger, receipts, getElem?_settle, Function.update_apply]
  by_cases same : binding = key
  · subst same
    simp [bound]
  · simp [same, Ne.symm same]

variable {submission : Submission}

/-- A prepared mutation stands for a pending key. -/
theorem Reserved.ledger_eq {mutation : PreparedMutation} {rules : MutationPolicy}
    (reserved : Reserved s mutation record submission rules) :
    s.ledger mutation.binding = .pending (record.canonical, record.request) := by
  simp [ledger, reserved.bound, Record.status, reserved.pending]

/-- Every step moves the ledger, and commits what it applies. -/
theorem Stepped.moved {applied : Option (Binding × EntityReceipt)} (sound : s.Sound codec)
    (stepped : Stepped codec ontology parseFilter calm s s' applied) :
    Protocol.Moved s.ledger s'.ledger applied := by
  cases stepped with
  | bound index submission canonical policy plan receipt found authorized free =>
      have turned : Turned (s.ledger submission.binding)
          (.pending (canonical, submission.request)) none := by
        simp only [ledger, free]
        exact .bind _
      exact .of_update turned (ledger_bind s index submission canonical _)
  | rejected index mutation reason found =>
    obtain ⟨record, _, _, reserved⟩ := sound.prepared mutation (List.mem_of_getElem? found)
    have turned : Turned (s.ledger mutation.binding) (.rejected (record.canonical, record.request)
          (mutation.receipt.identity, reason)) none := by
      rw [reserved.ledger_eq]
      exact .reject _ _
    exact .of_update turned (ledger_settle reserved.bound
      (.rejected mutation.receipt.identity reason) rfl)
  | committed index mutation service now reserved span graph found =>
      obtain ⟨record, _, _, holds⟩ := sound.prepared mutation (List.mem_of_getElem? found)
      have turned : Turned (s.ledger mutation.binding)
          (.committed (record.canonical, record.request) mutation.receipt)
          (some mutation.receipt) := by
        rw [holds.ledger_eq]
        exact .commit _ _
      exact .of_update turned (ledger_settle holds.bound (.committed mutation.receipt) rfl)
  | _ => exact .stay

/-- The ledger of a sound store. -/
theorem keeps_sound : Keeps (step codec ontology parseFilter) applied
      (Sound codec : Store N C → Prop) ledger where
  invariant sound event := (stepped _ event).sound sound
  moved sound event := (stepped _ event).moved sound

/-! ## Records along a run -/

/-- A record keeps its request, and its outcome once it is final. -/
structure Continues (binding : Binding) (record kept : Record) : Prop where
  canonical : kept.canonical = record.canonical
  request : kept.request = record.request
  outcome : kept.outcome = record.outcome ∨ record.outcome = .unknown binding.identity .pending ∧
      kept.outcome.isUnknown = false

variable {kept : Record}

/-- A later status of a record is that of a record that continues it. -/
theorem continues_of_later (before : Kept s binding record)
    (after : Kept s' binding kept) (later : record.status.Later kept.status) :
    Continues binding record kept := by
  obtain ⟨_, _, outcome⟩ := record
  obtain ⟨_, _, _⟩ := kept
  have started := before.outcome
  have ended := after.outcome
  rcases started with rfl | ⟨receipt, rfl⟩ | ⟨reason, rfl⟩
  all_goals
    rcases ended with rfl | ⟨_, rfl⟩ | ⟨_, rfl⟩
    all_goals
      cases later
      all_goals constructor <;> simp [MutationOutcome.isUnknown]

theorem Sound.run (sound : s.Sound codec) (events : List (Event N C)) :
    (s.run codec ontology parseFilter events).Sound codec :=
  keeps_sound.run sound events

variable (ontology parseFilter) in
/-- A bound request stays bound in a run, and its outcome moves at most once. -/
theorem Sound.continues (sound : s.Sound codec) (events : List (Event N C))
    (bound : s.receipts.entries[binding]? = some record) :
    ∃ kept, (s.run codec ontology parseFilter events).receipts.entries[binding]? =
        some kept ∧ Continues binding record kept := by
  have later : (s.ledger binding).Later
      ((s.run codec ontology parseFilter events).ledger binding) :=
    keeps_sound.later sound events binding
  have after : (s.run codec ontology parseFilter events).Sound codec := sound.run events
  simp only [ledger, bound] at later
  cases held : (s.run codec ontology parseFilter events).receipts.entries[binding]? with
  | none =>
    simp only [held] at later
    exact absurd later.unbound_of_unbound record.status_ne_unbound
  | some kept =>
    simp only [held] at later
    exact ⟨kept, rfl, continues_of_later (sound.records bound) (after.records held) later⟩

variable {receipt : EntityReceipt}

variable {middle : Record}

/-- An outcome that was stored is the first or the last one. -/
theorem Continues.stored (first : Continues binding record middle)
    (second : Continues binding middle kept) :
    middle.outcome = record.outcome ∨ middle.outcome = kept.outcome := by
  rcases second.outcome with same | ⟨pending, _⟩
  · exact .inr same.symm
  · rcases first.outcome with unchanged | ⟨_, final⟩
    · exact .inl unchanged
    · rw [pending] at final
      cases final

/-- What comes of a submission whose binding was bound before it looked its
receipt up: unless it is refused, it answers a stored outcome if its bytes are
those of the record, and a conflict otherwise. -/
inductive Late (codec : Codec) (record kept : Record) (submission : Submission) : Prop
  | waiting (early : submission.stage.isEarly)
  | refused (reason : RejectionReason) (other : reason ≠ .conflict)
      (answered : submission.stage = submission.answer (.error reason))
  | different (differs : codec.encodeRequest submission.request ≠ some record.canonical)
      (answered : submission.stage = submission.answer (.error .conflict))
  | stored (outcome : MutationOutcome)
      (same : codec.encodeRequest submission.request = some record.canonical)
      (recorded : outcome = record.outcome ∨ outcome = kept.outcome)
      (answered : submission.stage = .answered outcome)

theorem readReason_ne_conflict (error : ReadError) : readReason error ≠ .conflict := by
  cases error <;> nofun

/-- An answered submission stays as it is. -/
theorem Advanced.of_answered {stage : Stage} (advanced : Advanced codec calm s submission stage)
    {outcome : MutationOutcome} (answered : submission.stage = .answered outcome) :
    stage = submission.stage := by
  cases advanced with
  | stay => rfl
  | interrupted error fired waiting =>
    rw [answered] at waiting
    cases waiting
  | recognized canonical policy record waiting =>
    rw [answered] at waiting
    rcases waiting with waiting | ⟨_, _, waiting⟩ <;> cases waiting
  | _ => simp_all

/-- What the record of its binding makes of an early submission. -/
theorem late_recognize (first : Continues binding record middle)
    (next : Continues binding middle kept) {canonical : List UInt8}
    {policy : PolicyVersion} (held : Held codec s submission canonical policy) :
    Late codec record kept
      { submission with
        stage := submission.answer (submission.recognize policy canonical middle) } := by
  unfold Submission.recognize
  split
  · exact .refused .forbidden nofun rfl
  split
  · rename_i same
    refine .stored middle.outcome ?_ (first.stored next) rfl
    rw [held.encoded, ← same, first.canonical]
  · rename_i different
    refine .different ?_ rfl
    rw [held.encoded, ← first.canonical]
    exact fun same => different (Option.some.inj same).symm

/-- A step keeps what comes of a submission of a bound request. -/
theorem Late.step {applied : Option (Binding × EntityReceipt)} (sound : s.Sound codec)
    (stepped : Stepped codec ontology parseFilter calm s s' applied)
    (bound : s.receipts.entries[binding]? = some middle) (first : Continues binding record middle)
    (next : Continues binding middle kept) {index : Nat} {after : Submission}
    (found : s'.submissions[index]? = some after) (owned : after.binding = binding)
    (late : ∀ before, s.submissions[index]? = some before →
      before.binding = binding → Late codec record middle before) :
    Late codec record kept after := by
  rcases stepped.submission found with ⟨_, received⟩ | ⟨before, held, same, advanced⟩
  · exact .waiting (by rw [received]; rfl)
  have backed := sound.submissions before (List.mem_of_getElem? held)
  have owner : before.binding = binding := by rw [← owned, same]; rfl
  rw [← owner] at bound
  rcases advanced with advanced | ⟨_, free⟩
  swap
  · rw [bound] at free
    cases free
  have earlier := late before held owner
  generalize after.stage = stage at same advanced
  subst same
  cases earlier with
  | refused reason other answered =>
    rw [advanced.of_answered answered]
    exact .refused reason other answered
  | different differs answered =>
    rw [advanced.of_answered answered]
    exact .different differs answered
  | stored outcome same recorded answered =>
    rw [advanced.of_answered answered]
    refine .stored outcome same ?_ answered
    rcases recorded with recorded | recorded
    · exact .inl recorded
    · rw [recorded]
      exact first.stored next
  | waiting early =>
    cases advanced with
    | stay => exact .waiting early
    | interrupted error =>
      exact .refused _ (readReason_ne_conflict error) rfl
    | invalid received refused => exact .refused .invalid nofun rfl
    | forbidden service received serving refused =>
      exact .refused .forbidden nofun rfl
    | misplaced received elsewhere =>
      exact absurd (sound.records bound).placed elsewhere
    | admitted =>
      exact .waiting rfl
    | recognized canonical policy other waiting recorded =>
      obtain rfl := Option.some.inj (bound.symm.trans recorded)
      rcases waiting with admitted | ⟨plan, receipt, authorized⟩
      · rw [Backed, admitted] at backed
        exact late_recognize first next backed
      · rw [authorized] at early
        cases early
    | unbound canonical policy admitted free =>
      rw [bound] at free
      cases free
    | unprepared service canonical policy allocation retainedRemaining reason unbound =>
        rw [unbound] at early
        cases early
    | authorized service canonical policy allocation retainedRemaining plan
        receipt unbound prepared =>
        rw [unbound] at early
        cases early
    | full canonical policy plan receipt authorized =>
      rw [authorized] at early
      cases early
    | acknowledged outcome found committing =>
      rw [committing] at early
      cases early

/-- A key of the ledger is committed when its record is. -/
theorem exists_ledger_eq_committed_iff :
    (∃ request, s.ledger binding = .committed request receipt) ↔
      ∃ record, s.receipts.entries[binding]? = some record ∧
        record.outcome = .committed receipt := by
  unfold ledger
  cases s.receipts.entries[binding]? with
  | none => simp
  | some record =>
    unfold Record.status
    cases stored : record.outcome <;> simp [stored]

/-- The batches applied in a run are those of the committed records. -/
theorem mem_applications_iff (graph : DetachedGraph N C) (incarnation dataset : BitVec 128)
    (events : List (Event N C)) (binding : Binding) (receipt : EntityReceipt) :
    let start : Store N C := Store.new graph incarnation dataset
    (binding, receipt) ∈ applications (step codec ontology parseFilter) applied start events ↔
      ∃ record, (start.run codec ontology parseFilter events).receipts.entries[binding]?
          = some record ∧ record.outcome = .committed receipt := by
  intro start
  have fresh : start.Sound codec := sound_new graph incarnation dataset
  rw [← exists_ledger_eq_committed_iff]
  constructor
  · intro member
    obtain ⟨request, _, committed⟩ := keeps_sound.of_mem_applications fresh member
    exact ⟨request, committed⟩
  · rintro ⟨request, committed⟩
    rcases keeps_sound.mem_applications fresh committed with already | member
    · simp [start, ledger, new] at already
    · exact member

theorem run_append (s : Store N C) (events : List (Event N C)) (event : Event N C) :
    s.run codec ontology parseFilter (events ++ [event]) =
      (s.run codec ontology parseFilter events).step codec ontology parseFilter event := by
  simp [run]

/-- What comes of the early submissions of a bound request in a run. -/
theorem Sound.late (sound : s.Sound codec)
    (bound : s.receipts.entries[binding]? = some record) {index : Nat}
    (early : ∀ before, s.submissions[index]? = some before →
      before.binding = binding → before.stage.isEarly)
    (events : List (Event N C)) :
    ∀ kept, (s.run codec ontology parseFilter events).receipts.entries[binding]? = some kept →
      ∀ after, (s.run codec ontology parseFilter events).submissions[index]? = some after →
        after.binding = binding → Late codec record kept after := by
  induction events using List.reverseRecOn with
  | nil =>
    intro kept held after found owned
    exact .waiting (early after found owned)
  | append_singleton events event ih =>
    intro kept held after found owned
    have reached : (s.run codec ontology parseFilter events).Sound codec := sound.run events
    obtain ⟨middle, recorded, first⟩ := sound.continues ontology parseFilter events bound
    obtain ⟨_, ended, next⟩ := reached.continues ontology parseFilter [event] recorded
    rw [run_append] at held found
    obtain rfl := Option.some.inj (ended.symm.trans held)
    exact Late.step reached (stepped _ event) recorded first next found owned (ih middle recorded)

theorem outcome_of_reconcile {service : Service} {principal : Principal}
    {identity : OperationIdentity} {outcome : MutationOutcome}
    (answered : s.reconcile service principal identity = .ok outcome) :
    (s.receipts.entries[(⟨principal.key, identity⟩ : Binding)]?.map Record.outcome).getD
      (.unknown identity .missing) = outcome := by
  simp only [reconcile] at answered
  split at answered
  · cases answered
  · rw [← Except.ok.inj answered]
    split <;> simp [*]

/-- Once a reconciliation answers a final outcome, every later one does, under any
service and policy, and the batch was applied exactly if the outcome is a commit. -/
theorem reconcile_final (graph : DetachedGraph N C) (incarnation dataset : BitVec 128)
    (events more : List (Event N C)) (service : Service) (principal : Principal)
    (identity : OperationIdentity) (outcome : MutationOutcome) :
    let start : Store N C := Store.new graph incarnation dataset
    let s := start.run codec ontology parseFilter events
    s.reconcile service principal identity ≠ .ok outcome ∨ outcome.isUnknown = true ∨
      (∀ other answer, (s.run codec ontology parseFilter more).reconcile other principal
        identity = .ok answer → answer = outcome) ∧
      ∀ receipt, (⟨principal.key, identity⟩, receipt) ∈ applications
        (step codec ontology parseFilter) applied start (events ++ more) ↔
          outcome = .committed receipt := by
  intro start s
  refine or_iff_not_imp_left.mpr fun answered => or_iff_not_imp_left.mpr fun final => ?_
  have fresh : start.Sound codec := sound_new graph incarnation dataset
  have sound : s.Sound codec := fresh.run events
  have stored := outcome_of_reconcile (not_not.mp answered)
  cases found : s.receipts.entries[(⟨principal.key, identity⟩ : Binding)]? with
  | none => simp [found, ← stored, MutationOutcome.isUnknown] at final
  | some record =>
    obtain ⟨kept, held, continues⟩ := sound.continues ontology parseFilter more found
    rw [found] at stored
    have same : kept.outcome = outcome := by
      rcases continues.outcome with same | ⟨pending, _⟩
      · exact same.trans stored
      · simp [← stored, pending, MutationOutcome.isUnknown] at final
    refine ⟨fun other answer later => ?_, fun receipt => ?_⟩
    · rw [← outcome_of_reconcile later, held]
      exact same
    · refine (mem_applications_iff graph incarnation dataset (events ++ more) _ receipt).trans ?_
      rw [run, List.foldl_append]
      change (∃ record, (s.run _ _ _ more).receipts.entries[_]? = _ ∧ _) ↔ _
      simp [held, same]

/-! ## Publications are authorized -/

/-- The publication of a mutation that its submission's service authorizes under
its policy in force, with the rows that the policy has seen. -/
structure AuthorizedPublication
    (s s' : Store N C) (mutation : PreparedMutation) (service : Service)
    (submission : Submission)
    (record : Record) : Prop where
  bound : s.receipts.entries[mutation.binding]? = some record
  owner : submission ∈ s.submissions
  binding : submission.binding = mutation.binding
  request : submission.request = record.request
  serving : s.services[submission.service]? = some service
  intent : service.policy.rules.authorizeIntent submission.principal submission.request = true
  changes : ∀ change ∈ mutation.plan.changes,
    service.policy.rules.authorizeChange submission.principal change = true
  rows : ∀ change ∈ mutation.plan.changes,
    change.before = s.graph.graph.entities[change.id]? ∧
      change.after = s'.graph.graph.entities[change.id]?
  others : ∀ id, (∀ change ∈ mutation.plan.changes, change.id ≠ id) →
    s'.graph.graph.entities[id]? = s.graph.graph.entities[id]?

theorem Stepped.authorizedPublication (sound : s.Sound codec)
    (stepped : Stepped codec ontology parseFilter calm s s' (some (binding, receipt))) :
    ∃ mutation ∈ s.prepared, mutation.binding = binding ∧
      mutation.receipt = receipt ∧ ∃ service submission record,
        AuthorizedPublication s s' mutation service submission record := by
  cases stepped with
  | committed index mutation service now reserved span graph found serving current applied =>
      have member := List.mem_of_getElem? found
      obtain ⟨record, submission, rules, holds⟩ := sound.prepared mutation member
      -- The generation in force is the one that the mutation was prepared for.
      have inForce : service.policy = ⟨rules, mutation.generation⟩ :=
        holds.issued.unique service (List.mem_of_getElem? serving) current
      obtain ⟨_, _, _, _, _, sighted, standing⟩ :=
        (holds.planned.published applied).standing applied
      obtain ⟨rows, others⟩ := sighted.published standing.rows applied
      exact ⟨mutation, member, rfl, rfl, service, submission, record,
        { bound := holds.bound
          owner := holds.owner
          binding := holds.binding
          request := holds.request
          serving := holds.service ▸ serving
          intent := by
            rw [inForce, holds.request]
            exact holds.intent
          changes := by
            rw [inForce]
            exact holds.accepted
          rows
          others }⟩

/-- In every interleaving, a batch that is applied was authorized by the policy
that is in force when it is published: the policy accepted the request and every
change of the plan, and the rows it saw are those that the publication replaces
and installs. -/
theorem published_as_authorized (graph : DetachedGraph N C) (incarnation dataset : BitVec 128)
    (events : List (Event N C)) (event : Event N C) :
    let start : Store N C := Store.new graph incarnation dataset
    let s := start.run codec ontology parseFilter events
    ∀ binding receipt, s.applied event = some (binding, receipt) →
      ∃ mutation ∈ s.prepared, mutation.binding = binding ∧
        mutation.receipt = receipt ∧ ∃ service submission record,
          AuthorizedPublication s (s.step codec ontology parseFilter event)
            mutation service submission record := by
  intro start s binding receipt applied
  have fresh : start.Sound codec := sound_new graph incarnation dataset
  exact Stepped.authorizedPublication (fresh.run events) (applied ▸ stepped s event)

end Store

/-! ## A store with one row to add -/

namespace Sample

def codec : Codec where
  encodeBatch request := some request.identity.operationId.toUTF8.data.toList
  encodeOutcome _ := some []
  encodePage _ := some []

def allocation : Allocation := ⟨16, 16, 16, 16, 16, 16, 16, fun _ => 8, 8, 8, 8⟩

theorem sound_empty : (Session.initial 3 3000 1 none : Session Unit Unit).Sound :=
  Session.sound_initial ..

def start : Store Unit Unit := Store.new ⟨(Session.initial 3 3000 1 none).graph, sound_empty⟩ 7 9

/-- Add a row to the graph of `start`. -/
def request : EntityBatchRequest where
  identity := ⟨"add-a", 9, 7⟩
  expectedRevision := 0
  operations := [.add (HDict.new.set "id" (.ref ⟨"a", none⟩))]

def receipt : EntityReceipt := ⟨request.identity, 0, 1, some ⟨1, 1⟩, .ephemeralMemory⟩

/-- A submission that is committed. -/
def committing : List (Event Unit Unit) :=
  [.openService .default .ephemeralMemory allowAllMutations,
    .submit 0 .anonymous request, .act 0 .admission, .act 0 .lookup,
    .act 0 (.prepare allocation 16000000), .reserve 0 true,
    .publish 0 0 true none, .act 0 (.acknowledge (.committed receipt) true)]

def run (s : Store Unit Unit) (events : List (Event Unit Unit)) : Store Unit Unit :=
  s.run codec Ontology.blank (fun _ => .error "no filter") events

end Sample

/-- The submission of the sample is applied as it was authorized. -/
theorem published_as_authorized_sample :
    let s := Sample.run Sample.start (Sample.committing.take 6)
    let event : Event Unit Unit := .publish 0 0 true none
    let binding : Binding := ⟨.anonymous, Sample.request.identity⟩
    s.applied event = some (binding, Sample.receipt) ∧
      ∃ mutation ∈ s.prepared, mutation.binding = binding ∧
        mutation.receipt = Sample.receipt ∧ ∃ service submission record,
          Store.AuthorizedPublication s (Sample.run s [event]) mutation service
            submission record := by
  intro s event binding
  have applied : s.applied event = some (binding, Sample.receipt) := by
    decide +kernel
  exact ⟨applied, Store.published_as_authorized _ 7 9
    (Sample.committing.take 6) event binding Sample.receipt applied⟩

end App
end Haystack
