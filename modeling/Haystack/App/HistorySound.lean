import Haystack.App.HistorySteps

/-!
# Sound history authorities

The invariant of a history authority.  The plan of a submission or of a prepared
mutation was made for its request, at a state of the graph whose schema admits
its samples; a prepared mutation has a pending receipt of its own.
-/

namespace Haystack
namespace App
namespace History

open Std (ExtTreeMap)
open Collections Haystack.Graph
open Haystack.Filter (FilterNode Ontology)
open EntityGraph (Since Moved)
open Protocol

variable {N C : Type}

namespace Stage

/-- The schema that a submission has read, and the graph state it was read at. -/
def inspection : Stage → Option (HistorySchema × GraphState)
  | .inspected _ schema graph => some (schema, graph)
  | .opened _ schema graph => some (schema, graph)
  | _ => none

def plan : Stage → Option PreparedSeries
  | .planned _ plan => plan
  | _ => none

end Stage

/-! ## Schemas and plans -/

/-- The point declares a schema in the graph that admits all samples. -/
def Validates (tables : Tables) (g : EntityGraph N C) (request : HistoryWriteRequest)
    (schema : HistorySchema) : Prop :=
  ∃ row, g.get request.identity.point = some row ∧ tables.schema row = .ok schema ∧
    ∀ sample ∈ request.samples, checkSample tables schema sample = .ok ()

variable {tables : Tables}

theorem Validates.of_rows {g g' : EntityGraph N C} {request : HistoryWriteRequest}
    {schema : HistorySchema} (validates : Validates tables g request schema)
    (same : g'.rows = g.rows) : Validates tables g' request schema := by
  have entities : g'.entities = g.entities := congrArg Rows.entities same
  unfold Validates EntityGraph.get at validates ⊢
  rw [entities]
  exact validates

namespace Authority

/-- The schema was read at this graph state, and the samples were checked
against it. -/
structure Inspected (tables : Tables) (s : Authority N C) (request : HistoryWriteRequest)
    (schema : HistorySchema)
    (graph : GraphState) : Prop where
  known : graph.incarnation ∈ s.incarnations
  current : graph.incarnation = s.graph.graph.incarnation →
    ∃ source : EntityGraph N C, source.state = graph ∧
      Validates tables source request schema ∧ Since source s.graph.graph

variable {s : Authority N C} {schema : HistorySchema} {graph : GraphState}
variable {request : HistoryWriteRequest}

/-- While the graph stands at the state, the schema in it admits the samples. -/
theorem Inspected.validates (inspected : Inspected tables s request schema graph)
    (standing : s.graph.graph.state = graph) : Validates tables s.graph.graph request schema := by
  obtain ⟨_, stood, validates, since⟩ :=
    inspected.current (congrArg GraphState.incarnation standing).symm
  exact validates.of_rows (since.rows (congrArg GraphState.revision (stood.trans standing.symm)))

/-- What a plan says about its request. -/
structure PlanOf (request : HistoryWriteRequest) (plan : PreparedSeries) : Prop where
  point : plan.point = request.identity.point
  identity : plan.receipt.identity = request.identity
  before : plan.receipt.beforeGeneration = request.expectedGeneration
  after : plan.receipt.afterGeneration = request.expectedGeneration + 1
  incarnation : plan.change.before.incarnation = request.identity.incarnation
  generation : plan.change.before.generation = request.expectedGeneration
  nextIncarnation : plan.next.incarnation = request.identity.incarnation
  nextGeneration : plan.next.generation = request.expectedGeneration + 1
  changedPoint : plan.change.point = request.identity.point
  operation : plan.change.operation = some request.identity

/-- A plan for a request, at a graph state whose schema admits its samples. -/
def Planned (tables : Tables) (s : Authority N C) (request : HistoryWriteRequest)
    (plan : PreparedSeries) : Prop :=
  PlanOf request plan ∧ ∃ schema, Inspected tables s request schema plan.graph

/-- What the stage of a submission says about it. -/
structure Backed (codec : HistoryCodec) (tables : Tables) (s : Authority N C)
    (submission : Submission) : Prop where
  encoded : ∀ intent, submission.stage.intent = some intent →
    codec.canonicalRequest submission.request = some intent.canonical
  inspected : ∀ schema graph, submission.stage.inspection = some (schema, graph) →
      Inspected tables s submission.request schema graph
  planned : ∀ plan, submission.stage.plan = some plan → Planned tables s submission.request plan

/-- A record of this binding. -/
structure Kept (codec : HistoryCodec) (binding : HistoryBinding)
    (record : HistoryRecord) : Prop where
  identity : record.request.identity = binding.identity
  encoded : codec.canonicalRequest record.request = some record.canonical
  outcome : record.outcome = .unknown binding.identity .pending ∨
    (∃ receipt, record.outcome = .committed receipt) ∨
    ∃ reason, record.outcome = .rejected binding.identity reason

/-- A prepared mutation has a pending receipt, and a plan for its request. -/
structure Reserved (tables : Tables) (s : Authority N C) (mutation : PreparedMutation)
    (record : HistoryRecord) : Prop where
  bound : s.store.receipts[mutation.binding]? = some record
  pending : record.outcome = .unknown mutation.binding.identity .pending
  planned : Planned tables s record.request mutation.plan

/-- The invariant of an authority. -/
structure Sound (codec : HistoryCodec) (tables : Tables) (s : Authority N C) : Prop where
  graph : s.graph.Sound
  incarnation : s.graph.graph.incarnation ∈ s.incarnations
  records : ∀ {binding record},
    s.store.receipts[binding]? = some record → Kept codec binding record
  submissions : ∀ submission ∈ s.submissions, Backed codec tables s submission
  prepared : ∀ mutation ∈ s.prepared, ∃ record, Reserved tables s mutation record
  distinct : (s.prepared.map (·.binding)).Nodup

/-! ## What every step keeps -/

/-- How the graph may change: it moves on, or is replaced by one with a new
incarnation. -/
inductive Evolved (s s' : Authority N C) : Prop
  | since (known : s'.incarnations = s.incarnations)
      (same : s'.graph.graph.incarnation = s.graph.graph.incarnation)
      (since : Since s.graph.graph s'.graph.graph)
  | swapped (known : s'.incarnations = s'.graph.graph.incarnation :: s.incarnations)
      (fresh : s'.graph.graph.incarnation ∉ s.incarnations)

variable {s' : Authority N C}

theorem Evolved.of_eq (graph : s'.graph = s.graph)
    (incarnations : s'.incarnations = s.incarnations) : Evolved s s' :=
  .since incarnations (by rw [graph]) (by rw [graph]; exact .refl _)

variable {codec : HistoryCodec} {tables : Tables} {ontology : Ontology N C}
variable {parseFilter : String → Except String FilterNode} {calm : Bool}

theorem Inspected.extend (evolved : Evolved s s')
    (inspected : Inspected tables s request schema graph) :
    Inspected tables s' request schema graph := by
  cases evolved with
  | since known same since =>
    refine ⟨known ▸ inspected.known, fun current => ?_⟩
    obtain ⟨source, stood, validates, earlier⟩ := inspected.current (current.trans same)
    exact ⟨source, stood, validates, earlier.trans since⟩
  | swapped known fresh =>
    refine ⟨known ▸ List.mem_cons_of_mem _ inspected.known, fun current => ?_⟩
    exact absurd (current ▸ inspected.known) fresh

variable {plan : PreparedSeries}

theorem Planned.extend (evolved : Evolved s s') (planned : Planned tables s request plan) :
    Planned tables s' request plan := by
  obtain ⟨facts, schema, inspected⟩ := planned
  exact ⟨facts, schema, inspected.extend evolved⟩

theorem Backed.extend (evolved : Evolved s s') {submission : Submission}
    (backed : Backed codec tables s submission) : Backed codec tables s' submission :=
  ⟨backed.encoded, fun schema graph read => (backed.inspected schema graph read).extend evolved,
    fun plan planned => (backed.planned plan planned).extend evolved⟩

variable {applied : Option (HistoryBinding × HistoryWriteReceipt)}

theorem Stepped.evolved (sound : s.Sound codec tables)
    (stepped : Stepped codec tables ontology parseFilter calm s s' applied) : Evolved s s' := by
  cases stepped with
  | bound index submission intent plan =>
    cases plan <;> exact .of_eq rfl rfl
  | wrote command =>
    have moved : Moved ontology parseFilter s.graph.graph _ := sound.graph.step_moved command
    exact .since rfl moved.incarnation moved.since
  | swapped next incarnation fresh => exact .swapped rfl fresh
  | _ => exact .of_eq rfl rfl

/-- What a step can do to a submission, apart from advancing it. -/
inductive Turned (s : Authority N C) (before : Submission) : Stage → Prop
  | opened (intent : Intent) (schema : HistorySchema) (graph : GraphState)
      (inspected : before.stage = .inspected intent schema graph) :
      Turned s before (.opened intent schema graph)
  | emptied (intent : Intent) (planned : before.stage = .planned intent none)
      (free : s.store.receipts[before.binding]? = none) :
      Turned s before (.decided (.rejected before.request.identity .emptyBatch))
  | committing (intent : Intent) (plan : PreparedSeries)
      (planned : before.stage = .planned intent (some plan))
      (free : s.store.receipts[before.binding]? = none) :
      Turned s before .committing

/-- What a step can do to the submission of a slot. -/
theorem Stepped.submission (stepped : Stepped codec tables ontology parseFilter calm s s' applied)
    {index : Nat} {after : Submission} (found : s'.submissions[index]? = some after) :
    (s.submissions[index]? = none ∧ after.stage = .received) ∨
      ∃ before, s.submissions[index]? = some before ∧
        after = { before with stage := after.stage } ∧
        (Advanced codec tables calm s before after.stage ∨ Turned s before after.stage) := by
  cases stepped with
  | submitted submission received =>
    rw [List.getElem?_append] at found
    split at found
    · exact .inr ⟨after, found, rfl, .inl .stay⟩
    · rename_i beyond
      have new := List.mem_of_getElem? found
      rw [List.mem_singleton] at new
      exact .inl ⟨List.getElem?_eq_none (not_lt.mp beyond), new ▸ received⟩
  | advanced position submission stage held advanced =>
    rcases getElem?_modify_cases held found with old | ⟨rfl, rfl⟩
    · exact .inr ⟨after, old, rfl, .inl .stay⟩
    · exact .inr ⟨submission, held, rfl, .inl advanced⟩
  | pointed position submission intent schema graph store series held inspected =>
      rcases getElem?_modify_cases held found with old | ⟨rfl, rfl⟩
      · exact .inr ⟨after, old, rfl, .inl .stay⟩
      · exact .inr ⟨submission, held, rfl, .inr (.opened intent schema graph inspected)⟩
  | bound position submission intent plan held planned free =>
    cases plan with
    | none =>
      rcases getElem?_modify_cases held found with old | ⟨rfl, rfl⟩
      · exact .inr ⟨after, old, rfl, .inl .stay⟩
      · exact .inr ⟨submission, held, rfl, .inr (.emptied intent planned free)⟩
    | some plan =>
      rcases getElem?_modify_cases held found with old | ⟨rfl, rfl⟩
      · exact .inr ⟨after, old, rfl, .inl .stay⟩
      · exact .inr ⟨submission, held, rfl, .inr (.committing intent plan planned free)⟩
  | _ => exact .inr ⟨after, found, rfl, .inl .stay⟩

/-! ## The invariant -/

theorem inspect_eq_ok (sound : s.Sound codec tables) {submission : Submission}
    {policy : PolicyVersion} (read : s.inspect tables submission policy = .ok (schema, graph)) :
    Inspected tables s submission.request schema graph := by
  unfold inspect at read
  split at read
  · cases read
  split at read
  · cases read
  rename_i row found
  obtain ⟨_, parsed, read⟩ := except_bind_eq_ok.mp read
  split at read
  · cases read
  obtain ⟨_, passed, read⟩ := except_bind_eq_ok.mp read
  obtain ⟨rfl, rfl⟩ := Prod.mk.inj (Except.ok.inj read)
  refine ⟨sound.incarnation, fun _ => ⟨s.graph.graph, rfl, ?_, .refl _⟩⟩
  exact ⟨row, found, except_mapError_eq_ok.mp parsed, forM_eq_ok.mp passed⟩

theorem planSeries_eq_ok
    {store : HisStore} {limits : Limits} {qualification : ReceiptQualification}
    {source : Nat} {series : Series} {room : Bool}
    (planned : planSeries codec tables store limits qualification request source
      schema graph series room = .ok (some plan)) :
    PlanOf request plan ∧ plan.graph = graph := by
  unfold planSeries at planned
  split at planned
  · cases planned
  rename_i current
  simp only [not_or, not_not] at current
  split at planned
  · cases planned
  split at planned
  · cases planned
  rename_i generation grown
  obtain ⟨rfl, _⟩ := checkedAdd_eq_some_iff.mp grown
  split at planned
  · cases planned
  split at planned
  · cases planned
  obtain ⟨_, _, planned⟩ := except_bind_eq_ok.mp planned
  split at planned
  · cases planned
  split at planned
  · cases planned
  simp only at planned
  split at planned
  · cases planned
  obtain rfl := Option.some.inj (Except.ok.inj planned)
  have kept (merged : Series) (capacity : Nat) :
      (merged.trim capacity).incarnation = merged.incarnation ∧
        (merged.trim capacity).generation = merged.generation := by
    unfold Series.trim
    simp only
    split <;> exact ⟨rfl, rfl⟩
  refine ⟨?_, rfl⟩
  exact
    { point := rfl
      identity := rfl
      before := current.2
      after := congrArg (· + 1) current.2
      incarnation := current.1
      generation := current.2
      nextIncarnation := (kept _ _).1.trans current.1
      nextGeneration := (kept _ _).2.trans (congrArg (· + 1) current.2)
      changedPoint := rfl
      operation := rfl }

/-- A submission that is neither inspected nor planned. -/
theorem Backed.of_none {submission : Submission}
    (encoded : ∀ intent, submission.stage.intent = some intent →
      codec.canonicalRequest submission.request = some intent.canonical)
    (inspection : submission.stage.inspection = none) (plan : submission.stage.plan = none) :
    Backed codec tables s submission := by
  refine ⟨encoded, ?_, ?_⟩
  · intro schema graph read
    rw [inspection] at read
    cases read
  · intro other planned
    rw [plan] at planned
    cases planned

theorem Backed.of_inspection {submission : Submission}
    (encoded : ∀ intent, submission.stage.intent = some intent →
      codec.canonicalRequest submission.request = some intent.canonical)
    (inspected : Inspected tables s submission.request schema graph)
    (inspection : submission.stage.inspection = some (schema, graph))
    (plan : submission.stage.plan = none) : Backed codec tables s submission := by
  refine ⟨encoded, ?_, ?_⟩
  · intro other state read
    rw [inspection] at read
    obtain ⟨rfl, rfl⟩ := Prod.mk.inj (Option.some.inj read)
    exact inspected
  · intro other planned
    rw [plan] at planned
    cases planned

/-- A submission without an intent needs no backing. -/
theorem Backed.of_intent_none {submission : Submission} (intent : submission.stage.intent = none)
    (inspection : submission.stage.inspection = none) (plan : submission.stage.plan = none) :
    Backed codec tables s submission := by
  refine .of_none ?_ inspection plan
  intro other held
  rw [intent] at held
  cases held

theorem backed_decided (s : Authority N C) (submission : Submission)
    (outcome : HistoryWriteOutcome) :
    Backed codec tables s { submission with stage := .decided outcome } :=
  .of_intent_none rfl rfl rfl

theorem backed_decide (s : Authority N C) (submission : Submission)
    (result : Except HistoryWriteRejection HistoryWriteOutcome) :
    Backed codec tables s
      { submission with stage := submission.decide result } := by
  cases result <;> exact backed_decided s submission _

variable {intent : Intent}

theorem backed_refused
    {submission : Submission} (backed : Backed codec tables s submission) (held : submission.stage.intent = some intent)
    (reason : HistoryWriteRejection) :
    Backed codec tables s
      { submission with stage := .refused intent reason } := by
  refine .of_none ?_ rfl rfl
  intro other same
  obtain rfl := Option.some.inj same
  exact backed.encoded _ held

theorem backed_interrupted {submission : Submission} (backed : Backed codec tables s submission)
    (error : ReadError) :
    Backed codec tables s
      { submission with stage := interrupted submission error } := by
  have refused (intent : Intent) (held : submission.stage.intent = some intent) :=
    backed_refused backed held (readReason error)
  unfold interrupted
  cases stage : submission.stage with
  | received | admitted intent => exact backed_decide ..
  | unbound intent | inspected intent schema graph
  | opened intent => exact refused intent (by rw [stage]; rfl)
  | refused intent reason | planned intent plan => exact backed_decide ..
  | committing | decided outcome | answered outcome => exact .of_intent_none rfl rfl rfl

variable {stage : Stage}

/-- A submission is backed at every stage that it advances to. -/
theorem Advanced.backed (sound : s.Sound codec tables) {submission : Submission}
    (backed : Backed codec tables s submission)
    (advanced : Advanced codec tables calm s submission stage) :
    Backed codec tables s { submission with stage } := by
  cases advanced with
  | stay => exact backed
  | interrupted error => exact backed_interrupted backed error
  | admitted service source canonical received serving admits encoded =>
    refine .of_none ?_ rfl rfl
    intro intent same
    obtain rfl := Option.some.inj same
    exact encoded
  | unbound intent admitted =>
    refine .of_none ?_ rfl rfl
    intro other same
    obtain rfl := Option.some.inj same
    exact backed.encoded _ (by rw [admitted]; rfl)
  | inspected intent schema graph unbound read =>
    refine .of_inspection ?_ (inspect_eq_ok sound read) rfl rfl
    intro other same
    obtain rfl := Option.some.inj same
    exact backed.encoded _ (by rw [unbound]; rfl)
  | refused intent reason preparing held =>
    exact backed_refused backed held reason
  | planned service intent schema graph series room plan opened planned =>
    refine ⟨?_, ?_, ?_⟩
    · intro other same
      obtain rfl := Option.some.inj same
      exact backed.encoded _ (by rw [opened]; rfl)
    · intro other state read
      cases read
    · intro other same
      subst same
      obtain ⟨facts, stood⟩ := planSeries_eq_ok planned
      refine ⟨facts, schema, ?_⟩
      rw [stood]
      exact backed.inspected schema graph (by rw [opened]; rfl)
  | finished => exact .of_intent_none rfl rfl rfl
  | acknowledged => exact backed_decided s submission _
  | _ => exact backed_decide s submission _

theorem Turned.backed
    {submission : Submission} (backed : Backed codec tables s submission) (turned : Turned s submission stage) :
    Backed codec tables s { submission with stage } := by
  cases turned with
  | opened intent schema graph inspected =>
    refine .of_inspection ?_ (backed.inspected schema graph (by rw [inspected]; rfl)) rfl rfl
    intro other same
    obtain rfl := Option.some.inj same
    exact backed.encoded _ (by rw [inspected]; rfl)
  | emptied intent planned free
  | committing => exact .of_intent_none rfl rfl rfl

theorem Stepped.backed (sound : s.Sound codec tables)
    (stepped : Stepped codec tables ontology parseFilter calm s s' applied) :
    ∀ submission ∈ s'.submissions, Backed codec tables s' submission := by
  intro after member
  obtain ⟨_, found⟩ := List.mem_iff_getElem?.mp member
  rcases stepped.submission found with ⟨_, received⟩ | ⟨before, held, same, moved⟩
  · exact .of_intent_none (by rw [received]; rfl) (by rw [received]; rfl) (by rw [received]; rfl)
  · have backed := sound.submissions before (List.mem_of_getElem? held)
    rw [same]
    rcases moved with advanced | turned
    · exact (advanced.backed sound backed).extend (stepped.evolved sound)
    · exact (turned.backed backed).extend (stepped.evolved sound)

/-! ## Receipts -/

theorem getElem?_settleReceipt (store : HisStore) (binding key : HistoryBinding)
    (outcome : HistoryWriteOutcome) :
    (settleReceipt store binding outcome).receipts[key]? =
      if binding = key then (store.receipts[key]?).map ({ · with outcome })
      else store.receipts[key]? := by
  rw [settleReceipt, ExtTreeMap.getElem?_modify]
  by_cases same : binding = key
  · subst same
    simp
  · simp [same]

theorem getElem?_bindReceipt (store : HisStore) (submission : Submission) (intent : Intent)
    (outcome : HistoryWriteOutcome) (key : HistoryBinding) :
    (bindReceipt store submission intent outcome).receipts[key]? =
      if submission.binding = key then
        some ⟨intent.canonical, submission.request, outcome⟩
      else store.receipts[key]? := by
  rw [bindReceipt, ExtTreeMap.getElem?_insert]
  simp

/-- What a step does to the receipts. -/
inductive Receipted (s : Authority N C) : ExtTreeMap HistoryBinding HistoryRecord → Prop
  | same : Receipted s s.store.receipts
  | bound (submission : Submission) (intent : Intent) (plan : Option PreparedSeries)
      (member : submission ∈ s.submissions)
      (planned : submission.stage = .planned intent plan)
      (free : s.store.receipts[submission.binding]? = none) :
      Receipted s (bindReceipt s.store submission intent
        (initialOutcome submission plan)).receipts
  | settled (mutation : PreparedMutation) (outcome : HistoryWriteOutcome)
      (member : mutation ∈ s.prepared)
      (final : (∃ receipt, outcome = .committed receipt) ∨
        ∃ reason, outcome = .rejected mutation.binding.identity reason) :
      Receipted s (settleReceipt s.store mutation.binding outcome).receipts

/-- A native command opens a point at most, or replaces its series and records this. -/
inductive Commanded (store : HisStore) : HisStore → Prop
  | same : Commanded store store
  | opened (id : String) {after : HisStore} {series : Series}
      (opens : store.Opened id after series) : Commanded store after
  | replaced (id : String) {opened after : HisStore} {series : Series} (next : Series)
      (change : HistoryChangeRecord) (opens : store.Opened id opened series)
      (recorded : after = opened.replace id next change)
      (sequence : change.sequence = store.sequence + 1) (unowned : change.operation = none) :
      Commanded store after

theorem step_commanded (store : HisStore) (command : HisStore.HisCommand) :
    Commanded store (store.step command) := by
  cases command with
  | state id =>
    simp only [HisStore.step, HisStore.state]
    split
    · exact .same
    · rename_i pointed
      exact .opened id (HisStore.pointIn_eq_ok pointed)
  | resetPoint id draw incarnation =>
    have reset := store.resetPoint_reset id draw incarnation
    simp only [HisStore.step]
    generalize store.resetPoint id draw incarnation = result at reset
    obtain ⟨after, _⟩ := result
    cases reset with
    | refused => exact .same
    | reset opened after series incarnation opens sequence recorded =>
      exact .replaced id _ _ opens recorded rfl rfl
  | write id items draw =>
    have wrote := store.write_wrote id items draw
    simp only [HisStore.step]
    generalize store.write id items draw = result at wrote
    obtain ⟨after, _⟩ := result
    cases wrote with
    | nothing empty | refused error => exact .same
    | unwritten opened series error opens => exact .opened id opens
    | wrote opened after series next given opens sequence generation extended recorded =>
        exact .replaced id _ _ opens recorded rfl rfl

theorem receipts_step (store : HisStore) (command : HisStore.HisCommand) :
    (store.step command).receipts = store.receipts := by
  have commanded := step_commanded store command
  generalize store.step command = after at commanded
  cases commanded with
  | same => rfl
  | opened id opens => cases opens <;> rfl
  | replaced id next change opens recorded => rw [recorded]; cases opens <;> rfl

theorem Stepped.receipted
    (stepped : Stepped codec tables ontology parseFilter calm s s' applied) :
    Receipted s s'.store.receipts := by
  cases stepped with
  | pointed index submission intent schema graph store series found inspected opens =>
      have same : store.receipts = s.store.receipts := by cases opens <;> rfl
      exact same ▸ .same
  | bound index submission intent plan found planned free =>
    have bound := Receipted.bound submission intent plan (List.mem_of_getElem? found) planned free
    cases plan <;> exact bound
  | rejected index mutation reason found =>
    exact .settled mutation _ (List.mem_of_getElem? found) (.inr ⟨reason, rfl⟩)
  | committed index mutation series found =>
      exact .settled mutation (.committed (publishedReceipt mutation (s.store.sequence + 1)))
        (List.mem_of_getElem? found) (.inl ⟨_, rfl⟩)
  | recorded command => exact receipts_step s.store command ▸ .same
  | _ => exact .same

variable {record : HistoryRecord}

theorem Stepped.records (sound : s.Sound codec tables)
    (stepped : Stepped codec tables ontology parseFilter calm s s' applied)
    {binding : HistoryBinding} (found : s'.store.receipts[binding]? = some record) :
    Kept codec binding record := by
  have receipted := stepped.receipted
  generalize s'.store.receipts = receipts at receipted found
  cases receipted with
  | same => exact sound.records found
  | bound submission intent plan member planned =>
    rw [getElem?_bindReceipt] at found
    split at found
    · rename_i same
      subst same
      obtain rfl := Option.some.inj found
      refine ⟨rfl, (sound.submissions submission member).encoded intent
        (by rw [planned]; rfl), ?_⟩
      cases plan with
      | none => exact .inr (.inr ⟨.emptyBatch, rfl⟩)
      | some => exact .inl rfl
    · exact sound.records found
  | settled mutation outcome member final =>
    rw [getElem?_settleReceipt] at found
    split at found
    · rename_i same
      subst same
      obtain ⟨_, held, rfl⟩ := Option.map_eq_some_iff.mp found
      have kept := sound.records held
      exact ⟨kept.identity, kept.encoded, .inr final⟩
    · exact sound.records found

variable {mutation : PreparedMutation}

/-- A prepared mutation whose receipt a step leaves alone stays reserved. -/
theorem Reserved.stepped (evolved : Evolved s s') (reserved : Reserved tables s mutation record)
    (kept : s'.store.receipts[mutation.binding]? = s.store.receipts[mutation.binding]?) :
    ∃ record, Reserved tables s' mutation record :=
  ⟨record, kept.trans reserved.bound, reserved.pending, reserved.planned.extend evolved⟩

variable {outcome : HistoryWriteOutcome}

/-- Settling the receipt of a prepared mutation leaves the others alone. -/
theorem Sound.settled_prepared
    (sound : s.Sound codec tables) (evolved : Evolved s s') {index : Nat} (found : s.prepared[index]? = some mutation)
    (receipts : s'.store.receipts = (settleReceipt s.store mutation.binding outcome).receipts)
    (prepared : s'.prepared = s.prepared.eraseIdx index) :
    ∀ other ∈ s'.prepared, ∃ record, Reserved tables s' other record := by
  intro other member
  rw [prepared] at member
  obtain ⟨_, reserved⟩ := sound.prepared other (List.mem_of_mem_eraseIdx member)
  apply reserved.stepped evolved
  have different := key_ne_of_mem_eraseIdx sound.distinct found member
  rw [receipts, getElem?_settleReceipt, if_neg (Ne.symm different)]

/-- A new receipt leaves those of the prepared mutations alone. -/
theorem Sound.bound_old (sound : s.Sound codec tables) (evolved : Evolved s s')
    {submission : Submission} (free : s.store.receipts[submission.binding]? = none)
    (receipts : s'.store.receipts = (bindReceipt s.store submission intent outcome).receipts) :
    ∀ other ∈ s.prepared, ∃ record, Reserved tables s' other record := by
  intro other old
  obtain ⟨_, reserved⟩ := sound.prepared other old
  apply reserved.stepped evolved
  have different : submission.binding ≠ other.binding := by
    intro same
    rw [same, reserved.bound] at free
    cases free
  rw [receipts, getElem?_bindReceipt, if_neg different]

/-- A new receipt has a binding that no prepared mutation has. -/
theorem Sound.bound_distinct (sound : s.Sound codec tables)
    (free : s.store.receipts[mutation.binding]? = none) :
    ((s.prepared ++ [mutation]).map (·.binding)).Nodup := by
  refine nodup_concat sound.distinct fun old held same => ?_
  obtain ⟨_, reserved⟩ := sound.prepared old held
  rw [← same, reserved.bound] at free
  cases free

/-- Every step keeps the prepared mutations reserved and distinct. -/
theorem Stepped.prepared (sound : s.Sound codec tables)
    (stepped : Stepped codec tables ontology parseFilter calm s s' applied) :
    (∀ mutation ∈ s'.prepared, ∃ record, Reserved tables s' mutation record) ∧
      (s'.prepared.map (·.binding)).Nodup := by
  have evolved := stepped.evolved sound
  have fewer : s'.store.receipts = s.store.receipts →
      (∀ mutation ∈ s'.prepared, mutation ∈ s.prepared) →
      ∀ mutation ∈ s'.prepared, ∃ record, Reserved tables s' mutation record := by
    intro same subset mutation member
    obtain ⟨_, reserved⟩ := sound.prepared mutation (subset mutation member)
    exact reserved.stepped evolved (by rw [same])
  have distinct (index : Nat) : ((s.prepared.eraseIdx index).map (·.binding)).Nodup := by
    rw [← List.eraseIdx_map]
    exact sound.distinct.eraseIdx index
  cases stepped with
  | pointed index submission intent schema graph store series found inspected opens =>
      have same : store.receipts = s.store.receipts := by cases opens <;> rfl
      exact ⟨fewer same fun _ => id, sound.distinct⟩
  | bound index submission intent plan found planned free =>
    have backed := sound.submissions submission (List.mem_of_getElem? found)
    cases plan with
    | none => exact ⟨sound.bound_old evolved free rfl, sound.distinct⟩
    | some plan =>
      refine ⟨?_, sound.bound_distinct free⟩
      intro other member
      rcases List.mem_append.mp member with old | new
      · exact sound.bound_old evolved free rfl other old
      · obtain rfl := List.mem_singleton.mp new
        exact ⟨_, (getElem?_bindReceipt s.store submission intent _ _).trans (if_pos rfl), rfl,
          (backed.planned plan (by rw [planned]; rfl)).extend evolved⟩
  | rejected index mutation reason found =>
    exact ⟨sound.settled_prepared evolved found rfl rfl, distinct index⟩
  | committed index mutation series found =>
      have settled : (publishStore s.store mutation (s.store.sequence + 1)).receipts =
          (settleReceipt s.store mutation.binding (.committed
            (publishedReceipt mutation (s.store.sequence + 1)))).receipts := rfl
      exact ⟨sound.settled_prepared evolved found settled rfl, distinct index⟩
  | dropped index =>
    exact ⟨fewer rfl fun _ => List.mem_of_mem_eraseIdx, distinct index⟩
  | recorded command =>
    exact ⟨fewer (receipts_step s.store command) fun _ => id, sound.distinct⟩
  | _ => exact ⟨fewer rfl fun _ => id, sound.distinct⟩

/-- Every step keeps an authority sound. -/
theorem Stepped.sound (sound : s.Sound codec tables)
    (stepped : Stepped codec tables ontology parseFilter calm s s' applied) :
    s'.Sound codec tables := by
  have graph : s'.graph.Sound ∧ s'.graph.graph.incarnation ∈ s'.incarnations := by
    cases stepped with
    | bound index submission intent plan =>
      cases plan <;> exact ⟨sound.graph, sound.incarnation⟩
    | wrote command =>
      have moved : Moved ontology parseFilter s.graph.graph _ := sound.graph.step_moved command
      exact ⟨sound.graph.step command, moved.incarnation ▸ sound.incarnation⟩
    | swapped next incarnation =>
      exact ⟨next.renewed incarnation, List.mem_cons_self⟩
    | _ => exact ⟨sound.graph, sound.incarnation⟩
  have prepared := stepped.prepared sound
  exact
    { graph := graph.1
      incarnation := graph.2
      records := stepped.records sound
      submissions := stepped.backed sound
      prepared := prepared.1
      distinct := prepared.2 }

theorem sound_new (graph : DetachedGraph N C) (incarnation authority : BitVec 128)
    (limits : HistoryStoreLimits) :
    (Authority.new graph incarnation authority limits).Sound codec tables where
  graph := graph.renewed incarnation
  incarnation := List.mem_singleton_self _
  records found := by simp [Authority.new, HisStore.new] at found
  submissions _ member := absurd member List.not_mem_nil
  prepared _ member := absurd member List.not_mem_nil
  distinct := List.nodup_nil

end Authority
end History
end App
end Haystack
