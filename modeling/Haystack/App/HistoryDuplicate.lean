import Haystack.App.HistoryOnce

/-!
# Duplicate history submissions

Two submissions of the same request race.  A submission looks its receipt up
before it prepares, after a failed preparation, and when it reserves; so it finds
the receipt of its twin unless the twin commits after the last of these lookups,
while the answer is on its way.
-/

namespace Haystack
namespace App
namespace History

open Collections Haystack.Graph
open Haystack.Filter (FilterNode Ontology)
open Protocol (applications)

variable {N C : Type}

/-- The answer that a submission has returned. -/
def Stage.answer : Stage → Option HistoryWriteOutcome
  | .answered outcome => some outcome
  | _ => none

variable {stage : Stage}

namespace Authority

variable {codec : HistoryCodec} {tables : Tables} {ontology : Ontology N C}
variable {parseFilter : String → Except String FilterNode}

/-- All services have these rules and limits, and so do the submissions that
hold them; everything that is admitted or bound is within the limits. -/
structure Governed (rules : Policy) (limits : Limits) (s : Authority N C) : Prop where
  services : ∀ service ∈ s.services, service.policy.rules = rules ∧ service.limits = limits
  submissions : ∀ submission ∈ s.submissions, ∀ intent, submission.stage.intent = some intent →
      intent.policy.rules = rules ∧ limits.Admits submission.request
  records : ∀ (binding : HistoryBinding) (record : HistoryRecord),
    s.store.receipts[binding]? = some record → limits.Admits record.request

variable {s s' : Authority N C}

theorem Stepped.services_eq {applied : Option (HistoryBinding × HistoryWriteReceipt)}
    (stepped : Stepped codec tables ontology parseFilter true s s' applied) :
    s'.services = s.services := by
  cases stepped with
  | opened service fired | replaced service rules fired => cases fired
  | bound index submission intent plan => cases plan <;> rfl
  | _ => rfl

theorem intent_decide (submission : Submission)
    (result : Except HistoryWriteRejection HistoryWriteOutcome) :
    (submission.decide result).intent = none := by
  cases result <;> rfl

variable {submission : Submission}

/-- The intent of a submission that advances is the one it had, or is admitted
by its service. -/
theorem Advanced.intent (advanced : Advanced codec tables true s submission stage)
    {intent : Intent} (holds : stage.intent = some intent) :
    submission.stage.intent = some intent ∨
      ∃ service ∈ s.services, intent.policy = service.policy ∧
        service.limits.Admits submission.request := by
  cases advanced with
  | stay => exact .inl holds
  | interrupted error fired => cases fired
  | admitted service source canonical received serving admits =>
    obtain rfl := Option.some.inj holds
    exact .inr ⟨service, List.mem_of_getElem? serving, rfl, admits⟩
  | unbound held admitted => exact .inl (by rw [admitted]; exact holds)
  | inspected held schema graph unbound =>
    exact .inl (by rw [unbound]; exact holds)
  | refused held reason preparing keeps => exact .inl (keeps.trans holds)
  | planned service held schema graph series room plan opened =>
    exact .inl (by rw [opened]; exact holds)
  | acknowledged outcome found committing | finished outcome decided => cases holds
  | _ =>
    rw [intent_decide] at holds
    cases holds

theorem Turned.intent (turned : Turned s submission stage) {intent : Intent}
    (holds : stage.intent = some intent) : submission.stage.intent = some intent := by
  cases turned with
  | opened held schema graph inspected => rw [inspected]; exact holds
  | emptied held planned free | committing held plan planned free => cases holds

variable {rules : Policy} {limits : Limits}

theorem Governed.step {applied : Option (HistoryBinding × HistoryWriteReceipt)}
    (governed : Governed rules limits s)
    (stepped : Stepped codec tables ontology parseFilter true s s' applied) :
    Governed rules limits s' := by
  refine ⟨stepped.services_eq ▸ governed.services, ?_, ?_⟩
  · intro after member intent holds
    obtain ⟨_, found⟩ := List.mem_iff_getElem?.mp member
    rcases stepped.submission found with ⟨_, received⟩ | ⟨before, held, same, moved⟩
    · rw [received] at holds
      cases holds
    · have kept := governed.submissions before (List.mem_of_getElem? held)
      rw [same]
      rcases moved with advanced | turned
      · rcases advanced.intent holds with already | ⟨service, serving, rule, fits⟩
        · exact kept intent already
        · obtain ⟨ruled, limited⟩ := governed.services service serving
          exact ⟨rule ▸ ruled, limited ▸ fits⟩
      · exact kept intent (turned.intent holds)
  · intro binding record found
    have receipted := stepped.receipted
    generalize s'.store.receipts = receipts at receipted found
    cases receipted with
    | same => exact governed.records binding record found
    | bound submission intent plan member planned =>
      rw [getElem?_bindReceipt] at found
      split at found
      · obtain rfl := Option.some.inj found
        exact (governed.submissions submission member intent (by rw [planned]; rfl)).2
      · exact governed.records binding record found
    | settled =>
      rw [getElem?_settleReceipt] at found
      split at found
      · obtain ⟨before, held, rfl⟩ := Option.map_eq_some_iff.mp found
        exact governed.records binding before held
      · exact governed.records binding record found

variable {events : List (Event N C)}

theorem Governed.run (governed : Governed rules limits s)
    (calm : ∀ event ∈ events, event.isCalm = true) :
    Governed rules limits (s.run codec tables ontology parseFilter events) := by
  induction events generalizing s with
  | nil => exact governed
  | cons event events ih =>
    have stepped : Stepped codec tables ontology parseFilter event.isCalm s _ _ := stepped s event
    rw [calm event List.mem_cons_self] at stepped
    exact ih (governed.step stepped)
      fun other member => calm other (List.mem_cons_of_mem event member)

theorem governed_open (graph : DetachedGraph N C) (incarnation authority : BitVec 128)
    (storeLimits : HistoryStoreLimits) (limits : Limits)
    (qualification : ReceiptQualification) (rules : Policy) :
    Governed rules limits ((Authority.new graph incarnation authority storeLimits).openService
        limits qualification rules) := by
  have nothing (binding : HistoryBinding) (record : HistoryRecord)
      (found : (HisStore.new storeLimits authority).receipts[binding]? =
        some record) : limits.Admits record.request := by
    simp [HisStore.new] at found
  unfold openService
  split
  · refine ⟨?_, fun _ member => absurd member List.not_mem_nil, nothing⟩
    intro service member
    obtain rfl := List.mem_singleton.mp member
    exact ⟨rfl, rfl⟩
  · exact ⟨fun _ member => absurd member List.not_mem_nil,
      fun _ member => absurd member List.not_mem_nil, nothing⟩

/-! ## The twin of a committed submission -/

variable {record : HistoryRecord} {receipt : HistoryWriteReceipt}

variable {binding : HistoryBinding} {after : Submission}

theorem exists_ledger_eq_committed_iff :
    (∃ request, s.ledger binding = .committed request receipt) ↔
      ∃ record, s.store.receipts[binding]? = some record ∧
        record.outcome = .committed receipt := by
  unfold ledger
  cases s.store.receipts[binding]? with
  | none => simp
  | some record =>
    unfold status
    cases stored : record.outcome <;> simp [stored]

/-- The writes published in a run are those of the committed records. -/
theorem mem_applications_iff (sound : s.Sound codec tables) (empty : s.store.receipts = ∅)
    (events : List (Event N C)) (binding : HistoryBinding) (receipt : HistoryWriteReceipt) :
    (binding, receipt) ∈ applications (step codec tables ontology parseFilter) applied s events ↔
      ∃ record, (s.run codec tables ontology parseFilter events).store.receipts[binding]?
          = some record ∧ record.outcome = .committed receipt := by
  rw [← exists_ledger_eq_committed_iff]
  constructor
  · intro member
    obtain ⟨request, _, committed⟩ := keeps_sound.of_mem_applications sound member
    exact ⟨request, committed⟩
  · rintro ⟨request, committed⟩
    rcases keeps_sound.mem_applications sound committed with before | later
    · simp [ledger, empty] at before
    · exact later

end Authority

/-! ## An answer that is overtaken -/

namespace Sample

def time : HDateTime := ⟨⟨⟨0⟩, ⟨0, 0⟩, 0⟩, "UTC"⟩

def identity : HistoryOperationIdentity := ⟨9, "p", 5, "w"⟩

/-- One sample for a point. -/
def request : HistoryWriteRequest := ⟨identity, 0, [⟨time, .na⟩]⟩

def encodeRequest (request : HistoryWriteRequest) : Option (List UInt8) :=
  match request with
  | ⟨operation, 0, [⟨ts, .na⟩]⟩ =>
    if operation = identity ∧ ts = time then some [1] else none
  | _ => none

theorem eq_request_of_encodeRequest {other : HistoryWriteRequest} {bytes : List UInt8}
    (encoded : encodeRequest other = some bytes) : other = request := by
  unfold encodeRequest at encoded
  split at encoded
  · split at encoded
    · rename_i same
      rw [same.1, same.2]
      rfl
    · cases encoded
  · cases encoded

def codec : HistoryCodec where
  encodeRequest := encodeRequest
  encodeOutcome _ := some []
  encodeRequest_injective left right :=
    (eq_request_of_encodeRequest left).trans (eq_request_of_encodeRequest right).symm

def tables : Tables where
  unitFor _ := none
  tzFor name := some name
  offsetAt _ _ := some 0

def point : HDict := (((HDict.new.set "id" (.ref ⟨"p", none⟩)).set "his" .marker).set "kind"
    (.str "Str")).set "tz" (.str "UTC")

theorem sound_empty : (Session.initial 3 3000 1 none : Session Unit Unit).Sound :=
  Session.sound_initial ..

def start : Authority Unit Unit :=
  (Authority.new ⟨(Session.initial 3 3000 1 none).graph, sound_empty⟩ 7 9 .default).openService .default
      .ephemeralMemory allowAllHistoryMutations

def run (s : Authority Unit Unit) (events : List (Event Unit Unit)) : Authority Unit Unit :=
  s.run codec tables Ontology.blank (fun _ => .error "no filter") events

def receipt : HistoryWriteReceipt := ⟨identity, 0, 1, 1, 1, 1, 1, 0, .ephemeralMemory⟩

end Sample

end History
end App
end Haystack
