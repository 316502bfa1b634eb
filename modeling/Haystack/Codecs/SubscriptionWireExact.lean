import Haystack.Codecs.SubscriptionWire

/-!
# State-subscription messages are read back

Every request that is encoded is decoded to itself.  So is every outcome, with
one exception: the rows of a delivery are charged as dictionaries when it is
encoded, and as values one level deeper when it is decoded, and the removed ids
are bounded only when it is decoded.
-/

namespace Haystack
namespace Codecs
namespace SubscriptionWire

open Collections App.Subscription
open Messages

/-! ## Parts -/

theorem require_eq_ok {condition : Bool} {result : Unit} :
    require condition = .ok result ↔ condition = true := by
  unfold require
  cases condition <;> simp

theorem fields_dict {entries : List (String × Kind)} {names : List String}
    (keys : entries.map Prod.fst = names) (nodup : names.Nodup) :
    fields (dict entries) names = .ok (Assoc.ofList entries) := by
  subst keys
  have length := (hasFields_ofList nodup).length
  have present : ((entries.map Prod.fst).all fun name =>
      (Assoc.lookup name (Assoc.ofList entries)).isSome) = true := by
    rw [List.all_eq_true]
    intro name listed
    obtain ⟨_, member, rfl⟩ := List.mem_map.mp listed
    rw [lookup_entry nodup member]
    rfl
  simp [fields, dict, length, present, require, bind, Except.bind]

@[simp] theorem parseHex_hex (id : BitVec 128) : parseHex (hex id) = .ok id := by
  rw [hex, text, parseHex, parseHexText_hexText]

theorem parseIdentity_identity {id : SubscriptionId} (checked : checkKey id.key = .ok ()) :
    parseIdentity (identity id) = .ok id := by
  rw [parseIdentity, identity, fields_dict]
  · simp [bind, Except.bind, string, field, text, Assoc.ofList, Assoc.lookup_insert, checked]
  · rfl
  · decide

variable {ids result : List String}

/-- The ids of a list are charged when they are read as when they are written. -/
theorem parseIdsFrom_map_text {before : Nat} : parseIdsFrom before (ids.map text) = .ok result ↔
      result = ids ∧ ∃ after, ids.foldlM chargeId before = .ok after := by
  induction ids generalizing before result with
  | nil =>
    constructor
    · intro same
      cases same
      exact ⟨rfl, before, rfl⟩
    · rintro ⟨rfl, -⟩
      rfl
  | cons id rest ih =>
    rw [List.map_cons, text, parseIdsFrom, except_bind_eq_ok]
    constructor
    · rintro ⟨bytes, first, read⟩
      obtain ⟨_, tail, same⟩ := except_bind_eq_ok.mp read
      cases same
      obtain ⟨rfl, after, charged⟩ := ih.mp tail
      exact ⟨rfl, after, except_bind_eq_ok.mpr ⟨bytes, first, charged⟩⟩
    · rintro ⟨rfl, after, charged⟩
      obtain ⟨bytes, first, charged⟩ := except_bind_eq_ok.mp charged
      exact ⟨bytes, first, except_bind_eq_ok.mpr ⟨rest, ih.mpr ⟨rfl, after, charged⟩, rfl⟩⟩

/-- A list of ids is read back exactly when it is within its bounds. -/
theorem parseIds_idsKind {allowEmpty : Bool} : parseIds (idsKind ids) allowEmpty = .ok result ↔
      result = ids ∧ ∃ bytes, idsBytes ids allowEmpty = .ok bytes := by
  have counts : require (!((ids.map text).length > maxIds ||
      !allowEmpty && (ids.map text).isEmpty)) =
        require (!(!allowEmpty && ids.isEmpty || ids.length > maxIds)) := by
    rw [List.length_map, List.isEmpty_map, Bool.or_comm]
  rw [idsKind, parseIds, counts]
  simp only [idsBytes, except_bind_eq_ok, parseIdsFrom_map_text]
  constructor
  · rintro ⟨_, counted, rfl, after, charged⟩
    exact ⟨rfl, after, (), counted, charged⟩
  · rintro ⟨rfl, after, _, counted, charged⟩
    exact ⟨(), counted, rfl, after, charged⟩

theorem openEnvelope_envelope (kind : String) (body : Kind) :
    openEnvelope (envelope kind body) = .ok (kind, body) := by
  rw [openEnvelope, envelope, fields_dict]
  · simp [bind, Except.bind, string, field, text, Assoc.ofList, Assoc.lookup_insert, require]
  · rfl
  · decide

/-! ## Requests -/

/-- The numbers of a request. -/
def requestNumbers : SubscriptionRequest → List Nat
  | .create create => [create.leaseMs]
  | .resume _ scopeGeneration acknowledged => [scopeGeneration, acknowledged]
  | .acknowledge _ scopeGeneration _ through => [scopeGeneration, through]
  | .renew _ leaseMs => [leaseMs]
  | .replace _ expectedScopeGeneration _ => [expectedScopeGeneration]
  | _ => []

variable {before after : Nat}

theorem checkKey_of_keyBytes {watch : SubscriptionId}
    (charged : keyBytes before (some watch) = .ok after) : checkKey watch.key = .ok () := by
  obtain ⟨_, checked, -⟩ := except_bind_eq_ok.mp charged
  exact checked

variable {bytes : Nat}

/-- The body of a request is read back. -/
theorem readRequest_requestBody {request : SubscriptionRequest}
    (charged : requestBytes request = .ok bytes)
    (small : ∀ n ∈ requestNumbers request, n ≤ u64Max) :
    readRequest (requestBody request).1 (requestBody request).2 = .ok request := by
  obtain ⟨_, keyed, charged⟩ := except_bind_eq_ok.mp charged
  obtain ⟨_, counted, -⟩ := except_bind_eq_ok.mp charged
  have known : ∀ watch, request.watch = some watch →
      parseIdentity (identity watch) = .ok watch := by
    intro watch named
    rw [named] at keyed
    exact parseIdentity_identity (checkKey_of_keyBytes keyed)
  have numbers : ∀ n ∈ requestNumbers request, parseNumber invalid (decimalText n) = .ok n :=
    fun n member => parseNumber_decimalText (small n member)
  cases request with
  | describe => rfl
  | create =>
    obtain ⟨_, key, counted⟩ := except_bind_eq_ok.mp counted
    obtain ⟨_, _, counted⟩ := except_bind_eq_ok.mp counted
    obtain ⟨charge, ids, -⟩ := except_bind_eq_ok.mp counted
    simp only [requestBody, readRequest]
    rw [fields_dict]
    · simp [bind, Except.bind, string, field, number, text, uint, Assoc.ofList,
        Assoc.lookup_insert, key, parseIds_idsKind.mpr ⟨rfl, charge, ids⟩, numbers _
        List.mem_cons_self]
    · rfl
    · decide
  | replace =>
    obtain ⟨_, -, counted⟩ := except_bind_eq_ok.mp counted
    obtain ⟨charge, listed, -⟩ := except_bind_eq_ok.mp counted
    simp only [requestBody, readRequest]
    rw [fields_dict]
    · simp [bind, Except.bind, string, field, number, text, uint, Assoc.ofList,
        Assoc.lookup_insert, known _ rfl, parseIds_idsKind.mpr ⟨rfl, charge, listed⟩, numbers _
        List.mem_cons_self]
    · rfl
    · decide
  | _ =>
    simp only [requestNumbers] at numbers
    simp only [requestBody, readRequest]
    rw [fields_dict]
    · simp [bind, Except.bind, string, field, number, text, uint, Assoc.ofList,
        Assoc.lookup_insert, known _ rfl, numbers]
    · rfl
    · decide

/-! ## Outcomes -/

/-- The numbers of an outcome. -/
def outcomeNumbers : SubscriptionOutcome → List Nat
  | .delivery delivery =>
    [delivery.catalogGeneration, delivery.scopeGeneration, delivery.fromRevision,
      delivery.through]
  | .idle _ scopeGeneration acknowledged => [scopeGeneration, acknowledged]
  | .acknowledged _ scopeGeneration _ through => [scopeGeneration, through]
  | .renewed _ leaseMs => [leaseMs]
  | _ => []

/-- The rows of an outcome. -/
def outcomeRows : SubscriptionOutcome → List HDict
  | .delivery delivery => delivery.rows
  | _ => []

/-- The rows of a delivery fit the budget as values, and its removed ids the bound
of an id list. -/
def Readable : SubscriptionOutcome → Prop
  | .delivery delivery =>
    (rowBudget.items 1 (delivery.rows.map rowKind)).isSome = true ∧
      removedBytes delivery.removed ≤ 65536
  | _ => True

section Ids

theorem length_le_of_checkId {id : String} (checked : checkId id = .ok ()) :
    id.utf8ByteSize ≤ 1024 := by
  rw [checkId, require_eq_ok] at checked
  simp only [Bool.not_eq_true', Bool.or_eq_false_iff, decide_eq_false_iff_not] at checked
  omega

/-- An id is charged exactly its bytes, up to the bound. -/
theorem chargeId_eq_ok {id : String} (small : before ≤ 65536) :
    chargeId before id = .ok after ↔
      checkId id = .ok () ∧ after = before + (id.utf8ByteSize + 64) ∧ after ≤ 65536 := by
  rw [chargeId, except_bind_eq_ok]
  constructor
  · rintro ⟨⟨⟩, checked, charged⟩
    have length := length_le_of_checkId checked
    have exact : saturatingAdd before (id.utf8ByteSize + 64) =
        before + (id.utf8ByteSize + 64) := by
      simp only [saturatingAdd, usizeMax]
      omega
    obtain ⟨_, bounded, same⟩ := except_bind_eq_ok.mp charged
    rw [exact] at bounded same
    rw [require_eq_ok, Bool.not_eq_true', decide_eq_false_iff_not] at bounded
    cases same
    exact ⟨checked, rfl, by omega⟩
  · rintro ⟨checked, rfl, bounded⟩
    have exact : saturatingAdd before (id.utf8ByteSize + 64) =
        before + (id.utf8ByteSize + 64) := by
      simp only [saturatingAdd, usizeMax]
      omega
    refine ⟨(), checked, except_bind_eq_ok.mpr ⟨(), ?_, ?_⟩⟩
    · rw [require_eq_ok, Bool.not_eq_true', decide_eq_false_iff_not]
      omega
    · rw [exact]

/-- Ids are charged exactly their bytes, up to the bound. -/
theorem foldlM_chargeId_eq_ok (small : before ≤ 65536) :
    ids.foldlM chargeId before = .ok after ↔
      (∀ id ∈ ids, checkId id = .ok ()) ∧ after = before + removedBytes ids ∧ after ≤ 65536 := by
  induction ids generalizing before with
  | nil =>
    constructor
    · intro same
      cases same
      exact ⟨by simp, rfl, small⟩
    · rintro ⟨-, rfl, -⟩
      rfl
  | cons id rest ih =>
    have sum : removedBytes (id :: rest) = id.utf8ByteSize + 64 + removedBytes rest := rfl
    rw [List.foldlM_cons, except_bind_eq_ok, List.forall_mem_cons]
    constructor
    · rintro ⟨bytes, first, others⟩
      obtain ⟨checked, rfl, bounded⟩ := (chargeId_eq_ok small).mp first
      obtain ⟨each, rfl, total⟩ := (ih bounded).mp others
      exact ⟨⟨checked, each⟩, by omega, total⟩
    · rintro ⟨⟨checked, each⟩, rfl, total⟩
      have bounded : before + (id.utf8ByteSize + 64) ≤ 65536 := by omega
      exact ⟨_, (chargeId_eq_ok small).mpr ⟨checked, rfl, bounded⟩,
        (ih bounded).mpr ⟨each, by omega, total⟩⟩

theorem checkId_of_foldlM_addId
    {before after : List String} (added : ids.foldlM addId before = .ok after) :
    ∀ id ∈ ids, checkId id = .ok () := by
  induction ids generalizing before with
  | nil => simp
  | cons id rest ih =>
    obtain ⟨_, first, added⟩ := except_bind_eq_ok.mp added
    obtain ⟨⟨⟩, checked, -⟩ := except_bind_eq_ok.mp first
    intro other member
    rcases List.mem_cons.mp member with rfl | member
    · exact checked
    · exact ih added other member

end Ids

section Delivery

variable {delivery : SubscriptionDelivery}

/-- The parts of a delivery that both directions check alike. -/
structure Checked (delivery : SubscriptionDelivery) : Prop where
  key : checkKey delivery.watch.key = .ok ()
  rows : delivery.rows.length ≤ maxIds
  removed : delivery.removed.length ≤ maxIds
  ids : ∀ id ∈ delivery.removed, checkId id = .ok ()

theorem checked_of_outcomeBytes (charged : outcomeBytes (.delivery delivery) = .ok bytes) :
    Checked delivery := by
  obtain ⟨_, keyed, charged⟩ := except_bind_eq_ok.mp charged
  obtain ⟨_, bounds, charged⟩ := except_bind_eq_ok.mp charged
  obtain ⟨⟨_, _⟩, -, charged⟩ := except_bind_eq_ok.mp charged
  obtain ⟨_, added, -⟩ := except_bind_eq_ok.mp charged
  rw [require_eq_ok] at bounds
  simp only [Bool.not_eq_true', Bool.or_eq_false_iff, decide_eq_false_iff_not, not_lt] at bounds
  exact ⟨checkKey_of_keyBytes keyed, bounds.1.1.1.1, bounds.1.1.1.2,
    checkId_of_foldlM_addId added⟩

variable (checked : Checked delivery)

include checked

/-- Removed ids are read back exactly when they are within the bound of an id
list. -/
theorem parseIds_removed :
    parseIds (idsKind delivery.removed) true = .ok result ↔
      result = delivery.removed ∧ removedBytes delivery.removed ≤ 65536 := by
  rw [parseIds_idsKind]
  refine and_congr_right fun _ => ?_
  have counted : require (!(!true && delivery.removed.isEmpty ||
      delivery.removed.length > maxIds)) = .ok () := by
    rw [require_eq_ok]
    simpa using checked.removed
  simp only [idsBytes, counted, bind, Except.bind,
    foldlM_chargeId_eq_ok (Nat.zero_le 65536), Nat.zero_add]
  constructor
  · rintro ⟨bytes, -, rfl, small⟩
    exact small
  · intro small
    exact ⟨_, checked.ids, rfl, small⟩

/-- Rows are read back exactly when they fit the budget as values. -/
theorem readRows_rowKind {result : List HDict} :
    readRows (delivery.rows.map rowKind) = .ok result ↔ result = delivery.rows ∧
        (rowBudget.items 1 (delivery.rows.map rowKind)).isSome = true := by
  have counted : require (!((delivery.rows.map rowKind).length > maxIds)) = .ok () := by
    rw [require_eq_ok]
    simpa using checked.rows
  have kept : (delivery.rows.map rowKind).mapM (checkedRow invalid) = .ok delivery.rows :=
    mapM_map_eq_ok fun row _ => checkedRow_rowKind invalid row
  rw [readRows, counted]
  simp only [bind, Except.bind]
  cases rowBudget.items 1 (delivery.rows.map rowKind) with
  | none => simp
  | some =>
    simp only [kept, Except.ok.injEq, Option.isSome_some, and_true]
    exact eq_comm

/-- A delivery is read back exactly when it is readable. -/
theorem readDelivery_outcomeBody (small : ∀ n ∈ outcomeNumbers (.delivery delivery), n ≤ u64Max)
    {result : SubscriptionDelivery} :
    readDelivery (outcomeBody (.delivery delivery)).2 = .ok result ↔
      result = delivery ∧ Readable (.delivery delivery) := by
  simp only [outcomeNumbers, List.forall_mem_cons] at small
  obtain ⟨catalog, scope, since, through, -⟩ := small
  have known := parseIdentity_identity checked.key
  have parts : readDelivery (outcomeBody (.delivery delivery)).2 = (do
      let rows ← readRows (delivery.rows.map rowKind)
      let removed ← parseIds (idsKind delivery.removed) true
      .ok { delivery with rows, removed }) := by
    simp only [outcomeBody, readDelivery]
    rw [fields_dict]
    · simp [bind, Except.bind, string, field, number, flag, list, text, uint, Assoc.ofList,
        Assoc.lookup_insert, known, parseNumber_decimalText catalog, parseNumber_decimalText
        scope, parseNumber_decimalText since, parseNumber_decimalText through]
    · rfl
    · decide
  rw [parts]
  simp only [except_bind_eq_ok, readRows_rowKind checked, parseIds_removed checked]
  constructor
  · rintro ⟨rows, ⟨rfl, fits⟩, removed, ⟨rfl, bounded⟩, same⟩
    cases same
    exact ⟨rfl, fits, bounded⟩
  · rintro ⟨rfl, fits, bounded⟩
    exact ⟨_, ⟨rfl, fits⟩, _, ⟨rfl, bounded⟩, rfl⟩

end Delivery

theorem rejection_rejectionName (reason : SubscriptionRejection) :
    rejection (rejectionName reason) = .ok reason := by
  cases reason <;> rfl

theorem resync_resyncName (reason : SubscriptionResync) :
    resync (resyncName reason) = .ok reason := by
  cases reason <;> rfl

/-- The body of an outcome is read back exactly when it is readable. -/
theorem readOutcome_outcomeBody {outcome result : SubscriptionOutcome}
    (charged : outcomeBytes outcome = .ok bytes)
    (small : ∀ n ∈ outcomeNumbers outcome, n ≤ u64Max) :
    readOutcome (outcomeBody outcome).1 (outcomeBody outcome).2 = .ok result ↔
      result = outcome ∧ Readable outcome := by
  have numbers : ∀ n ∈ outcomeNumbers outcome, parseNumber invalid (decimalText n) = .ok n :=
    fun n member => parseNumber_decimalText (small n member)
  have alone : readOutcome (outcomeBody outcome).1 (outcomeBody outcome).2 =
      .ok outcome → Readable outcome →
      (readOutcome (outcomeBody outcome).1 (outcomeBody outcome).2 = .ok result ↔
        result = outcome ∧ Readable outcome) := by
    intro read readable
    rw [read, Except.ok.injEq]
    exact ⟨fun same => ⟨same.symm, readable⟩, fun same => same.1.symm⟩
  cases outcome with
  | delivery delivery =>
    have checked := checked_of_outcomeBytes charged
    have read : readOutcome (outcomeBody (.delivery delivery)).1
        (outcomeBody (.delivery delivery)).2 = .ok result ↔
          ∃ found, readDelivery (outcomeBody (.delivery delivery)).2 = .ok found ∧
            .delivery found = result := by
      rw [outcomeBody, readOutcome, except_bind_eq_ok]
      simp
    rw [read]
    simp only [readDelivery_outcomeBody checked small]
    constructor
    · rintro ⟨found, ⟨rfl, readable⟩, rfl⟩
      exact ⟨rfl, readable⟩
    · rintro ⟨rfl, readable⟩
      exact ⟨delivery, ⟨rfl, readable⟩, rfl⟩
  | authority =>
    refine alone ?_ trivial
    simp only [outcomeBody, readOutcome]
    rw [fields_dict]
    · simp [bind, Except.bind, field, Assoc.ofList, Assoc.lookup_insert]
    · rfl
    · decide
  | rejected reason | resync reason =>
    refine alone ?_ trivial
    simp only [outcomeBody, readOutcome]
    rw [fields_dict]
    · simp [bind, Except.bind, string, text, Assoc.ofList, Assoc.lookup_insert,
        rejection_rejectionName, resync_resyncName]
    · rfl
    · decide
  | unknown => exact alone rfl trivial
  | _ =>
    obtain ⟨_, keyed, charged⟩ := except_bind_eq_ok.mp charged
    refine alone ?_ trivial
    simp only [outcomeNumbers] at numbers
    simp only [outcomeBody, readOutcome]
    rw [fields_dict]
    · simp [bind, Except.bind, string, field, number, text, uint, Assoc.ofList,
        Assoc.lookup_insert, numbers, parseIdentity_identity (checkKey_of_keyBytes keyed)]
    · rfl
    · decide

/-! ## Well-formed messages -/

section WellFormed

theorem wellFormed_identity (id : SubscriptionId) : (identity id).WellFormed :=
  wellFormed_dict (by simp)

theorem wellFormed_idsKind (ids : List String) : (idsKind ids).WellFormed :=
  wellFormed_list (by simp)

theorem wellFormed_envelope {body : Kind} (form : body.WellFormed) (kind : String) :
    (envelope kind body).WellFormed :=
  wellFormed_dict (by simp [form])

theorem wellFormed_requestBody (request : SubscriptionRequest) :
    (requestBody request).2.WellFormed := by
  cases request with
  | _ => exact wellFormed_dict (by simp [wellFormed_identity, wellFormed_idsKind])

theorem wellFormed_outcomeBody {outcome : SubscriptionOutcome}
    (rows : ∀ row ∈ outcomeRows outcome, (rowKind row).WellFormed) :
    (outcomeBody outcome).2.WellFormed := by
  cases outcome with
  | delivery delivery =>
    have listed : (Kind.list (delivery.rows.map rowKind)).WellFormed := by
      refine wellFormed_list fun item member => ?_
      obtain ⟨row, listed, rfl⟩ := List.mem_map.mp member
      exact rows row listed
    exact wellFormed_dict (by
      simp [wellFormed_identity, wellFormed_idsKind, listed])
  | _ => exact wellFormed_dict (by simp [wellFormed_identity])

end WellFormed

/-! ## Encoding and decoding -/

section Exact

variable {formats : Formats} {reader : Typed.JsonReader}

theorem toKind_request {message : SubscriptionRequest} {value : Kind}
    (built : request.toKind message = .ok value) :
    (∃ bytes, requestBytes message = .ok bytes) ∧
      value = envelope (requestBody message).1 (requestBody message).2 := by
  obtain ⟨bytes, charged, same⟩ := except_bind_eq_ok.mp built
  exact ⟨⟨bytes, charged⟩, (Except.ok.inj same).symm⟩

variable {message : SubscriptionOutcome}

theorem toKind_outcome {value : Kind} (built : outcome.toKind message = .ok value) :
    (∃ bytes, outcomeBytes message = .ok bytes) ∧
      value = envelope (outcomeBody message).1 (outcomeBody message).2 := by
  obtain ⟨bytes, charged, same⟩ := except_bind_eq_ok.mp built
  exact ⟨⟨bytes, charged⟩, (Except.ok.inj same).symm⟩

variable {bytes : List UInt8}

/-- A request is decoded from its bytes. -/
theorem decode_request {message : SubscriptionRequest}
    (small : ∀ n ∈ requestNumbers message, n ≤ u64Max)
    (encoded : request.encode formats reader message = .ok bytes) :
    request.decode formats reader bytes = .ok message := by
  obtain ⟨value, built, decoded⟩ := EntityWire.decode_encode encoded fun value built => by
      obtain ⟨-, rfl⟩ := toKind_request built
      exact wellFormed_envelope (wellFormed_requestBody message) _
  obtain ⟨⟨_, charged⟩, rfl⟩ := toKind_request built
  rw [decoded]
  simp [request, openEnvelope_envelope, bind, Except.bind,
    readRequest_requestBody charged small, charged]

variable (small : ∀ n ∈ outcomeNumbers message, n ≤ u64Max)

include small

variable (rows : ∀ row ∈ outcomeRows message, (rowKind row).WellFormed)

include rows

variable (encoded : outcome.encode formats reader message = .ok bytes)

include encoded

/-- An outcome is decoded from its bytes exactly when it is readable. -/
theorem decode_outcome {result : SubscriptionOutcome} :
    outcome.decode formats reader bytes = .ok result ↔ result = message ∧ Readable message := by
  obtain ⟨value, built, decoded⟩ := EntityWire.decode_encode encoded fun value built => by
      obtain ⟨-, rfl⟩ := toKind_outcome built
      exact wellFormed_envelope (wellFormed_outcomeBody rows) _
  obtain ⟨⟨charge, charged⟩, rfl⟩ := toKind_outcome built
  have parts : outcome.fromKind (envelope (outcomeBody message).1 (outcomeBody message).2) = (do
        let found ← readOutcome (outcomeBody message).1 (outcomeBody message).2
        let _ ← outcomeBytes found
        .ok found) := by
    simp [outcome, openEnvelope_envelope, bind, Except.bind]
  rw [decoded, parts, except_bind_eq_ok]
  simp only [readOutcome_outcomeBody charged small]
  constructor
  · rintro ⟨found, ⟨rfl, readable⟩, kept⟩
    obtain ⟨_, -, same⟩ := except_bind_eq_ok.mp kept
    cases same
    exact ⟨rfl, readable⟩
  · rintro ⟨rfl, readable⟩
    exact ⟨result, ⟨rfl, readable⟩, except_bind_eq_ok.mpr ⟨charge, charged, rfl⟩⟩

/-- An outcome that is not readable is refused. -/
theorem refused_of_not_readable (unreadable : ¬Readable message) :
    ∃ failure, outcome.decode formats reader bytes = .error failure := by
  cases decoded : outcome.decode formats reader bytes with
  | error failure => exact ⟨failure, rfl⟩
  | ok =>
    exact absurd ((decode_outcome small rows encoded).mp decoded).2 unreadable

omit encoded

omit rows

omit small

theorem exists_encode_outcome (charged : (outcomeBytes message).isOk = true)
    (accepted : Typed.encodable formats
      (envelope (outcomeBody message).1 (outcomeBody message).2) = true)
    (reader : Typed.JsonReader) : ∃ bytes, outcome.encode formats reader message = .ok bytes := by
  obtain ⟨bytes, encoded⟩ := Typed.exists_encode accepted reader
  cases bound : outcomeBytes message with
  | error =>
    rw [bound] at charged
    cases charged
  | ok =>
    exact ⟨bytes, by
      simp [EntityWire.encode, outcome, bound, bind, Except.bind, encoded]⟩

end Exact

/-- Requests are decoded to what was encoded; an outcome is decoded to what was
encoded exactly when the rows of its delivery fit the budget as values and its
removed ids the bound of an id list, and otherwise it is refused. -/
theorem subscription_messages_read_back (formats : Formats) (reader : Typed.JsonReader) :
    (∀ message bytes, (∀ n ∈ requestNumbers message, n ≤ u64Max) →
      request.encode formats reader message = .ok bytes →
        request.decode formats reader bytes = .ok message) ∧
    (∀ message bytes, (∀ n ∈ outcomeNumbers message, n ≤ u64Max) →
      (∀ row ∈ outcomeRows message, (rowKind row).WellFormed) →
      outcome.encode formats reader message = .ok bytes →
        (Readable message → outcome.decode formats reader bytes = .ok message) ∧
        (¬Readable message → ∃ failure,
          outcome.decode formats reader bytes = .error failure)) := by
  refine ⟨fun message bytes small encoded => decode_request small encoded, ?_⟩
  intro message bytes small rows encoded
  exact ⟨fun readable => (decode_outcome small rows encoded).mpr ⟨rfl, readable⟩,
    refused_of_not_readable small rows encoded⟩

section Deep

/-- Dictionaries nested in one another. -/
def nestedTags : Nat → Kind
  | 0 => .marker
  | depth + 1 => .dict [("a", nestedTags depth)]

/-- A row with 23 nested dictionaries. -/
def deepRow : HDict := (HDict.new.set "id" (.ref ⟨"x", none⟩)).set "a" (nestedTags 23)

/-- An initial delivery of one deep row. -/
def deepDelivery : SubscriptionOutcome := .delivery {
    watch := ⟨1, 2, "k"⟩
    dataset := 3
    incarnation := 4
    catalogGeneration := 0
    scopeGeneration := 1
    token := 5
    fromRevision := 7
    through := 7
    initial := true
    rows := [deepRow]
    removed := [] }

theorem wellFormed_nestedTags (depth : Nat) : (nestedTags depth).WellFormed := by
  induction depth with
  | zero => exact Kind.everywhere_of_isScalar rfl trivial
  | succ depth ih =>
    refine Kind.everywhere_of_contains (List.pairwise_singleton _ _) fun tag inner contains => ?_
    cases contains with
    | entry member =>
      cases List.mem_singleton.mp member
      exact ih

theorem wellFormed_deepRow : (rowKind deepRow).WellFormed := by
  refine Kind.everywhere_of_contains (sorted_iter deepRow) fun tag inner contains => ?_
  cases contains with
  | entry member =>
    rw [HDict.mem_iter, deepRow, HDict.get_set, HDict.get_set, HDict.get_new] at member
    split_ifs at member
    · cases member
      exact wellFormed_nestedTags 23
    · cases member
      exact Kind.everywhere_of_isScalar rfl trivial

theorem numbers_deepDelivery : ∀ n ∈ outcomeNumbers deepDelivery, n ≤ u64Max := by
  intro n member
  simp only [outcomeNumbers, deepDelivery, List.mem_cons, List.not_mem_nil, or_false] at member
  simp only [u64Max]
  omega

theorem rows_deepDelivery : ∀ row ∈ outcomeRows deepDelivery, (rowKind row).WellFormed := by
  intro row member
  cases List.mem_singleton.mp member
  exact wellFormed_deepRow

theorem not_readable_deepDelivery : ¬Readable deepDelivery := by
  have exhausted : (rowBudget.items 1 ([deepRow].map rowKind)).isSome = false := by
    decide +kernel
  intro readable
  have fits := readable.1
  exact absurd (exhausted.symm.trans fits) (by decide)

/-- A server encodes the delivery and the client refuses its bytes. -/
theorem deep_delivery_refused :
    ∃ bytes failure, outcome.encode Formats.plain .plain deepDelivery = .ok bytes ∧
        outcome.decode Formats.plain .plain bytes = .error failure := by
  have charged : (outcomeBytes deepDelivery).isOk = true := by decide +kernel
  have accepted : Typed.encodable Formats.plain
      (envelope (outcomeBody deepDelivery).1 (outcomeBody deepDelivery).2) = true := by
    decide +kernel
  obtain ⟨bytes, encoded⟩ := exists_encode_outcome charged accepted .plain
  obtain ⟨failure, refused⟩ := refused_of_not_readable numbers_deepDelivery
    rows_deepDelivery encoded not_readable_deepDelivery
  exact ⟨bytes, failure, encoded, refused⟩

end Deep
end SubscriptionWire
end Codecs
end Haystack
