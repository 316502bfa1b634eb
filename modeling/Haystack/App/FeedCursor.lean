import Haystack.App.Feed

/-!
# Cursors of the change feed

A cursor decodes to the position that it was minted for, as long as it lives, and
only for the reader that it was minted for.
-/

namespace Haystack
namespace App

open Collections Haystack.Graph

/-! ## The signed text -/

theorem asBytes_injective : Function.Injective asBytes := by
  intro left right same
  apply String.toByteArray_inj.mp
  apply ByteArray.ext
  exact Array.toList_inj.mp same

/-- The second letter of a debug text names its constructor. -/
theorem Principal.second_debug (printable : Char → Bool) (principal : Principal) :
    (principal.debug printable).toList[1]? = some (match principal with
      | .anonymous => 'n'
      | .authenticated .. => 'u'
      | .trustedEmbedding .. => 'r') := by
  cases principal with
  | anonymous =>
    unfold debug
    simp only
    rfl
  | authenticated subject permissions | trustedEmbedding subject =>
    unfold debug
    simp only [String.toList_append]
    rfl

/-- The debug text of a principal determines it. -/
theorem Principal.debug_injective (printable : Char → Bool) :
    Function.Injective (Principal.debug printable) := by
  intro left right same
  have letters := congrArg (·.toList[1]?) same
  simp only [second_debug] at letters
  cases left with
  | anonymous =>
    cases right with
    | anonymous => rfl
    | authenticated =>
      exact absurd letters (show some 'n' ≠ some 'u' by decide)
    | trustedEmbedding =>
      exact absurd letters (show some 'n' ≠ some 'r' by decide)
  | authenticated =>
    cases right with
    | anonymous =>
      exact absurd letters (show some 'u' ≠ some 'n' by decide)
    | authenticated =>
      have texts := congrArg String.toList same
      unfold debug at texts
      simp only [String.toList_append, String.toList_ofList, List.append_cancel_left_eq] at texts
      obtain ⟨subjects, rest⟩ := quoted_append_inj printable texts
      rw [List.append_cancel_left_eq] at rest
      obtain ⟨lists, _⟩ := quotedList_append_inj printable rest
      have toList_injective : Function.Injective String.toList := fun _ _ => String.toList_inj.mp
      rw [String.toList_inj.mp subjects, List.map_injective_iff.mpr toList_injective lists]
    | trustedEmbedding =>
      exact absurd letters (show some 'u' ≠ some 'r' by decide)
  | trustedEmbedding =>
    cases right with
    | anonymous =>
      exact absurd letters (show some 'r' ≠ some 'n' by decide)
    | authenticated =>
      exact absurd letters (show some 'r' ≠ some 'u' by decide)
    | trustedEmbedding =>
      have texts := congrArg String.toList same
      unfold debug at texts
      simp only [String.toList_append, String.toList_ofList, List.append_cancel_left_eq] at texts
      obtain ⟨subjects, _⟩ := quoted_append_inj printable texts
      rw [String.toList_inj.mp subjects]

namespace FeedService

variable {service : FeedService}

theorem length_cursorBytes (state : GraphState) (position clock : Nat) :
    (service.cursorBytes state position clock).length = 57 := by
  simp [cursorBytes]

theorem expires_le (service : FeedService) (clock : Nat) : service.expires clock ≤ u64Max :=
  Nat.min_le_right _ _

/-- The length of a debug text fits its field. -/
def Fits (service : FeedService) (principal : Principal) : Prop :=
  (asBytes (principal.debug service.printable)).length ≤ u64Max

/-- What is signed determines the fields, the principal and the scope. -/
theorem macInput_injective {principal principal' : Principal} {scope scope' : String}
    {bytes bytes' : List UInt8} (fits : service.Fits principal)
    (fits' : service.Fits principal') (lengths : bytes.length = bytes'.length)
    (same : service.macInput principal scope bytes = service.macInput principal' scope' bytes') :
    bytes = bytes' ∧ principal = principal' ∧ scope = scope' := by
  simp only [macInput, List.append_assoc, List.append_cancel_left_eq] at same
  obtain ⟨fields, rest⟩ := List.append_inj same lengths
  obtain ⟨sizes, rest⟩ := List.append_inj rest (by simp)
  have size := beBytes_injective (by unfold Fits u64Max at fits; omega)
    (by unfold Fits u64Max at fits'; omega) sizes
  obtain ⟨names, scopes⟩ := List.append_inj rest size
  exact ⟨fields, Principal.debug_injective _ (asBytes_injective names), asBytes_injective scopes⟩

/-! ## Decoding a minted cursor -/

theorem field_append (front middle back : List UInt8) {offset width : Nat}
    (starts : front.length = offset) (ends : middle.length = width) :
    field (front ++ (middle ++ back)) offset width = middle := by
  subst starts ends
  rw [field, List.drop_left, List.take_left]

/-- The fields of a signed cursor. -/
theorem fields_cursorBytes (service : FeedService) (state : GraphState) (position clock : Nat)
    (signature : List UInt8) :
    let bytes := service.cursorBytes state position clock ++ signature
    field bytes 1 16 = beBytes 16 service.dataset.toNat ∧
      field bytes 17 16 = beBytes 16 state.incarnation.toNat ∧
      field bytes 33 8 = beBytes 8 state.catalogGeneration ∧
      field bytes 41 8 = beBytes 8 position ∧
      field bytes 49 8 = beBytes 8 (service.expires clock) := by
  intro bytes
  let first := [1] ++ beBytes 16 service.dataset.toNat
  let second := first ++ beBytes 16 state.incarnation.toNat
  let third := second ++ beBytes 8 state.catalogGeneration
  let fourth := third ++ beBytes 8 position
  have at49 : bytes = fourth ++ (beBytes 8 (service.expires clock) ++ signature) := by
    simp [bytes, cursorBytes, fourth, third, second, first]
  have at41 : bytes = third ++ (beBytes 8 position ++ _) := at49.trans (List.append_assoc _ _ _)
  have at33 : bytes = second ++ (beBytes 8 state.catalogGeneration ++ _) :=
    at41.trans (List.append_assoc _ _ _)
  have at17 : bytes = first ++ (beBytes 16 state.incarnation.toNat ++ _) :=
    at33.trans (List.append_assoc _ _ _)
  have at1 : bytes = [1] ++ (beBytes 16 service.dataset.toNat ++ _) :=
    at17.trans (List.append_assoc _ _ _)
  refine ⟨?_, ?_, ?_, ?_, ?_⟩
  · rw [at1]
    exact field_append _ _ _ rfl (by simp)
  · rw [at17]
    exact field_append _ _ _ (by simp [first]) (by simp)
  · rw [at33]
    exact field_append _ _ _ (by simp [second, first]) (by simp)
  · rw [at41]
    exact field_append _ _ _ (by simp [third, second, first]) (by simp)
  · rw [at49]
    exact field_append _ _ _ (by simp [fourth, third, second, first]) (by simp)

theorem beBytes_toNat_inj (left right : BitVec 128) :
    beBytes 16 left.toNat = beBytes 16 right.toNat ↔ left = right := by
  refine ⟨fun same => ?_, fun same => same ▸ rfl⟩
  exact BitVec.eq_of_toNat_eq (beBytes_injective left.isLt right.isLt same)

theorem beValue_beBytes_of_le {number : Nat} (fits : number ≤ u64Max) :
    beValue (beBytes 8 number) = number :=
  beValue_beBytes (by unfold u64Max at fits; omega)

/-- The reader and the graph that a cursor is minted for or presented to. -/
structure Reader where
  service : FeedService
  principal : Principal
  scope : String
  state : GraphState

namespace Reader

/-- A cursor minted for a position. -/
def mint (reader : Reader) (position clock : Nat) : String :=
  reader.service.encodeCursor reader.principal reader.scope reader.state position clock

/-- The position of a presented cursor. -/
def present (reader : Reader) (clock : Nat) (cursor : String) : Except ReadError Nat :=
  reader.service.decodeCursor reader.principal reader.scope reader.state clock cursor

/-- The signature of a cursor. -/
def sign (reader : Reader) (bytes : List UInt8) : List UInt8 :=
  reader.service.mac reader.principal reader.scope bytes

variable {position : Nat}

/-- A minted cursor is accepted if its signature is the presenter's, if it names
the presenter's dataset, incarnation and catalog, and before it expires. -/
theorem present_mint (reader other : Reader) (positionFits : position ≤ u64Max)
    (clock clock' : Nat) :
    let bytes := reader.service.cursorBytes reader.state position clock
    other.present clock' (reader.mint position clock) =
      if other.sign bytes ≠ reader.sign bytes then .error .staleCursor
      else if reader.service.dataset ≠ other.service.dataset ∨
          reader.state.incarnation ≠ other.state.incarnation ∨
          beValue (beBytes 8 reader.state.catalogGeneration) ≠ other.state.catalogGeneration ∨
          reader.service.expires clock ≤ clock' then
        .error .staleCursor
      else .ok position := by
  intro bytes
  have signed : (reader.sign bytes).length = 32 := reader.service.length_hmac _
  have size : bytes.length = 57 := length_cursorBytes _ _ _
  have whole : (bytes ++ reader.sign bytes).length = 89 := by
    rw [List.length_append, size, signed]
  have minted : reader.mint position clock =
      String.ofList (base64Encode (bytes ++ reader.sign bytes)) := rfl
  have short : ¬(reader.mint position clock).utf8ByteSize > 128 := by
    rw [minted, utf8ByteSize_base64Encode, whole]
    decide
  have version : (bytes ++ reader.sign bytes).head? = some 1 := rfl
  have signedPart : (bytes ++ reader.sign bytes).take 57 = bytes := List.take_left' size
  have signature : (bytes ++ reader.sign bytes).drop 57 = reader.sign bytes :=
    List.drop_left' size
  obtain ⟨dataset, incarnation, generation, place, expiry⟩ :=
    fields_cursorBytes reader.service reader.state position clock (reader.sign bytes)
  rw [present, decodeCursor, if_neg short, minted, String.toList_ofList, base64Decode_encode]
  dsimp only
  rw [if_neg (by simp [whole, version]), signedPart, signature, dataset,
    incarnation, generation, place, expiry, beValue_beBytes_of_le positionFits,
    beValue_beBytes_of_le (expires_le reader.service clock)]
  simp only [ne_eq, beBytes_toNat_inj]
  rfl

/-- No reader gets another position out of a cursor. -/
theorem eq_of_present_mint (reader other : Reader) {start clock clock' : Nat}
    (positionFits : position ≤ u64Max)
    (accepted : other.present clock' (reader.mint position clock) = .ok start) :
    start = position := by
  rw [present_mint reader other positionFits] at accepted
  split at accepted
  · cases accepted
  · split at accepted
    · cases accepted
    · exact (Except.ok.inj accepted).symm

/-- The reader that minted a cursor gets its position back until it expires. -/
theorem present_mint_self (reader : Reader) (positionFits : position ≤ u64Max)
    (generationFits : reader.state.catalogGeneration ≤ u64Max) (clock clock' : Nat) :
    reader.present clock' (reader.mint position clock) =
      if reader.service.expires clock ≤ clock' then .error .staleCursor
      else .ok position := by
  rw [present_mint reader reader positionFits, beValue_beBytes_of_le generationFits]
  simp

/-- A cursor of another dataset, incarnation or catalog is rejected. -/
theorem present_mint_elsewhere (reader other : Reader) (positionFits : position ≤ u64Max)
    (generationFits : reader.state.catalogGeneration ≤ u64Max)
    (elsewhere : reader.service.dataset ≠ other.service.dataset ∨
      reader.state.incarnation ≠ other.state.incarnation ∨
      reader.state.catalogGeneration ≠ other.state.catalogGeneration)
    (clock clock' : Nat) :
    other.present clock' (reader.mint position clock) = .error .staleCursor := by
  rw [present_mint reader other positionFits, beValue_beBytes_of_le generationFits]
  split_ifs with unsigned stale
  · rfl
  · rfl
  · exact absurd (elsewhere.imp_right (.imp_right .inl)) stale

/-- A cursor of another principal or scope is rejected, unless the signed texts
of the two readers collide. -/
theorem present_mint_stranger (reader other : Reader) (positionFits : position ≤ u64Max)
    (clock clock' : Nat) (service : other.service = reader.service)
    (fits : reader.service.Fits reader.principal) (fits' : reader.service.Fits other.principal)
    (stranger : reader.principal ≠ other.principal ∨ reader.scope ≠ other.scope)
    (collisionFree :
      let bytes := reader.service.cursorBytes reader.state position clock
      let message := reader.service.macInput reader.principal reader.scope bytes
      let message' := reader.service.macInput other.principal other.scope bytes
      reader.service.hmac message' = reader.service.hmac message → message' = message) :
    other.present clock' (reader.mint position clock) = .error .staleCursor := by
  rw [present_mint reader other positionFits]
  refine if_pos fun same => ?_
  rw [sign, service] at same
  obtain ⟨_, principals, scopes⟩ := macInput_injective fits' fits rfl (collisionFree same)
  rcases stranger with principal | scope
  · exact principal principals.symm
  · exact scope scopes.symm

end Reader
end FeedService
end App
end Haystack
