import Haystack.Server.AuthSteps
import Haystack.Server.Users

/-!
# Unregistered names

Two managers whose users differ in one name.  As long as no proof for this name is
checked, their states differ only in the handshakes that it was challenged with.
-/

namespace Haystack
namespace Server

open Std (ExtTreeMap)
open Collections Haystack.Auth

/-! ## What a client sees -/

/-- The length of the salt and the number of iterations of a challenge. -/
def challengeParameters (data : List Char) : Option (Nat × Nat) :=
  match parseServerFirst [] data with
  | .ok server => some (server.salt.length, server.iterations)
  | .error _ => none

/-- Two answers that differ at most in the salts of their challenges. -/
def SameShape : AuthAnswer → AuthAnswer → Prop
  | .challenge token data, .challenge token' data' =>
    token = token' ∧ data.length = data'.length ∧
      challengeParameters data = challengeParameters data'
  | answer, answer' => answer = answer'

theorem SameShape.refl (answer : AuthAnswer) : SameShape answer answer := by
  cases answer with
  | challenge => exact ⟨rfl, rfl, rfl⟩
  | _ => rfl

variable {nonce : List Char}

variable {token : String}

inductive EntryAlike (username : List Char) : Phase × Nat → Phase × Nat → Prop
  | same (entry : Phase × Nat) : EntryAlike username entry entry
  | challenged {handshake handshake' : ScramHandshake} (created : Nat)
      (named : handshake.username = username)
      (named' : handshake'.username = username) :
      EntryAlike username (.awaitFinal handshake, created) (.awaitFinal handshake', created)

variable {username : List Char}

theorem EntryAlike.created_eq {left right : Phase × Nat}
    (alike : EntryAlike username left right) : left.2 = right.2 := by
  cases alike <;> rfl

def HandshakesAlike (username : List Char)
    (left right : ExtTreeMap String (Phase × Nat)) : Prop :=
  ∀ token : String, Option.Rel (EntryAlike username) left[token]? right[token]?

/-- The states agree but for the handshakes of a name. -/
def Alike (username : List Char) (left right : AuthState) : Prop :=
  ∃ handshakes, HandshakesAlike username left.handshakes handshakes ∧
    right = { left with handshakes := handshakes }

/-- Answers of the same shape, in states that agree but for the handshakes of a name. -/
def AnsweredAlike (username : List Char) (left right : AuthState × AuthAnswer) : Prop :=
  Alike username left.1 right.1 ∧ SameShape left.2 right.2

theorem Alike.answered {left right : AuthState}
    (alike : Alike username left right) (answer : AuthAnswer) :
    AnsweredAlike username (left, answer) (right, answer) :=
  ⟨alike, .refl answer⟩

namespace HandshakesAlike

variable {username : List Char} {left right : ExtTreeMap String (Phase × Nat)}

variable (alike : HandshakesAlike username left right)

include alike

theorem mem_iff (token : String) : token ∈ left ↔ token ∈ right := by
  rw [ExtTreeMap.mem_iff_isSome_getElem?, ExtTreeMap.mem_iff_isSome_getElem?]
  have entry := alike token
  revert entry
  cases left[token]? <;> cases right[token]? <;> intro entry <;> cases entry
  · rfl
  · rfl

theorem insert (token : String) {entry entry' : Phase × Nat}
    (alikeEntry : EntryAlike username entry entry') :
    HandshakesAlike username (left.insert token entry) (right.insert token entry') := by
  intro other
  rw [ExtTreeMap.getElem?_insert, ExtTreeMap.getElem?_insert]
  split
  · exact .some alikeEntry
  · exact alike other

theorem erase (token : String) :
    HandshakesAlike username (left.erase token) (right.erase token) := by
  intro other
  rw [ExtTreeMap.getElem?_erase, ExtTreeMap.getElem?_erase]
  split
  · exact .none
  · exact alike other

/-- Entries are kept by the time when they were created. -/
theorem retain (keep : Nat → Bool) :
    HandshakesAlike username (Collections.retain (fun _ entry => keep entry.2) left)
      (Collections.retain (fun _ entry => keep entry.2) right) := by
  intro token
  rw [getElem?_retain, getElem?_retain]
  have entry := alike token
  revert entry
  cases left[token]? <;> cases right[token]? <;> intro entry <;> cases entry
  · exact .none
  · rename_i entry
    simp only [Option.filter, entry.created_eq]
    split
    · exact .some entry
    · exact .none

end HandshakesAlike

/-! ## Requests before a proof -/

namespace AuthManager

/-- One more user, with the parameters of a decoy. -/
structure Extends (records extended : ExtTreeMap String UserRecord)
    (username : List Char) : Prop where
  absent : records[String.ofList username]? = none
  others : ∀ other : String, other ≠ String.ofList username → extended[other]? = records[other]?
  present : ∃ record, extended[String.ofList username]? = some record ∧
    validateCredentials record.credentials = .ok () ∧
    record.credentials.salt.length = 16 ∧
    record.credentials.iterations = defaultIterations

variable {username : List Char}

section
variable {manager : AuthManager} {records extended : ExtTreeMap String UserRecord}

variable {other : List Char}

variable {s s' : AuthState}

variable {nonce : List Char}

variable {handshake : ScramHandshake}

variable {name : List Char}

variable {created : Nat}

end

end AuthManager
end Server
end Haystack
