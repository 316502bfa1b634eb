import Haystack.Auth.ScramAgreement
import Haystack.Server.AuthSteps

/-!
# Safety of bearer sessions

A run keeps the record of how each entry of the tables came about.  A grant is the
end of one chain of a HELLO, a client-first and a client-final message.
-/

namespace Haystack
namespace Server
namespace AuthManager

open Std (ExtTreeMap)
open Haystack.Auth

/-! ## How entries come about -/

/-- A HELLO was answered with a handshake token. -/
def Opens (turns : List Turn) (i : Nat) (token : String) (username : List Char)
    (created : Nat) : Prop :=
  ∃ turn, turns[i]? = some turn ∧ turn.request = .hello username token ∧
    turn.answer = .discovery token ∧ turn.before.now = created

/-- A client-first message presented the token of a HELLO and was answered with
another one. -/
def Challenges (manager : AuthManager) (turns : List Turn) (i j : Nat) (token : String)
    (handshake : ScramHandshake)
    (created : Nat) : Prop :=
  ∃ presented turn data nonce answered,
    i < j ∧ Opens turns i presented handshake.username created ∧
    turns[j]? = some turn ∧
    turn.request = .scram (some presented) data token nonce ∧
    turn.answer = .challenge token answered ∧
    serverFirstMessage manager.primitives handshake.username data
      (manager.credentials handshake.username) nonce = .ok (handshake, answered)

/-- A client-final message presented the token of a challenge with a valid proof
of a registered user, in time, and was answered with a bearer token. -/
def Authenticates (manager : AuthManager) (turns : List Turn) (i j k : Nat) (bearer : String)
    (user : AuthUser)
    (issued : Nat) : Prop :=
  ∃ token handshake created record turn data nonce signature,
    j < k ∧ Challenges manager turns i j token handshake created ∧
    turns[k]? = some turn ∧
    turn.request = .scram (some token) data bearer nonce ∧
    turn.answer = .authenticated bearer (serverFinalData signature) ∧
    serverVerifyFinal manager.primitives handshake data = .ok signature ∧
    manager.user user.username = some record ∧
    manager.credentials user.username = record.credentials ∧
    user = ⟨handshake.username, record.permissions⟩ ∧
    turn.before.now = issued ∧
    issued < created + manager.limits.handshakeTtl

variable {token : String} {created : Nat} {username : List Char} {handshake : ScramHandshake}

section
variable {manager : AuthManager} {turns : List Turn} {i j k : Nat}

theorem getElem?_append_of_eq_some
    {turn : Turn} (found : turns[i]? = some turn) (more : List Turn) :
    (turns ++ more)[i]? = some turn := by
  rw [List.getElem?_append_left (List.getElem?_eq_some_iff.mp found).1, found]

theorem Opens.append (opens : Opens turns i token username created) (more : List Turn) :
    Opens (turns ++ more) i token username created := by
  obtain ⟨turn, found, facts⟩ := opens
  exact ⟨turn, getElem?_append_of_eq_some found more, facts⟩

theorem Challenges.append (challenges : Challenges manager turns i j token handshake created)
    (more : List Turn) : Challenges manager (turns ++ more) i j token handshake created := by
  obtain ⟨presented, turn, data, nonce, answered, before, opens, found, facts⟩ := challenges
  exact ⟨presented, turn, data, nonce, answered, before, opens.append more,
    getElem?_append_of_eq_some found more, facts⟩

theorem Authenticates.append {bearer : String} {user : AuthUser} {issued : Nat}
    (authenticates : Authenticates manager turns i j k bearer user issued) (more : List Turn) :
    Authenticates manager (turns ++ more) i j k bearer user issued := by
  obtain ⟨token, handshake, created, record, turn, data, nonce, signature, before,
    challenges, found, facts⟩ := authenticates
  exact ⟨token, handshake, created, record, turn, data, nonce, signature, before,
    challenges.append more, getElem?_append_of_eq_some found more, facts⟩

end

/-! ## Runs -/

/-- Every entry of the tables came about in the run, and nothing that was spent
or taken back is left. -/
structure Recorded (manager : AuthManager) (turns : List Turn) (s : AuthState) : Prop where
  drawnHandshake : ∀ token entry, s.handshakes[token]? = some entry → token ∈ s.drawn
  drawnToken : ∀ token record, s.tokens[token]? = some record → token ∈ s.drawn
  first : ∀ token username created, s.handshakes[token]? = some (.awaitFirst username, created) →
    ∃ i, Opens turns i token username created
  final : ∀ token handshake created,
    s.handshakes[token]? = some (.awaitFinal handshake, created) →
    ∃ i j, Challenges manager turns i j token handshake created
  bearer : ∀ token record, s.tokens[token]? = some record →
    ∃ i j k issued, Authenticates manager turns i j k token record.user issued ∧
      s.sessions[record.session]?.map (·.expires) = some (issued + manager.tokenTtl) ∧
      ∀ (l : Nat) turn, k < l → turns[l]? = some turn → turn.request ≠ .revoke token
  spent : ∀ turn ∈ turns, ∀ token, manager.Consumes turn.before turn.request token →
    token ∈ s.drawn ∧ s.handshakes[token]? = none
  issued : ∀ turn ∈ turns, ∀ token data, turn.answer = .authenticated token data → token ∈ s.drawn
  handshakesBounded : s.handshakes.size ≤ manager.limits.maxHandshakes
  tokensBounded : s.tokens.size ≤ manager.limits.maxTokens
  monotone : ∀ turn ∈ turns, turn.before.now ≤ s.now

theorem username_of_serverFirstMessage {primitives : Primitives} {data nonce answered : List Char}
    {credentials : ScramCredentials}
    (started : serverFirstMessage primitives username data credentials nonce =
      .ok (handshake, answered)) :
    handshake.username = username := by
  obtain ⟨_, _, _, named, _, rfl, _⟩ := serverFirstMessage_eq_ok_iff.mp started
  exact named

variable {turns : List Turn}

theorem Opens.lt_length {i : Nat} (opens : Opens turns i token username created) :
    i < turns.length := by
  obtain ⟨_, found, _⟩ := opens
  exact (List.getElem?_eq_some_iff.mp found).1

theorem Challenges.lt_length {manager : AuthManager} {i j : Nat}
    (challenges : Challenges manager turns i j token handshake created) : j < turns.length := by
  obtain ⟨_, _, _, _, _, _, _, found, _⟩ := challenges
  exact (List.getElem?_eq_some_iff.mp found).1

theorem Recorded.initial (manager : AuthManager) (now : Nat) :
    Recorded manager [] (.initial now) where
  drawnHandshake := by simp [AuthState.initial]
  drawnToken := by simp [AuthState.initial]
  first := by simp [AuthState.initial]
  final := by simp [AuthState.initial]
  bearer := by simp [AuthState.initial]
  spent := by simp
  issued := by simp
  handshakesBounded := by simp [AuthState.initial]
  tokensBounded := by simp [AuthState.initial]
  monotone := by simp

namespace Recorded

variable {manager : AuthManager} {turns : List Turn} {s s' : AuthState}
variable {request : AuthRequest} {answer : AuthAnswer}

variable (recorded : Recorded manager turns s)

include recorded

variable (served : Served manager s request s' answer)

include served

/-- The fields about handshakes survive one request. -/
theorem step_first (found : s'.handshakes[token]? = some (.awaitFirst username, created)) :
    ∃ i, Opens (turns ++ [⟨s, request, answer⟩]) i token username created := by
  obtain before | ⟨_, _, opened | challenged⟩ := served.handshake found
  · obtain ⟨i, opens⟩ := recorded.first token username created before
    exact ⟨i, opens.append _⟩
  · obtain ⟨_, requested, answered, same⟩ := opened
    cases same
    exact ⟨turns.length, ⟨s, request, answer⟩, List.getElem?_concat_length,
      requested, answered, rfl⟩
  · obtain ⟨_, _, _, _, _, _, _, _, _, _, _, same⟩ := challenged
    cases same

theorem step_final (found : s'.handshakes[token]? = some (.awaitFinal handshake, created)) :
    ∃ i j, Challenges manager (turns ++ [⟨s, request, answer⟩]) i j token handshake created := by
  obtain before | ⟨_, _, opened | challenged⟩ := served.handshake found
  · obtain ⟨i, j, challenges⟩ := recorded.final token handshake created before
    exact ⟨i, j, challenges.append _⟩
  · obtain ⟨_, _, _, same⟩ := opened
    cases same
  · obtain ⟨presented, username, _, data, nonce, _, answered, opening, requested,
      replied, started, same⟩ := challenged
    cases same
    obtain ⟨i, opens⟩ := recorded.first presented username created opening
    have named : handshake.username = username := username_of_serverFirstMessage started
    subst named
    exact ⟨i, turns.length, presented, ⟨s, request, answer⟩, data, nonce,
      answered, opens.lt_length, opens.append _, List.getElem?_concat_length,
      requested, replied, started⟩

theorem step_bearer {record : TokenRecord} (found : s'.tokens[token]? = some record) :
    ∃ i j k issued, Authenticates manager (turns ++ [⟨s, request, answer⟩]) i j k token
        record.user issued ∧
      s'.sessions[record.session]?.map (·.expires) = some (issued + manager.tokenTtl) ∧
      ∀ (l : Nat) turn, k < l → (turns ++ [⟨s, request, answer⟩])[l]? = some turn →
        turn.request ≠ .revoke token := by
  obtain ⟨before, kept⟩ | ⟨_, _, issued⟩ := served.bearer found
  · obtain ⟨i, j, k, issued, authenticates, expires, unrevoked⟩ :=
      recorded.bearer token record before
    refine ⟨i, j, k, issued, authenticates.append _, served.expires expires, ?_⟩
    intro l turn later at_l
    rw [List.getElem?_append] at at_l
    split at at_l
    · exact unrevoked l turn later at_l
    · cases List.mem_singleton.mp (List.mem_of_getElem? at_l)
      exact kept
  · obtain ⟨presented, handshake, created, registered, data, nonce, signature,
      session, challenge, inTime, requested, replied, proved, known, user, place,
      expires⟩ := issued
    obtain ⟨i, j, challenges⟩ := recorded.final presented handshake created challenge
    refine ⟨i, j, turns.length, s.now, ⟨presented, handshake, created, registered,
      ⟨s, request, answer⟩, data, nonce, signature, challenges.lt_length,
      challenges.append _, List.getElem?_concat_length, requested, replied, proved,
      ?_, ?_, user, rfl, by omega⟩, ?_, ?_⟩
    · rw [user]
      exact known
    · rw [user]
      simp [credentials, known]
    · rw [place, Option.map_some, expires]
    · intro l turn later at_l
      have inside := (List.getElem?_eq_some_iff.mp at_l).1
      rw [List.length_append, List.length_singleton] at inside
      omega

/-- One request keeps the record. -/
theorem step :
    Recorded manager (turns ++ [⟨s, request, answer⟩]) s' where
  drawnHandshake := by
    intro token entry found
    obtain before | ⟨_, drawn, _⟩ := served.handshake found
    · exact served.drawn_subset (recorded.drawnHandshake token entry before)
    · exact drawn
  drawnToken := by
    intro token record found
    obtain ⟨before, _⟩ | ⟨_, drawn, _⟩ := served.bearer found
    · exact served.drawn_subset (recorded.drawnToken token record before)
    · exact drawn
  first := fun _ _ _ found => recorded.step_first served found
  final := fun _ _ _ found => recorded.step_final served found
  bearer := fun _ _ found => recorded.step_bearer served found
  spent := by
    intro turn member token consumes
    rw [List.mem_append, List.mem_singleton] at member
    obtain member | rfl := member
    · obtain ⟨drawn, gone⟩ := recorded.spent turn member token consumes
      refine ⟨served.drawn_subset drawn, ?_⟩
      cases found : s'.handshakes[token]? with
      | none => rfl
      | some =>
        obtain before | ⟨fresh, _⟩ := served.handshake found
        · rw [gone] at before
          cases before
        · exact absurd drawn fresh
    · obtain ⟨drawn, gone⟩ := served.consumes recorded.drawnHandshake consumes
      exact ⟨served.drawn_subset drawn, gone⟩
  issued := by
    intro turn member token data answered
    rw [List.mem_append, List.mem_singleton] at member
    obtain member | rfl := member
    · exact served.drawn_subset (recorded.issued turn member token data answered)
    · cases answered
      cases served with
      | ignored _ quiet | swept _ quiet => cases quiet
      | authenticated => exact List.mem_cons_self
  handshakesBounded := (served.bounded recorded.handshakesBounded recorded.tokensBounded).1
  tokensBounded := (served.bounded recorded.handshakesBounded recorded.tokensBounded).2
  monotone := by
    intro turn member
    rw [List.mem_append, List.mem_singleton] at member
    obtain member | rfl := member
    · exact (recorded.monotone turn member).trans served.now_le
    · exact served.now_le

end Recorded

/-- Every turn met a state with a record of the turns before it. -/
theorem run_recorded (manager : AuthManager) (now : Nat) (requests : List AuthRequest) :
    let result := manager.run now requests
    Recorded manager result.1 result.2 ∧ ∀ (k : Nat) turn, result.1[k]? = some turn →
        Recorded manager (result.1.take k) turn.before ∧
        turn.answer = (manager.serve turn.before turn.request).2 := by
  induction requests using List.reverseRecOn with
  | nil => exact ⟨.initial manager now, nofun⟩
  | append_singleton requests request ih =>
    obtain ⟨recorded, turns⟩ := ih
    rw [run_concat]
    refine ⟨recorded.step (serve_served manager _ request), ?_⟩
    intro k turn found
    simp only [take, List.getElem?_append] at found
    split at found
    · rename_i inside
      simp only [take, List.take_append_of_le_length (Nat.le_of_lt inside)]
      exact turns k turn found
    · have last : k = (manager.run now requests).1.length := by
        have := (List.getElem?_eq_some_iff.mp found).1
        rw [List.length_singleton] at this
        omega
      cases List.mem_singleton.mp (List.mem_of_getElem? found)
      refine ⟨?_, rfl⟩
      simp only [take]
      rw [last, List.take_left]
      exact recorded

/-! ## Chains -/

section
variable {manager : AuthManager} {now : Nat} {requests : List AuthRequest} {data : List Char}

/-- A granted answer consumes the token that was presented. -/
theorem consumes_of_granted
    {s : AuthState} {presented : String} {nonce : List Char} {draw : String} {answer : AuthAnswer}
    (answered : answer = (manager.serve s (.scram (some presented) data draw nonce)).2)
    (granted : isQuiet answer = false) :
    manager.Consumes s (.scram (some presented) data draw nonce) presented := by
  have served := serve_served manager s (.scram (some presented) data draw nonce)
  rw [← answered] at served
  generalize (manager.serve s (.scram (some presented) data draw nonce)).1 = after at served
  have member {entry : Phase × Nat}
      (found : (manager.sweep s).handshakes[presented]? = some entry) :
      presented ∈ (manager.sweep s).handshakes := by
    rw [ExtTreeMap.mem_iff_isSome_getElem?, found]
    rfl
  cases served with
  | ignored _ quiet | swept _ quiet => simp [granted] at quiet
  | spent => cases granted
  | challenged fresh found | authenticated fresh found =>
    exact ⟨rfl, fresh, member found⟩

variable {token : String}

/-- A bearer that is granted is new, and is in the table. -/
theorem token_of_authenticated {s s' : AuthState} {request : AuthRequest}
    (served : Served manager s request s' (.authenticated token data)) :
    token ∉ s.drawn ∧ ∃ record, s'.tokens[token]? = some record := by
  cases served with
  | ignored _ quiet | swept _ quiet => cases quiet
  | authenticated fresh => exact ⟨fresh, _, ExtTreeMap.getElem?_insert_self⟩

variable {k : Nat} {l : Nat} {turn : Turn}

theorem mem_take_of_lt (found : turns[k]? = some turn) (before : k < l) :
    turn ∈ turns.take l := by
  apply List.mem_of_getElem? (i := k)
  rw [List.getElem?_take_of_lt before, found]

/-- No two turns of a run consume the same handshake token. -/
theorem consumes_unique {earlier later : Turn}
    (at_k : (manager.run now requests).1[k]? = some earlier)
    (at_l : (manager.run now requests).1[l]? = some later)
    (consumesEarlier : manager.Consumes earlier.before earlier.request token)
    (consumesLater : manager.Consumes later.before later.request token) : k = l := by
  wlog ordered : k ≤ l generalizing k l earlier later
  · exact (this at_l at_k consumesLater consumesEarlier (Nat.le_of_not_le ordered)).symm
  by_contra different
  obtain ⟨recorded, _⟩ := (run_recorded manager now requests).2 l later at_l
  obtain ⟨_, gone⟩ := recorded.spent earlier
    (mem_take_of_lt at_k (lt_of_le_of_ne ordered different)) token consumesEarlier
  obtain ⟨_, request, _⟩ := later
  cases request with
  | scram =>
    obtain ⟨_, found⟩ := Option.isSome_iff_exists.mp
      (ExtTreeMap.mem_iff_isSome_getElem?.mp consumesLater.2.2)
    rw [(sweep_handshake found).1] at gone
    cases gone
  | _ => exact consumesLater.elim

/-- No two turns of a run grant the same bearer. -/
theorem authenticated_unique {first second : Turn} {data' : List Char}
    (at_k : (manager.run now requests).1[k]? = some first)
    (at_l : (manager.run now requests).1[l]? = some second)
    (grantedFirst : first.answer = .authenticated token data)
    (grantedSecond : second.answer = .authenticated token data') : k = l := by
  wlog ordered : k ≤ l generalizing k l first second data data'
  · exact (this at_l at_k grantedSecond grantedFirst (Nat.le_of_not_le ordered)).symm
  by_contra different
  obtain ⟨recorded, answered⟩ := (run_recorded manager now requests).2 l second at_l
  have drawn := recorded.issued first
    (mem_take_of_lt at_k (lt_of_le_of_ne ordered different)) token _ grantedFirst
  have served := serve_served manager second.before second.request
  rw [← answered, grantedSecond] at served
  exact (token_of_authenticated served).1 drawn

/-- A grant is the end of a chain. -/
theorem authenticates_of_granted (at_k : (manager.run now requests).1[k]? = some turn)
    (granted : turn.answer = .authenticated token data) :
    ∃ i j user, Authenticates manager (manager.run now requests).1 i j k token
      user turn.before.now := by
  obtain ⟨recorded, answered⟩ := (run_recorded manager now requests).2 k turn at_k
  have served := serve_served manager turn.before turn.request
  rw [← answered] at served
  have after := recorded.step served
  rw [granted] at served
  obtain ⟨_, record, found⟩ := token_of_authenticated served
  obtain ⟨i, j, k', _, authenticates, _⟩ := after.bearer token record found
  have whole : (manager.run now requests).1.take k ++ [turn] ++
      (manager.run now requests).1.drop (k + 1) = (manager.run now requests).1 := by
    have next : (manager.run now requests).1.take (k + 1) =
        (manager.run now requests).1.take k ++ [turn] := by
      rw [List.take_add_one, at_k, Option.toList_some]
    rw [← next, List.take_append_drop]
  have grown := authenticates.append ((manager.run now requests).1.drop (k + 1))
  rw [whole] at grown
  obtain ⟨_, _, _, _, _, _, _, _, _, _, at_k', _, granted', _, _, _, _, time, _⟩ := id grown
  cases authenticated_unique at_k at_k' granted granted'
  cases at_k.symm.trans at_k'
  exact ⟨i, j, record.user, time ▸ grown⟩

/-- One HELLO leads to at most one grant. -/
theorem authenticates_unique {i j j' k' : Nat} {bearer bearer' : String} {user user' : AuthUser}
    {issued issued' : Nat}
    (left : Authenticates manager (manager.run now requests).1 i j k bearer user issued)
    (right : Authenticates manager (manager.run now requests).1 i j' k' bearer' user' issued') :
    k = k' := by
  have answers := (run_recorded manager now requests).2
  obtain ⟨token, _, _, _, turn, _, _, _, _, challenges, at_k, asked, granted, _⟩ := left
  obtain ⟨token', handshake', _, _, turn', _, _, _, _, challenges', at_k', asked',
    granted', _⟩ := right
  obtain ⟨_, second, _, _, _, _, opens, at_j, sent, replied, _⟩ := challenges
  obtain ⟨_, second', _, _, _, _, opens', at_j', sent', replied', _⟩ := challenges'
  obtain ⟨_, at_i, _, opened, _⟩ := opens
  obtain ⟨_, at_i', _, opened', _⟩ := opens'
  -- the same HELLO gave both the same token, which only one message consumed
  cases at_i.symm.trans at_i'
  cases opened.symm.trans opened'
  have consumes := consumes_of_granted (sent ▸ (answers j second at_j).2) (by rw [replied]; rfl)
  have consumes' := consumes_of_granted
    (sent' ▸ (answers j' second' at_j').2) (by rw [replied']; rfl)
  cases consumes_unique at_j at_j' (sent ▸ consumes) (sent' ▸ consumes')
  cases at_j.symm.trans at_j'
  cases replied.symm.trans replied'
  have spends := consumes_of_granted (asked ▸ (answers k turn at_k).2) (by rw [granted]; rfl)
  have spends' := consumes_of_granted
    (asked' ▸ (answers k' turn' at_k').2) (by rw [granted']; rfl)
  exact consumes_unique at_k at_k' (asked ▸ spends) (asked' ▸ spends')

/-- A bearer validates only after its grant, before its end and while nobody has
taken it back. -/
theorem valid_of_validated {user : AuthUser} (at_l : (manager.run now requests).1[l]? = some turn)
    (asked : turn.request = .validate token) (replied : turn.answer = .user (some user)) :
    ∃ i j k issued, Authenticates manager (manager.run now requests).1 i j k token user issued ∧
      k < l ∧ turn.before.now < issued + manager.tokenTtl ∧
      ∀ (m : Nat) other, k < m → m < l → (manager.run now requests).1[m]? = some other →
        other.request ≠ .revoke token := by
  obtain ⟨recorded, answered⟩ := (run_recorded manager now requests).2 l turn at_l
  rw [asked, replied] at answered
  obtain ⟨record, found, named⟩ := Option.map_eq_some_iff.mp (AuthAnswer.user.inj answered).symm
  obtain ⟨known, active⟩ := (sweep_token manager).mp found
  obtain ⟨i, j, k, issued, authenticates, expires, unrevoked⟩ :=
    recorded.bearer token record known
  obtain ⟨session, place, _⟩ := Option.map_eq_some_iff.mp expires
  have inTime : turn.before.now < session.expires := by
    simp only [isActive, place, Option.any_some, Bool.and_eq_true, decide_eq_true_eq] at active
    exact active.2
  have grown := authenticates.append ((manager.run now requests).1.drop l)
  rw [List.take_append_drop, named] at grown
  have before : k < l := by
    obtain ⟨_, _, _, _, _, _, _, _, _, _, at_k, _⟩ := authenticates
    have inside := (List.getElem?_eq_some_iff.mp at_k).1
    rw [List.length_take] at inside
    omega
  refine ⟨i, j, k, issued, grown, before, by omega, ?_⟩
  intro m other afterGrant beforeCheck at_m
  apply unrevoked m other afterGrant
  rw [List.getElem?_take_of_lt beforeCheck, at_m]

end

/-- Bearer sessions are safe in every run. -/
theorem bearer_sessions_safe (manager : AuthManager) (now : Nat) (requests : List AuthRequest) :
    let turns := (manager.run now requests).1
    let final := (manager.run now requests).2
    (∀ (k : Nat) turn bearer data, turns[k]? = some turn →
      turn.answer = .authenticated bearer data →
      ∃ i j user, Authenticates manager turns i j k bearer user turn.before.now) ∧
    (∀ (k l : Nat) left right token, turns[k]? = some left → turns[l]? = some right →
      manager.Consumes left.before left.request token →
      manager.Consumes right.before right.request token → k = l) ∧
    (∀ i j j' k k' bearer bearer' user user' issued issued',
      Authenticates manager turns i j k bearer user issued →
      Authenticates manager turns i j' k' bearer' user' issued' → k = k') ∧
    (∀ s ∈ turns.map (·.before) ++ [final], s.handshakes.size ≤ manager.limits.maxHandshakes ∧
      s.tokens.size ≤ manager.limits.maxTokens) ∧
    (∀ (l : Nat) turn token user, turns[l]? = some turn →
      turn.request = .validate token → turn.answer = .user (some user) →
      ∀ (k : Nat) grant data, turns[k]? = some grant → grant.answer = .authenticated token data →
        k < l ∧ turn.before.now < grant.before.now + manager.tokenTtl ∧
        ∀ (m : Nat) other, k < m → m < l → turns[m]? = some other →
          other.request ≠ .revoke token) ∧
    (∀ (l : Nat) turn token user, turns[l]? = some turn →
      turn.request = .validate token → turn.answer = .user (some user) →
      ∃ i j k issued, k < l ∧ Authenticates manager turns i j k token user issued) ∧
    ∀ turn ∈ turns, ∀ (token : String) (record : TokenRecord),
      let after := (manager.serve turn.before turn.request).1
      turn.before.tokens[token]? = some record → after.tokens[token]? = none →
      after.sessions[record.session]?.map (·.closed) = some true := by
  obtain ⟨recorded, met⟩ := run_recorded manager now requests
  refine ⟨fun k turn bearer data at_k granted =>
      authenticates_of_granted at_k granted,
    fun k l left right token at_k at_l consumes consumes' =>
      consumes_unique at_k at_l consumes consumes',
    fun _ _ _ _ _ _ _ _ _ _ _ left right => authenticates_unique left right,
    ?_, ?_, ?_, ?_⟩
  · intro s member
    rw [List.mem_append, List.mem_map, List.mem_singleton] at member
    obtain ⟨turn, member, rfl⟩ | rfl := member
    · obtain ⟨k, at_k⟩ := List.mem_iff_getElem?.mp member
      obtain ⟨before, _⟩ := met k turn at_k
      exact ⟨before.handshakesBounded, before.tokensBounded⟩
    · exact ⟨recorded.handshakesBounded, recorded.tokensBounded⟩
  · intro l turn token user at_l asked replied k grant data at_k granted
    obtain ⟨_, _, k', issued, authenticates, before, inTime, unrevoked⟩ :=
      valid_of_validated at_l asked replied
    obtain ⟨_, _, _, _, grant', _, _, _, _, _, at_k', _, granted', _, _, _, _,
      time, _⟩ := authenticates
    cases authenticated_unique at_k at_k' granted granted'
    cases at_k.symm.trans at_k'
    exact ⟨before, time ▸ inTime, unrevoked⟩
  · intro l turn token user at_l asked replied
    obtain ⟨i, j, k, issued, authenticates, before, _⟩ := valid_of_validated at_l asked replied
    exact ⟨i, j, k, issued, before, authenticates⟩
  · intro turn member token record after found dropped
    obtain ⟨k, at_k⟩ := List.mem_iff_getElem?.mp member
    obtain ⟨before, _⟩ := met k turn at_k
    obtain ⟨_, _, _, _, _, expires, _⟩ := before.bearer token record found
    exact (serve_served manager turn.before turn.request).closes expires found dropped

end AuthManager
end Server
end Haystack
