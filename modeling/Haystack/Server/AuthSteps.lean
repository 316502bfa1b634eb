import Haystack.Server.AuthManager

/-!
# The requests of the authentication manager

What one request can do to the tables, said once, and what it keeps.
-/

namespace Haystack
namespace Server

open Std (ExtTreeMap)
open Collections Haystack.Auth

namespace AuthManager

/-! ## The tables -/

theorem getElem?_closeSessions (ended : List Nat) (sessions : List Session) (index : Nat) :
    (closeSessions ended sessions)[index]? = sessions[index]?.map fun session =>
      if index ∈ ended then { session with closed := true } else session :=
  List.getElem?_mapIdx

section
variable {manager : AuthManager} {s : AuthState} {token : String}

theorem sweep_handshake {entry : Phase × Nat}
    (found : (manager.sweep s).handshakes[token]? = some entry) :
    s.handshakes[token]? = some entry ∧ s.now - entry.2 < manager.limits.handshakeTtl := by
  simpa [sweep] using found

variable {record : TokenRecord}

theorem sweep_token (manager : AuthManager) : (manager.sweep s).tokens[token]? = some record ↔
      s.tokens[token]? = some record ∧ isActive s record = true := by
  simp [sweep]

theorem mem_of_mem_sweep_handshakes (member : token ∈ (manager.sweep s).handshakes) :
    token ∈ s.handshakes := by
  rw [ExtTreeMap.mem_iff_isSome_getElem?] at member ⊢
  obtain ⟨_, found⟩ := Option.isSome_iff_exists.mp member
  rw [(sweep_handshake found).1, Option.isSome_some]

theorem mem_of_mem_sweep_tokens (member : token ∈ (manager.sweep s).tokens) :
    token ∈ s.tokens := by
  rw [ExtTreeMap.mem_iff_isSome_getElem?] at member ⊢
  obtain ⟨_, found⟩ := Option.isSome_iff_exists.mp member
  rw [((sweep_token manager).mp found).1, Option.isSome_some]

variable {sessions : List Session} {index expires : Nat} {ended : List Nat}

variable (known : sessions[index]?.map (·.expires) = some expires)

include known

/-- Closing keeps the place and the end of a session. -/
theorem expires_closeSessions :
    (closeSessions ended sessions)[index]?.map (·.expires) = some expires := by
  rw [getElem?_closeSessions, Option.map_map, ← known]
  congr 1
  funext session
  split <;> rfl

theorem closed_closeSessions (isEnded : index ∈ ended) :
    (closeSessions ended sessions)[index]?.map (·.closed) = some true := by
  cases found : sessions[index]? with
  | none => simp [found] at known
  | some => simp [getElem?_closeSessions, found, isEnded]

omit known

/-- A token that the sweep drops has its session closed. -/
theorem sweep_closes (manager : AuthManager) {expires : Nat}
    (known : s.sessions[record.session]?.map (·.expires) = some expires)
    (found : s.tokens[token]? = some record) (dropped : (manager.sweep s).tokens[token]? = none) :
    (manager.sweep s).sessions[record.session]?.map (·.closed) = some true := by
  have idle : isActive s record = false := by
    simpa [sweep, found] using dropped
  apply closed_closeSessions known
  rw [List.mem_map]
  refine ⟨(token, record), ?_, rfl⟩
  rw [List.mem_filter]
  exact ⟨ExtTreeMap.mem_toList_iff_getElem?_eq_some.mpr found, by simp [idle]⟩

end

/-! ## One request -/

/-- The answers that grant nothing and take nothing back. -/
def isQuiet : AuthAnswer → Bool
  | .failed _ | .done | .revoked false => true
  | _ => false

/-- The request finds a handshake token and removes it. -/
def Consumes (manager : AuthManager) (s : AuthState) : AuthRequest → String → Prop
  | .scram presented _ draw _, token =>
    presented = some token ∧ draw ∉ s.drawn ∧ token ∈ (manager.sweep s).handshakes
  | _, _ => False

/-- What one request can do. -/
inductive Served (manager : AuthManager) (s : AuthState) :
    AuthRequest → AuthState → AuthAnswer → Prop
  | ignored {request : AuthRequest} {drawn : List String} {answer : AuthAnswer}
      (kept : s.drawn ⊆ drawn)
      (quiet : isQuiet answer = true)
      (unspent : ∀ token, ¬ manager.Consumes s request token)
      (absent : ∀ token, request = .revoke token → s.tokens[token]? = none) :
      Served manager s request { s with drawn := drawn } answer
  | swept {request : AuthRequest} {drawn : List String} {answer : AuthAnswer}
      (kept : s.drawn ⊆ drawn)
      (quiet : isQuiet answer = true)
      (unspent : ∀ token, ¬ manager.Consumes s request token)
      (other : ∀ token, request ≠ .revoke token) :
      Served manager s request { manager.sweep s with drawn := drawn } answer
  | opened {username : List Char} {draw : String} (fresh : draw ∉ s.drawn)
      (room : (manager.sweep s).handshakes.size < manager.limits.maxHandshakes) :
      Served manager s (.hello username draw) { manager.sweep s with
          handshakes := (manager.sweep s).handshakes.insert draw (.awaitFirst username, s.now)
          drawn := draw :: s.drawn }
        (.discovery draw)
  | challenged {token : String} {username : List Char} {created : Nat} {data : List Char}
      {draw : String}
      {nonce : List Char}
      {handshake : ScramHandshake}
      {answered : List Char}
      (fresh : draw ∉ s.drawn)
      (found : (manager.sweep s).handshakes[token]? = some (.awaitFirst username, created))
      (started : serverFirstMessage manager.primitives username data
        (manager.credentials username) nonce = .ok (handshake, answered)) :
      Served manager s (.scram (some token) data draw nonce) { manager.sweep s with
          handshakes := ((manager.sweep s).handshakes.erase token).insert draw
            (.awaitFinal handshake, created)
          drawn := draw :: s.drawn }
        (.challenge draw answered)
  | spent {token : String} {entry : Phase × Nat} {data : List Char} {draw : String}
      {nonce : List Char}
      {failure : AuthFailure}
      (fresh : draw ∉ s.drawn)
      (found : (manager.sweep s).handshakes[token]? = some entry) :
      Served manager s (.scram (some token) data draw nonce) { manager.sweep s with
          handshakes := (manager.sweep s).handshakes.erase token
          drawn := draw :: s.drawn }
        (.failed failure)
  | authenticated {token : String} {handshake : ScramHandshake} {created : Nat}
      {data : List Char}
      {draw : String}
      {nonce : List Char}
      {signature : List UInt8}
      {record : UserRecord}
      {session : Session}
      (fresh : draw ∉ s.drawn)
      (found : (manager.sweep s).handshakes[token]? = some (.awaitFinal handshake, created))
      (proved : serverVerifyFinal manager.primitives handshake data = .ok signature)
      (registered : manager.user handshake.username = some record)
      (room : (manager.sweep s).tokens.size < manager.limits.maxTokens)
      (opened : session.expires = s.now + manager.tokenTtl) :
      Served manager s (.scram (some token) data draw nonce) { manager.sweep s with
          handshakes := (manager.sweep s).handshakes.erase token
          tokens := (manager.sweep s).tokens.insert draw
            ⟨⟨handshake.username, record.permissions⟩, (manager.sweep s).sessions.length⟩
          sessions := (manager.sweep s).sessions ++ [session]
          drawn := draw :: s.drawn }
        (.authenticated draw (serverFinalData signature))
  | validated {token : String} : Served manager s (.validate token) (manager.sweep s)
        (.user ((manager.sweep s).tokens[token]?.map (·.user)))
  | revoked {token : String} {record : TokenRecord} (found : s.tokens[token]? = some record) :
      Served manager s (.revoke token) { s with
          tokens := s.tokens.erase token
          sessions := closeSessions [record.session] s.sessions }
        (.revoked true)
  | closed {session : Nat} : Served manager s (.closeSession session)
        { s with sessions := closeSessions [session] s.sessions } .done
  | ticked {elapsed : Nat} :
      Served manager s (.tick elapsed) { s with now := s.now + elapsed } .done

section
variable {manager : AuthManager} {s : AuthState}

theorem issueSession_eq_ok {now : Nat} {user : AuthUser} {session : Session}
    (issued : manager.issueSession now user = .ok session) :
    session.expires = now + manager.tokenTtl := by
  unfold issueSession at issued
  split at issued
  · exact absurd issued (by simp)
  · rename_i expires added
    split at issued
    · exact absurd issued (by simp)
    · split at issued
      · exact absurd issued (by simp)
      · cases issued
        exact (checkedAdd_eq_some_iff.mp added).1

variable {draw : String} {nonce : List Char} {data : List Char} (fresh : draw ∉ s.drawn)

include fresh

theorem served_final {token : String} {handshake : ScramHandshake} {created : Nat}
    (found : (manager.sweep s).handshakes[token]? = some (.awaitFinal handshake, created)) :
    let work := manager.receiveFinal { manager.sweep s with
        handshakes := (manager.sweep s).handshakes.erase token }
      handshake data draw
    Served manager s (.scram (some token) data draw nonce)
      { work.1 with drawn := draw :: s.drawn } work.2 := by
  intro work
  cases proved : serverVerifyFinal manager.primitives handshake data with
  | error => simpa [work, receiveFinal, proved] using .spent fresh found
  | ok =>
    cases registered : manager.user handshake.username with
    | none => simpa [work, receiveFinal, proved, registered] using .spent fresh found
    | some record =>
      by_cases full : manager.limits.maxTokens ≤ (manager.sweep s).tokens.size
      · simpa [work, receiveFinal, proved, registered, full] using .spent fresh found
      · cases issued : manager.issueSession (manager.sweep s).now
            ⟨handshake.username, record.permissions⟩ with
        | error =>
          simpa [work, receiveFinal, proved, registered, full, issued] using .spent fresh found
        | ok =>
          simpa [work, receiveFinal, proved, registered, full, issued] using
            .authenticated fresh found proved registered
              (Nat.lt_of_not_le full) (issueSession_eq_ok issued)

theorem served_scram {token : Option String} :
    let work := manager.scram s token data draw nonce
    Served manager s (.scram token data draw nonce)
      { work.1 with drawn := draw :: s.drawn } work.2 := by
  intro work
  cases token with
  | none =>
    exact .ignored (List.subset_cons_self _ _) rfl (by rintro _ ⟨⟨⟩, _⟩) nofun
  | some token =>
    cases found : (manager.sweep s).handshakes[token]? with
    | none =>
      have absent : ∀ other, ¬ manager.Consumes s
          (.scram (some token) data draw nonce) other := by
        rintro other ⟨same, _, member⟩
        cases same
        rw [ExtTreeMap.mem_iff_isSome_getElem?, found] at member
        simp at member
      simpa [work, scram, found] using .swept (List.subset_cons_self _ _) rfl absent nofun
    | some entry =>
      obtain ⟨phase, _⟩ := entry
      cases phase with
      | awaitFirst username =>
        cases started : serverFirstMessage manager.primitives username
            data (manager.credentials username) nonce with
        | error =>
          simpa [work, scram, found, receiveFirst, started] using .spent fresh found
        | ok =>
          simpa [work, scram, found, receiveFirst, started] using .challenged fresh found started
      | awaitFinal =>
        simpa [work, scram, found] using served_final fresh found

theorem served_hello {username : List Char} :
    let work := manager.hello s username draw
    Served manager s (.hello username draw)
      { work.1 with drawn := draw :: s.drawn } work.2 := by
  intro work
  by_cases valid : validateUsername username = .ok ()
  · by_cases full : manager.limits.maxHandshakes ≤ (manager.sweep s).handshakes.size
    · simpa [work, hello, valid, full] using
        .swept (List.subset_cons_self _ _) rfl (fun _ => id) nofun
    · simpa [work, hello, valid, full] using .opened fresh (Nat.lt_of_not_le full)
  · simpa [work, hello, valid] using .ignored (List.subset_cons_self _ _) rfl (fun _ => id) nofun

omit fresh

/-- Every request is one of the cases. -/
theorem serve_served (manager : AuthManager) (s : AuthState) (request : AuthRequest) :
    Served manager s request (manager.serve s request).1 (manager.serve s request).2 := by
  cases request with
  | hello username draw =>
    by_cases drawn : draw ∈ s.drawn
    · simpa [serve, draws, drawn] using .ignored (List.Subset.refl _) rfl (fun _ => id) nofun
    · simpa [serve, draws, drawn] using served_hello drawn
  | scram token data draw nonce =>
    by_cases drawn : draw ∈ s.drawn
    · have unspent : ∀ other, ¬ manager.Consumes s (.scram token data draw nonce) other :=
        fun _ consumed => consumed.2.1 drawn
      simpa [serve, draws, drawn] using .ignored (List.Subset.refl _) rfl unspent nofun
    · simpa [serve, draws, drawn] using served_scram drawn
  | validate => exact .validated
  | revoke token =>
    cases found : s.tokens[token]? with
    | none =>
      have absent : ∀ other, AuthRequest.revoke token = .revoke other →
          s.tokens[other]? = none := by
        rintro _ ⟨⟩
        exact found
      simpa [serve, revoke, found] using .ignored (List.Subset.refl _) rfl (fun _ => id) absent
    | some => simpa [serve, revoke, found] using .revoked found
  | sweep => exact .swept (List.Subset.refl _) rfl (fun _ => id) nofun
  | closeSession => exact .closed
  | tick => exact .ticked

end

/-! ## What a request keeps -/

namespace Served

variable {manager : AuthManager} {s s' : AuthState} {request : AuthRequest} {answer : AuthAnswer}

theorem drawn_subset (served : Served manager s request s' answer) : s.drawn ⊆ s'.drawn := by
  cases served with
  | ignored kept | swept kept => exact kept
  | opened | challenged | spent | authenticated =>
    exact List.subset_cons_self _ _
  | validated | revoked | closed | ticked => exact List.Subset.refl _

theorem now_le (served : Served manager s request s' answer) : s.now ≤ s'.now := by
  cases served with
  | ticked => exact Nat.le_add_right _ _
  | _ => exact Nat.le_refl _

variable {token : String}

/-- A handshake was there before, or the request drew its token. -/
theorem handshake (served : Served manager s request s' answer)
    {entry : Phase × Nat} (found : s'.handshakes[token]? = some entry) :
    s.handshakes[token]? = some entry ∨ token ∉ s.drawn ∧ token ∈ s'.drawn ∧
      ((∃ username, request = .hello username token ∧ answer = .discovery token ∧
          entry = (.awaitFirst username, s.now)) ∨
        ∃ presented username created data nonce handshake answered,
          s.handshakes[presented]? = some (.awaitFirst username, created) ∧
          request = .scram (some presented) data token nonce ∧
          answer = .challenge token answered ∧
          serverFirstMessage manager.primitives username data
            (manager.credentials username) nonce = .ok (handshake, answered) ∧
          entry = (.awaitFinal handshake, created)) := by
  cases served with
  | ignored | revoked | closed | ticked => exact .inl found
  | swept | validated => exact .inl (sweep_handshake found).1
  | @opened username draw fresh =>
    simp only [ExtTreeMap.getElem?_insert] at found
    split at found
    · rename_i same
      cases compare_eq_iff_eq.mp same
      cases found
      exact .inr ⟨fresh, List.mem_cons_self, .inl ⟨username, rfl, rfl, rfl⟩⟩
    · exact .inl (sweep_handshake found).1
  | challenged fresh presented started =>
    simp only [ExtTreeMap.getElem?_insert, ExtTreeMap.getElem?_erase] at found
    split at found
    · rename_i same
      cases compare_eq_iff_eq.mp same
      cases found
      exact .inr ⟨fresh, List.mem_cons_self, .inr ⟨_, _, _, _, _, _, _,
        (sweep_handshake presented).1, rfl, rfl, started, rfl⟩⟩
    · split at found
      · cases found
      · exact .inl (sweep_handshake found).1
  | spent | authenticated =>
    simp only [ExtTreeMap.getElem?_erase] at found
    split at found
    · cases found
    · exact .inl (sweep_handshake found).1

/-- A consumed handshake token is gone. -/
theorem consumes (served : Served manager s request s' answer)
    (drawn : ∀ token entry, s.handshakes[token]? = some entry → token ∈ s.drawn) (consumes : manager.Consumes s request token) :
    token ∈ s.drawn ∧ s'.handshakes[token]? = none := by
  have known : token ∈ s.drawn := by
    cases request with
    | scram =>
      obtain ⟨entry, found⟩ := Option.isSome_iff_exists.mp
        (ExtTreeMap.mem_iff_isSome_getElem?.mp consumes.2.2)
      exact drawn token entry (sweep_handshake found).1
    | _ => exact consumes.elim
  refine ⟨known, ?_⟩
  cases served with
  | ignored _ _ unspent | swept _ _ unspent =>
    exact absurd consumes (unspent token)
  | opened | validated | revoked | closed | ticked => exact consumes.elim
  | challenged fresh =>
    cases consumes.1
    have other := ne_of_mem_of_not_mem known fresh
    simp [other.symm]
  | spent | authenticated =>
    cases consumes.1
    simp

variable {record : TokenRecord} (served : Served manager s request s' answer)

include served

/-- A bearer was there before and is not the one that is taken back, or the
request drew it. -/
theorem bearer (found : s'.tokens[token]? = some record) :
    (s.tokens[token]? = some record ∧ request ≠ .revoke token) ∨
      token ∉ s.drawn ∧ token ∈ s'.drawn ∧
      ∃ presented handshake created registered data nonce signature session,
        s.handshakes[presented]? = some (.awaitFinal handshake, created) ∧
        s.now - created < manager.limits.handshakeTtl ∧
        request = .scram (some presented) data token nonce ∧
        answer = .authenticated token (serverFinalData signature) ∧
        serverVerifyFinal manager.primitives handshake data = .ok signature ∧
        manager.user handshake.username = some registered ∧
        record.user = ⟨handshake.username, registered.permissions⟩ ∧
        s'.sessions[record.session]? = some session ∧
        session.expires = s.now + manager.tokenTtl := by
  cases served with
  | ignored _ _ _ absent =>
    refine .inl ⟨found, fun revokes => ?_⟩
    rw [absent token revokes] at found
    cases found
  | closed | ticked => exact .inl ⟨found, nofun⟩
  | swept _ _ _ other => exact .inl ⟨((sweep_token manager).mp found).1, other token⟩
  | validated | opened | challenged | spent =>
    exact .inl ⟨((sweep_token manager).mp found).1, nofun⟩
  | revoked =>
    simp only [ExtTreeMap.getElem?_erase] at found
    split at found
    · cases found
    · rename_i differs
      refine .inl ⟨found, fun same => differs ?_⟩
      cases same
      exact Std.ReflCmp.compare_self
  | authenticated fresh presented proved registered _ opened =>
    simp only [ExtTreeMap.getElem?_insert] at found
    split at found
    · rename_i same
      cases compare_eq_iff_eq.mp same
      cases found
      obtain ⟨known, inTime⟩ := sweep_handshake presented
      exact .inr ⟨fresh, List.mem_cons_self, _, _, _, _, _, _, _, _, known,
        inTime, rfl, rfl, proved, registered, rfl,
        List.getElem?_concat_length, opened⟩
    · exact .inl ⟨((sweep_token manager).mp found).1, nofun⟩

/-- A session keeps its place and its end. -/
theorem expires {index expires : Nat}
    (known : s.sessions[index]?.map (·.expires) = some expires) :
    s'.sessions[index]?.map (·.expires) = some expires := by
  cases served with
  | ignored | ticked => exact known
  | swept | opened | challenged | spent | validated | revoked | closed =>
    exact expires_closeSessions known
  | authenticated =>
    have kept : (manager.sweep s).sessions[index]?.map (·.expires) = some expires :=
      expires_closeSessions known
    obtain ⟨_, found, _⟩ := Option.map_eq_some_iff.mp kept
    have inside := (List.getElem?_eq_some_iff.mp found).1
    rw [List.getElem?_append_left inside, kept]

/-- The tables stay within their limits. -/
theorem bounded (handshakes : s.handshakes.size ≤ manager.limits.maxHandshakes)
    (tokens : s.tokens.size ≤ manager.limits.maxTokens) :
    s'.handshakes.size ≤ manager.limits.maxHandshakes ∧
      s'.tokens.size ≤ manager.limits.maxTokens := by
  have sweptHandshakes : (manager.sweep s).handshakes.size ≤ manager.limits.maxHandshakes :=
    (size_le_size fun _ => mem_of_mem_sweep_handshakes).trans handshakes
  have sweptTokens : (manager.sweep s).tokens.size ≤ manager.limits.maxTokens :=
    (size_le_size fun _ => mem_of_mem_sweep_tokens).trans tokens
  cases served with
  | ignored | closed | ticked => exact ⟨handshakes, tokens⟩
  | swept | validated => exact ⟨sweptHandshakes, sweptTokens⟩
  | opened _ room =>
    exact ⟨ExtTreeMap.size_insert_le.trans room, sweptTokens⟩
  | @challenged token _ _ _ _ _ _ _ _ found =>
    refine ⟨?_, sweptTokens⟩
    have sized : (manager.sweep s).handshakes.size =
        ((manager.sweep s).handshakes.erase token).size + 1 := by
      rw [← ExtTreeMap.length_toList, (toList_erase_perm found).length_eq,
        List.length_cons, ExtTreeMap.length_toList]
    exact (ExtTreeMap.size_insert_le.trans sized.ge).trans sweptHandshakes
  | spent => exact ⟨ExtTreeMap.size_erase_le.trans sweptHandshakes, sweptTokens⟩
  | authenticated _ _ _ _ room =>
    exact ⟨ExtTreeMap.size_erase_le.trans sweptHandshakes, ExtTreeMap.size_insert_le.trans room⟩
  | revoked => exact ⟨handshakes, ExtTreeMap.size_erase_le.trans tokens⟩

/-- A bearer that leaves the table has its session closed. -/
theorem closes {expires : Nat}
    (known : s.sessions[record.session]?.map (·.expires) = some expires)
    (found : s.tokens[token]? = some record) (dropped : s'.tokens[token]? = none) :
    s'.sessions[record.session]?.map (·.closed) = some true := by
  cases served with
  | ignored | closed | ticked => exact absurd (found.symm.trans dropped) nofun
  | swept | validated | opened | challenged | spent =>
    exact sweep_closes manager known found dropped
  | revoked other =>
    simp only [ExtTreeMap.getElem?_erase] at dropped
    split at dropped
    · rename_i same
      cases compare_eq_iff_eq.mp same
      cases found.symm.trans other
      exact closed_closeSessions known List.mem_cons_self
    · exact absurd (found.symm.trans dropped) nofun
  | authenticated =>
    simp only [ExtTreeMap.getElem?_insert] at dropped
    split at dropped
    · cases dropped
    · have closes := sweep_closes manager known found dropped
      obtain ⟨_, place, _⟩ := Option.map_eq_some_iff.mp closes
      have inside := (List.getElem?_eq_some_iff.mp place).1
      rw [List.getElem?_append_left inside, closes]

end Served

/-! ## Runs -/

theorem run_concat (manager : AuthManager) (now : Nat) (requests : List AuthRequest)
    (request : AuthRequest) :
    manager.run now (requests ++ [request]) =
      manager.take (manager.run now requests) request := by
  simp [run]

end AuthManager
end Server
end Haystack
