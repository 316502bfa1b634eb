import Haystack.Auth.Scram
import Haystack.Collections.Loop

/-!
# Agreement of SCRAM

The parsers invert the printers, so an honest exchange succeeds and both sides
sign one transcript.  The transcript can be taken apart in one way only, so a
server that accepts a proof has seen the messages that the client signed, unless
a digest has collided.
-/

namespace Haystack
namespace Auth

open Collections

/-! ## Checks -/

variable {message : String}

@[simp] theorem orInvalid_eq_ok {value : Option α} {result : α} :
    orInvalid value message = .ok result ↔ value = some result := by
  cases value <;> simp [orInvalid]

@[simp] theorem require_eq_ok {condition : Bool} {result : Unit} :
    require condition message = .ok result ↔ condition = true := by
  cases condition <;> simp [require]

/-! ## Data -/

variable {message : List Char}

theorem decodeAuthData_encode (fits : utf8Length message ≤ maxAuthDataBytes) :
    decodeAuthData (encodeAuthData message) = .ok message := by
  unfold decodeAuthData encodeAuthData
  simp only [except_bind_eq_ok, require_eq_ok, orInvalid_eq_ok,
    decide_eq_true_eq, utf8Length_base64Encode, length_utf8Bytes]
  exact ⟨(), by omega, utf8Bytes message, base64Decode_encode _, (),
    by simpa using fits, ofUtf8_utf8Bytes message⟩

/-! ## Usernames -/

/-- The escape of a character. -/
def escapeUsernameChar (c : Char) : List Char :=
  if c = '=' then ['=', '3', 'D'] else if c = ',' then ['=', '2', 'C'] else [c]

theorem escapeScramUsername_eq (username : List Char) :
    escapeScramUsername username = username.flatMap escapeUsernameChar := by
  unfold escapeScramUsername
  rw [List.flatMap_assoc]
  congr 1
  funext c
  unfold escapeUsernameChar
  split
  · rfl
  · simp

theorem comma_not_mem_escape (username : List Char) : ',' ∉ escapeScramUsername username := by
  rw [escapeScramUsername_eq, List.mem_flatMap]
  rintro ⟨c, _, member⟩
  unfold escapeUsernameChar at member
  split at member
  · revert member
    decide
  · split at member
    · revert member
      decide
    · next different => exact different (List.mem_singleton.mp member).symm

/-- Escapes are resolved. -/
theorem unescape_escape (username : List Char) :
    unescape (escapeScramUsername username) = some username := by
  rw [escapeScramUsername_eq]
  induction username with
  | nil => rfl
  | cons c username ih =>
    rw [List.flatMap_cons]
    by_cases equals : c = '='
    · subst equals
      change (unescape (username.flatMap escapeUsernameChar)).map _ = _
      rw [ih]
      rfl
    · by_cases comma : c = ','
      · subst comma
        change (unescape (username.flatMap escapeUsernameChar)).map _ = _
        rw [ih]
        rfl
      · rw [escapeUsernameChar, if_neg equals, if_neg comma, List.singleton_append, unescape]
        · rw [if_neg equals, ih]
          rfl
        · intro rest same
          exact absurd same equals
        · intro rest same
          exact absurd same equals

/-! ## Nonces -/

theorem nonceValid_iff {nonce : List Char} :
    nonceValid nonce = true ↔ nonce ≠ [] ∧ utf8Length nonce ≤ maxNonceBytes ∧
      ∀ c ∈ nonce, 0x21 ≤ c.toNat ∧ c.toNat ≤ 0x7e ∧ c ≠ ',' := by
  simp [nonceValid, and_assoc]

variable {nonce : List Char}

theorem comma_not_mem_nonce (valid : nonceValid nonce = true) : ',' ∉ nonce :=
  fun member => ((nonceValid_iff.mp valid).2.2 ',' member).2.2 rfl

variable {clientNonce serverNonce : List Char}

theorem nonceValid_append (client : nonceValid clientNonce = true)
    (server : nonceValid serverNonce = true)
    (fits : utf8Length clientNonce + utf8Length serverNonce ≤ maxNonceBytes) :
    nonceValid (clientNonce ++ serverNonce) = true := by
  obtain ⟨some, _, clientChars⟩ := nonceValid_iff.mp client
  obtain ⟨_, _, serverChars⟩ := nonceValid_iff.mp server
  rw [nonceValid_iff, utf8Length_append]
  refine ⟨by simp [some], fits, fun c member => ?_⟩
  rcases List.mem_append.mp member with left | right
  · exact clientChars c left
  · exact serverChars c right

/-! ## The first message -/

variable {username : List Char}

/-- A first message is read as it was written. -/
theorem parseClientFirst_clientFirstMessage (accepted : validateUsername username = .ok ())
    (valid : nonceValid nonce = true)
    (fits : utf8Length (gs2Header ++ makeClientFirstBare username nonce) ≤ maxAuthDataBytes) :
    parseClientFirst (clientFirstMessage username nonce) =
      .ok ⟨username, nonce, makeClientFirstBare username nonce⟩ := by
  have comma : ',' ∉ ['n', '='] ++ escapeScramUsername username := by
    rw [List.mem_append, not_or]
    exact ⟨by decide, comma_not_mem_escape username⟩
  have fields : splitOnce [',', 'r', '='] (makeClientFirstBare username nonce) =
      some (['n', '='] ++ escapeScramUsername username, nonce) :=
    splitOnce_append nonce comma
  have escaped : (!(escapeScramUsername username).contains ',') = true := by
    simpa using comma_not_mem_escape username
  simp only [parseClientFirst, except_bind_eq_ok, orInvalid_eq_ok, require_eq_ok]
  refine ⟨_, decodeAuthData_encode fits, _, dropPrefix?_append _ _, _, fields, _,
    dropPrefix?_append _ _, (), ?_, _, unescape_escape username, (), accepted,
    rfl⟩
  rw [Bool.and_eq_true]
  exact ⟨valid, escaped⟩

variable {data : List Char} {first : ClientFirst}

/-- What a parsed first message looks like. -/
theorem parseClientFirst_eq_ok (parsed : parseClientFirst data = .ok first) :
    ∃ escaped, first.bare = joined ',' [['n', '='] ++ escaped, ['r', '='] ++ first.nonce] ∧
      ',' ∉ ['n', '='] ++ escaped ∧ ',' ∉ ['r', '='] ++ first.nonce ∧
      nonceValid first.nonce = true ∧
      validateUsername first.username = .ok () := by
  simp only [parseClientFirst, except_bind_eq_ok, orInvalid_eq_ok, require_eq_ok] at parsed
  obtain ⟨full, _, bare, _, ⟨name, nonce⟩, split, escaped, dropped, _, checked,
    username, _, _, accepted, result⟩ := parsed
  cases result
  rw [Bool.and_eq_true] at checked
  have name_eq := dropPrefix?_eq_some.mp dropped
  have bare_eq := splitOnce_eq_some split
  subst name_eq
  refine ⟨escaped, ?_, ?_, ?_, checked.1, accepted⟩
  · rw [joined_cons_cons, bare_eq]
    simp
  · rw [List.mem_append, not_or]
    exact ⟨by decide, by simpa using checked.2⟩
  · rw [List.mem_append, not_or]
    exact ⟨by decide, comma_not_mem_nonce checked.1⟩

/-! ## The challenge -/

theorem comma_not_mem_standardEncode (bytes : List UInt8) : ',' ∉ standardEncode bytes :=
  fun member => (standardSymbols bytes ',' member).2.2.1 rfl

theorem comma_not_mem_decimal (n : Nat) : ',' ∉ decimal n := by
  intro member
  have digit := isDigit_of_mem_decimal member
  revert digit
  decide

/-- The fields of a challenge. -/
def serverFirstFields (nonce : List Char) (salt : List UInt8)
    (iterations : Nat) : List (List Char) :=
  [['r', '='] ++ nonce, ['s', '='] ++ standardEncode salt, ['i', '='] ++ decimal iterations]

theorem serverFirst_eq_joined (nonce : List Char) (salt : List UInt8) (iterations : Nat) :
    serverFirst nonce salt iterations = joined ',' (serverFirstFields nonce salt iterations) := by
  simp [serverFirst, serverFirstFields, joined_cons_cons]

theorem comma_not_mem_serverFirstFields
    (free : ',' ∉ nonce) (salt : List UInt8) (iterations : Nat) :
    ∀ field ∈ serverFirstFields nonce salt iterations, ',' ∉ field := by
  intro field member
  simp only [serverFirstFields, List.mem_cons, List.not_mem_nil, or_false] at member
  rcases member with rfl | rfl | rfl
  · rw [List.mem_append, not_or]
    exact ⟨by decide, free⟩
  · rw [List.mem_append, not_or]
    exact ⟨by decide, comma_not_mem_standardEncode salt⟩
  · rw [List.mem_append, not_or]
    exact ⟨by decide, comma_not_mem_decimal iterations⟩

variable {salt : List UInt8} {iterations : Nat}

theorem utf8Length_serverFirst_le
    (short : utf8Length nonce ≤ maxNonceBytes) (saltShort : salt.length ≤ 1024)
    (few : iterations ≤ maxClientIterations) :
    utf8Length (serverFirst nonce salt iterations) ≤ maxAuthDataBytes := by
  have digits : utf8Length (decimal iterations) ≤ 7 := by
    rw [utf8Length_eq_length]
    · refine length_decimal_le (by decide) ?_
      unfold maxClientIterations at few
      omega
    · intro c member
      have digit := isDigit_of_mem_decimal member
      exact utf8Size_of_ascii (digit.2.trans (by decide))
  have fields : utf8Length ['r', '='] = 2 ∧ utf8Length [',', 's', '='] = 3 ∧
      utf8Length [',', 'i', '='] = 3 := by decide
  unfold serverFirst
  simp only [utf8Length_append, utf8Length_standardEncode]
  unfold maxNonceBytes at short
  unfold maxAuthDataBytes
  omega

/-- A challenge is read as it was written. -/
theorem parseServerFirst_serverFirst (valid : nonceValid (clientNonce ++ serverNonce) = true)
    (extended : serverNonce ≠ []) (salted : salt ≠ [])
    (saltShort : salt.length ≤ 1024) (positive : 1 ≤ iterations)
    (few : iterations ≤ maxClientIterations) :
    parseServerFirst clientNonce (encodeAuthData
        (serverFirst (clientNonce ++ serverNonce) salt iterations)) =
      .ok ⟨serverFirst (clientNonce ++ serverNonce) salt iterations,
        clientNonce ++ serverNonce, salt, iterations⟩ := by
  have short := (nonceValid_iff.mp valid).2.1
  have fits := utf8Length_serverFirst_le short saltShort few
  have fields : (serverFirst (clientNonce ++ serverNonce) salt iterations).splitOn ',' =
        serverFirstFields (clientNonce ++ serverNonce) salt iterations := by
    rw [serverFirst_eq_joined]
    exact splitOn_joined (comma_not_mem_serverFirstFields
      (comma_not_mem_nonce valid) salt iterations) nofun
  have number : parseU32 (decimal iterations) = some iterations := by
    have bound : iterations ≤ u32Max := few.trans (by decide)
    simp [parseU32, parseDecimal_decimal, bound]
  have extended_pos := utf8Length_pos extended
  simp only [parseServerFirst, except_bind_eq_ok]
  refine ⟨_, decodeAuthData_encode fits, ?_⟩
  rw [fields]
  simp only [serverFirstFields, except_bind_eq_ok, orInvalid_eq_ok, require_eq_ok]
  refine ⟨_, dropPrefix?_append _ _, (), ?_, _, dropPrefix?_append _ _, (), ?_,
    _, standardDecode_encode salt, (), ?_, _, dropPrefix?_append _ _, _, number,
    (), ?_, rfl⟩
  · simp only [valid, Bool.and_eq_true, List.isPrefixOf_iff_prefix, List.prefix_append,
      decide_eq_true_eq, utf8Length_append, true_and]
    omega
  · rw [decide_eq_true_eq, utf8Length_standardEncode]
    omega
  · simp [salted, saltShort]
  · simp [positive, few]

/-- What a parsed challenge looks like. -/
theorem parseServerFirst_eq_ok {server : ServerFirst}
    (parsed : parseServerFirst clientNonce data = .ok server) :
    ∃ salt iterations, server.message = joined ','
        [['r', '='] ++ server.nonce, salt, iterations] ∧
      ',' ∉ ['r', '='] ++ server.nonce ∧ ',' ∉ salt ∧ ',' ∉ iterations ∧
      nonceValid server.nonce = true := by
  simp only [parseServerFirst, except_bind_eq_ok] at parsed
  obtain ⟨message, _, parsed⟩ := parsed
  split at parsed
  · next first second third fields =>
    simp only [except_bind_eq_ok, orInvalid_eq_ok, require_eq_ok] at parsed
    obtain ⟨nonce, dropped, _, checked, _, _, _, _, _, _, _, _, _, _, _, _, _, _,
      result⟩ := parsed
    cases result
    have first_eq := dropPrefix?_eq_some.mp dropped
    have free : ∀ field ∈ [first, second, third], ',' ∉ field := by
      intro field member
      rw [← fields] at member
      exact not_mem_of_mem_splitOn member
    have message_eq := joined_splitOn ',' message
    rw [fields, first_eq] at message_eq
    rw [first_eq] at free
    simp only [Bool.and_eq_true] at checked
    exact ⟨second, third, message_eq.symm, free _ (by simp), free _ (by simp),
      free _ (by simp), checked.1.1⟩
  · cases parsed

/-! ## The proof -/

@[simp] theorem length_xorBytes (a b : List UInt8) :
    (xorBytes a b).length = min a.length b.length := by
  simp [xorBytes]

/-- A proof is opened by the signature that it was made with. -/
theorem xorBytes_xorBytes {a b : List UInt8} (same : a.length = b.length) :
    xorBytes (xorBytes a b) b = a := by
  induction a generalizing b with
  | nil => rfl
  | cons x a ih =>
    cases b with
    | nil => cases same
    | cons =>
      have rest := ih (Nat.succ.inj same)
      simp only [xorBytes, List.zipWith_cons_cons] at rest ⊢
      rw [rest, UInt8.xor_assoc, UInt8.xor_self, UInt8.xor_zero]

/-- Two signatures that open a proof to the same key are equal. -/
theorem xorBytes_left_cancel {key left right : List UInt8} (leftLength : left.length = key.length)
    (rightLength : right.length = key.length) (same : xorBytes (xorBytes key left) right = key) :
    left = right := by
  induction key generalizing left right with
  | nil =>
    rw [List.eq_nil_of_length_eq_zero leftLength, List.eq_nil_of_length_eq_zero rightLength]
  | cons x key ih =>
    cases left with
    | nil => cases leftLength
    | cons =>
      cases right with
      | nil => cases rightLength
      | cons =>
        simp only [xorBytes, List.zipWith_cons_cons, List.cons.injEq] at same
        obtain ⟨first, rest⟩ := same
        rw [ih (Nat.succ.inj leftLength) (Nat.succ.inj rightLength) rest]
        rw [UInt8.xor_assoc] at first
        simpa using first

section

variable {primitives : Primitives}

@[simp] theorem length_clientKey (salted : List UInt8) :
    (deriveKeys primitives salted).clientKey.length = 32 :=
  primitives.length_hmacSha256 _ _

@[simp] theorem length_storedKey (salted : List UInt8) :
    (deriveKeys primitives salted).storedKey.length = 32 :=
  primitives.length_sha256 _

@[simp] theorem length_serverKey (salted : List UInt8) :
    (deriveKeys primitives salted).serverKey.length = 32 :=
  primitives.length_hmacSha256 _ _

theorem length_clientProof
    (password : List Char) (server : ServerFirst) (transcript : List Char) :
    (clientProof primitives (clientKeys primitives password server) transcript).length = 32 := by
  simp [clientProof, clientKeys, primitives.length_hmacSha256]

variable {nonce : List Char} {proof : List UInt8}

/-- The fields of the message with the proof. -/
theorem decode_clientFinal (valid : nonceValid nonce = true) (length : proof.length = 32) :
    ∃ message, decodeAuthData (encodeAuthData (withoutProof nonce ++
        [',', 'p', '='] ++ standardEncode proof)) = .ok message ∧
      message.splitOn ',' = [['c', '=', 'b', 'i', 'w', 's'],
        ['r', '='] ++ nonce, ['p', '='] ++ standardEncode proof] := by
  have short := (nonceValid_iff.mp valid).2.1
  refine ⟨_, decodeAuthData_encode ?_, ?_⟩
  · have header : utf8Length ['c', '=', 'b', 'i', 'w', 's', ',', 'r', '='] = 9 ∧
        utf8Length [',', 'p', '='] = 3 := by decide
    simp only [withoutProof, utf8Length_append, utf8Length_standardEncode]
    unfold maxNonceBytes at short
    unfold maxAuthDataBytes
    omega
  · have fields : withoutProof nonce ++ [',', 'p', '='] ++ standardEncode proof =
        joined ',' [['c', '=', 'b', 'i', 'w', 's'], ['r', '='] ++ nonce,
          ['p', '='] ++ standardEncode proof] := by
      simp [withoutProof, joined_cons_cons]
    rw [fields]
    refine splitOn_joined (fun field member => ?_) nofun
    simp only [List.mem_cons, List.not_mem_nil, or_false] at member
    rcases member with rfl | rfl | rfl
    · decide
    · rw [List.mem_append, not_or]
      exact ⟨by decide, comma_not_mem_nonce valid⟩
    · rw [List.mem_append, not_or]
      exact ⟨by decide, comma_not_mem_standardEncode proof⟩

variable {signature : List UInt8} {handshake : ScramHandshake}

/-- A server checks the nonce and opens the proof. -/
theorem serverVerifyFinal_eq_ok_iff (valid : nonceValid nonce = true)
    (length : proof.length = 32) :
    serverVerifyFinal primitives handshake (encodeAuthData (withoutProof nonce ++
        [',', 'p', '='] ++ standardEncode proof)) = .ok signature ↔
      nonce = handshake.clientNonce ++ handshake.serverNonce ∧
      primitives.sha256 (xorBytes proof (primitives.hmacSha256
        handshake.storedKey (utf8Bytes handshake.authMessage))) = handshake.storedKey ∧
      signature = handshake.serverSignature := by
  obtain ⟨_, decoded, fields⟩ := decode_clientFinal valid length
  have encoded : utf8Length (standardEncode proof) = 44 := by
    rw [utf8Length_standardEncode, length]
  simp only [serverVerifyFinal, decoded, except_bind_eq_ok, Except.ok.injEq, exists_eq_left',
    fields, orInvalid_eq_ok, require_eq_ok, dropPrefix?_append, Option.some.injEq,
    standardDecode_encode, encoded, length, true_and, exists_const, decide_eq_true_eq]
  constructor
  · rintro ⟨same, accepted⟩
    split at accepted
    · next opened =>
      cases accepted
      exact ⟨same, opened, rfl⟩
    · cases accepted
  · rintro ⟨same, opened, rfl⟩
    exact ⟨same, if_pos opened⟩

theorem verifyServerFinal_serverFinalData (length : signature.length = 32) :
    verifyServerFinal (serverFinalData signature) signature = .ok () := by
  have encoded : utf8Length (standardEncode signature) = 44 := by
    rw [utf8Length_standardEncode, length]
  have fits : utf8Length (['v', '='] ++ standardEncode signature) ≤ maxAuthDataBytes := by
    rw [utf8Length_append, encoded]
    decide
  simp only [verifyServerFinal, serverFinalData, decodeAuthData_encode fits,
    except_bind_eq_ok, Except.ok.injEq, exists_eq_left', orInvalid_eq_ok,
    require_eq_ok, dropPrefix?_append, Option.some.injEq, standardDecode_encode,
    encoded, length, decide_true, Bool.and_self, true_and, exists_const, if_true]

/-! ## The transcript -/

/-- A transcript of fields without commas. -/
theorem authMessage_eq_joined {bare a b c d e : List Char} (bare_eq : bare = joined ',' [a, b])
    (message_eq : message = joined ',' [c, d, e]) :
    authMessage bare message nonce = joined ',' [a, b, c, d, e,
      ['c', '=', 'b', 'i', 'w', 's'], ['r', '='] ++ nonce] := by
  subst bare_eq message_eq
  simp [authMessage, withoutProof, joined_cons_cons]

/-- A transcript can be taken apart in one way. -/
theorem messages_eq_of_transcript_eq {otherData : List Char} {other : ClientFirst}
    {otherMessage otherNonce c d e c' d' e' : List Char}
    (parsed : parseClientFirst data = .ok first)
    (otherParsed : parseClientFirst otherData = .ok other)
    (message_eq : message = joined ',' [c, d, e])
    (otherMessage_eq : otherMessage = joined ',' [c', d', e'])
    (free : ∀ field ∈ [c, d, e, ['r', '='] ++ nonce], ',' ∉ field)
    (otherFree : ∀ field ∈ [c', d', e', ['r', '='] ++ otherNonce], ',' ∉ field)
    (same : authMessage first.bare message nonce =
      authMessage other.bare otherMessage otherNonce) :
    first.bare = other.bare ∧ message = otherMessage := by
  obtain ⟨name, bare_eq, nameFree, nonceFree, _⟩ := parseClientFirst_eq_ok parsed
  obtain ⟨_, otherBare_eq, otherNameFree, otherNonceFree, _⟩ := parseClientFirst_eq_ok otherParsed
  rw [authMessage_eq_joined bare_eq message_eq,
    authMessage_eq_joined otherBare_eq otherMessage_eq] at same
  have binding : ',' ∉ ['c', '=', 'b', 'i', 'w', 's'] := by decide
  have all {name nonce c d e last : List Char} (nameFree : ',' ∉ name) (nonceFree : ',' ∉ nonce)
      (rest : ∀ field ∈ [c, d, e, last], ',' ∉ field) :
      ∀ field ∈ [name, nonce, c, d, e, ['c', '=', 'b', 'i', 'w', 's'], last], ',' ∉ field := by
    simp only [List.forall_mem_cons] at rest ⊢
    exact ⟨nameFree, nonceFree, rest.1, rest.2.1, rest.2.2.1, binding, rest.2.2.2⟩
  have fields := joined_injective (all nameFree nonceFree free)
    (all otherNameFree otherNonceFree otherFree) (List.cons_ne_nil _ _)
    (List.cons_ne_nil _ _) same
  simp only [List.cons.injEq] at fields
  obtain ⟨first_eq, second_eq, third_eq, fourth_eq, fifth_eq, _⟩ := fields
  rw [bare_eq, otherBare_eq, message_eq, otherMessage_eq, first_eq, second_eq,
    third_eq, fourth_eq, fifth_eq]
  exact ⟨rfl, rfl⟩

/-! ## Agreement -/

variable {credentials : ScramCredentials}

theorem serverFirstMessage_eq_ok_iff {serverData : List Char} :
    serverFirstMessage primitives username data credentials serverNonce =
        .ok (handshake, serverData) ↔
      validateCredentials credentials = .ok () ∧
      ∃ first, parseClientFirst data = .ok first ∧ first.username = username ∧
        utf8Length first.nonce + utf8Length serverNonce ≤ maxNonceBytes ∧
        handshake = startHandshake primitives first credentials serverNonce ∧
        serverData = encodeAuthData (serverFirst (first.nonce ++ serverNonce)
          credentials.salt credentials.iterations) := by
  simp only [serverFirstMessage, except_bind_eq_ok]
  constructor
  · rintro ⟨_, valid, first, parsed, started⟩
    split at started
    · cases started
    · next same =>
      simp only [except_bind_eq_ok, require_eq_ok, decide_eq_true_eq] at started
      obtain ⟨_, short, result⟩ := started
      cases result
      exact ⟨valid, first, parsed, not_not.mp same, short, rfl, rfl⟩
  · rintro ⟨valid, first, parsed, same, short, rfl, rfl⟩
    refine ⟨(), valid, first, parsed, ?_⟩
    rw [if_neg (not_not.mpr same)]
    simp only [except_bind_eq_ok, require_eq_ok, decide_eq_true_eq]
    exact ⟨(), short, rfl⟩

theorem clientFinalMessage_eq_ok_iff {password clientData challengeData finalData : List Char} :
    clientFinalMessage primitives password clientData challengeData = .ok (finalData, signature) ↔
      ∃ first challenge, parseClientFirst clientData = .ok first ∧
        parseServerFirst first.nonce challengeData = .ok challenge ∧
        finalData = encodeAuthData (withoutProof challenge.nonce ++
          [',', 'p', '='] ++ standardEncode (clientProof primitives
            (clientKeys primitives password challenge)
            (clientTranscript first challenge))) ∧
        signature = primitives.hmacSha256 (clientKeys primitives password challenge).serverKey
          (utf8Bytes (clientTranscript first challenge)) := by
  simp only [clientFinalMessage, except_bind_eq_ok]
  constructor
  · rintro ⟨first, parsed, challenge, challenged, result⟩
    cases result
    exact ⟨first, challenge, parsed, challenged, rfl, rfl⟩
  · rintro ⟨first, challenge, parsed, challenged, rfl, rfl⟩
    exact ⟨first, parsed, challenge, challenged, rfl⟩

/-- An honest exchange succeeds at every step, and both sides sign the same
transcript. -/
theorem honest_exchange {password : List Char} (accepted : validateUsername username = .ok ())
    (salted : salt ≠ []) (saltShort : salt.length ≤ 1024)
    (positive : 1 ≤ iterations) (few : iterations ≤ maxClientIterations)
    (client : nonceValid clientNonce = true) (server : nonceValid serverNonce = true)
    (short : utf8Length clientNonce + utf8Length serverNonce ≤ maxNonceBytes)
    (fits : utf8Length (gs2Header ++ makeClientFirstBare username clientNonce) ≤
      maxAuthDataBytes) :
    let clientData := clientFirstMessage username clientNonce
    ∃ handshake serverData first challenge finalData signature,
      serverFirstMessage primitives username clientData
        (deriveCredentials primitives password salt iterations) serverNonce =
          .ok (handshake, serverData) ∧
      parseClientFirst clientData = .ok first ∧ first.username = username ∧
      parseServerFirst first.nonce serverData = .ok challenge ∧
      clientTranscript first challenge = handshake.authMessage ∧
      clientFinalMessage primitives password clientData serverData = .ok (finalData, signature) ∧
      serverVerifyFinal primitives handshake finalData = .ok signature ∧
      verifyServerFinal (serverFinalData signature) signature = .ok () := by
  intro clientData
  have first := parseClientFirst_clientFirstMessage accepted client fits
  have valid := nonceValid_append client server short
  have challenge := parseServerFirst_serverFirst valid
    (nonceValid_iff.mp server).1 salted saltShort positive few
  have credentials : validateCredentials
      (deriveCredentials primitives password salt iterations) = .ok () := by
    simp [validateCredentials, deriveCredentials, salted, saltShort, positive, few]
  have started : serverFirstMessage primitives username clientData
      (deriveCredentials primitives password salt iterations) serverNonce = .ok (_, _) :=
    serverFirstMessage_eq_ok_iff.mpr ⟨credentials, _, first, rfl, short, rfl, rfl⟩
  have finished : clientFinalMessage primitives password clientData
      (encodeAuthData (serverFirst (clientNonce ++ serverNonce) salt iterations)) = .ok (_, _) :=
    clientFinalMessage_eq_ok_iff.mpr ⟨_, _, first, challenge, rfl, rfl⟩
  refine ⟨_, _, _, _, _, _, started, first, rfl, challenge, rfl, finished, ?_, ?_⟩
  · rw [serverVerifyFinal_eq_ok_iff valid (length_clientProof _ _ _)]
    refine ⟨rfl, ?_, rfl⟩
    -- the server opens the proof with the signature that the client hid it with
    exact congrArg primitives.sha256 (xorBytes_xorBytes
      ((length_clientKey _).trans (primitives.length_hmacSha256 _ _).symm))
  · exact verifyServerFinal_serverFinalData (primitives.length_hmacSha256 _ _)

/-- A server that accepts a proof has sent the challenge and received the first
message that the client signed, if the digests do not collide there. -/
theorem same_messages_of_accepted
    {username data serverNonce serverData password clientData challengeData
      finalData : List Char} {sent : ClientFirst}
    {challenge : ServerFirst} {answer : List UInt8} (drawn : nonceValid serverNonce = true)
    (started : serverFirstMessage primitives username data credentials
      serverNonce = .ok (handshake, serverData))
    (received : parseClientFirst data = .ok first)
    (parsed : parseClientFirst clientData = .ok sent)
    (challenged : parseServerFirst sent.nonce challengeData = .ok challenge)
    (finished : clientFinalMessage primitives password clientData challengeData =
      .ok (finalData, signature))
    (sameKey : (clientKeys primitives password challenge).storedKey = credentials.storedKey)
    (verified : serverVerifyFinal primitives handshake finalData = .ok answer)
    (sha256 : Set.InjOn primitives.sha256
      {xorBytes (clientProof primitives (clientKeys primitives password challenge)
          (clientTranscript sent challenge))
        (primitives.hmacSha256 credentials.storedKey (utf8Bytes handshake.authMessage)),
        (clientKeys primitives password challenge).clientKey})
    (hmacSha256 : Set.InjOn (primitives.hmacSha256 credentials.storedKey)
      {utf8Bytes (clientTranscript sent challenge), utf8Bytes handshake.authMessage}) :
    sent.bare = first.bare ∧ serverData = encodeAuthData challenge.message := by
  obtain ⟨_, _, received', _, _, rfl, rfl⟩ := serverFirstMessage_eq_ok_iff.mp started
  obtain rfl := Except.ok.inj (received.symm.trans received')
  obtain ⟨d, e, message_eq, nonceFree, dFree, eFree, valid⟩ := parseServerFirst_eq_ok challenged
  obtain ⟨_, _, parsed', challenged', rfl, _⟩ := clientFinalMessage_eq_ok_iff.mp finished
  obtain rfl := Except.ok.inj (parsed.symm.trans parsed')
  obtain rfl := Except.ok.inj (challenged.symm.trans challenged')
  rw [serverVerifyFinal_eq_ok_iff valid (length_clientProof _ _ _)] at verified
  obtain ⟨_, opened, _⟩ := verified
  have recovered := sha256 (.inl rfl) (.inr rfl) (opened.trans sameKey.symm)
  rw [clientProof, sameKey] at recovered
  have signatures := xorBytes_left_cancel
    (by rw [primitives.length_hmacSha256, clientKeys, length_clientKey])
    (by rw [primitives.length_hmacSha256, clientKeys, length_clientKey]) recovered
  have transcripts := utf8Bytes_injective (hmacSha256 (.inl rfl) (.inr rfl) signatures)
  have serverFree : ',' ∉ first.nonce ++ serverNonce := by
    obtain ⟨_, _, _, _, firstValid, _⟩ := parseClientFirst_eq_ok received
    rw [List.mem_append, not_or]
    exact ⟨comma_not_mem_nonce firstValid, comma_not_mem_nonce drawn⟩
  have fieldsFree := comma_not_mem_serverFirstFields serverFree credentials.salt
    credentials.iterations
  simp only [serverFirstFields, List.forall_mem_cons] at fieldsFree
  have same := messages_eq_of_transcript_eq parsed received message_eq
    (serverFirst_eq_joined _ _ _)
    (by simp only [List.forall_mem_cons]
        exact ⟨nonceFree, dFree, eFree, nonceFree, by simp⟩)
    (by simp only [List.forall_mem_cons]
        exact ⟨fieldsFree.1, fieldsFree.2.1, fieldsFree.2.2.1, fieldsFree.1, by simp⟩)
    transcripts
  exact ⟨same.1, by rw [same.2]⟩

end

/-- An honest exchange succeeds and both sides sign the same transcript, and a
server accepts a proof only of the messages that it has sent and received. -/
theorem scram_agreement (primitives : Primitives) :
    (∀ (username password clientNonce serverNonce : List Char)
      (salt : List UInt8) (iterations : Nat),
      username ≠ [] → utf8Length username ≤ maxUsernameBytes →
      (∀ c ∈ username, isControl c = false) →
      1 ≤ salt.length → salt.length ≤ 1024 →
      1 ≤ iterations → iterations ≤ maxClientIterations →
      nonceValid clientNonce = true → nonceValid serverNonce = true →
      utf8Length clientNonce + utf8Length serverNonce ≤ maxNonceBytes →
      utf8Length (gs2Header ++ makeClientFirstBare username clientNonce) ≤ maxAuthDataBytes →
      let clientData := clientFirstMessage username clientNonce
      ∃ handshake serverData first challenge finalData signature,
        serverFirstMessage primitives username clientData
          (deriveCredentials primitives password salt iterations) serverNonce =
            .ok (handshake, serverData) ∧
        parseClientFirst clientData = .ok first ∧ first.username = username ∧
        parseServerFirst first.nonce serverData = .ok challenge ∧
        clientTranscript first challenge = handshake.authMessage ∧
        clientFinalMessage primitives password clientData serverData =
          .ok (finalData, signature) ∧
        serverVerifyFinal primitives handshake finalData = .ok signature ∧
        verifyServerFinal (serverFinalData signature) signature = .ok ()) ∧
    (∀ (username data serverNonce serverData password clientData challengeData
        finalData : List Char) (credentials : ScramCredentials)
      (handshake : ScramHandshake) (first sent : ClientFirst)
      (challenge : ServerFirst) (signature answer : List UInt8),
      nonceValid serverNonce = true →
      serverFirstMessage primitives username data credentials serverNonce =
        .ok (handshake, serverData) →
      parseClientFirst data = .ok first →
      parseClientFirst clientData = .ok sent →
      parseServerFirst sent.nonce challengeData = .ok challenge →
      clientFinalMessage primitives password clientData challengeData =
        .ok (finalData, signature) →
      (clientKeys primitives password challenge).storedKey = credentials.storedKey →
      serverVerifyFinal primitives handshake finalData = .ok answer →
      Set.InjOn primitives.sha256 {xorBytes
          (clientProof primitives (clientKeys primitives password challenge)
            (clientTranscript sent challenge))
          (primitives.hmacSha256 credentials.storedKey (utf8Bytes handshake.authMessage)),
          (clientKeys primitives password challenge).clientKey} →
      Set.InjOn (primitives.hmacSha256 credentials.storedKey)
        {utf8Bytes (clientTranscript sent challenge), utf8Bytes handshake.authMessage} →
      sent.bare = first.bare ∧ serverData = encodeAuthData challenge.message) := by
  refine ⟨?_, ?_⟩
  · intro username password clientNonce serverNonce salt iterations named short
      printable salted saltShort positive few client server together fits
    have accepted : validateUsername username = .ok () := by
      rw [validateUsername, require_eq_ok]
      simp only [Bool.and_eq_true, Bool.not_eq_true', List.isEmpty_eq_false_iff,
        decide_eq_true_eq, List.any_eq_false]
      refine ⟨⟨named, short⟩, fun c member => ?_⟩
      rw [printable c member]
      exact Bool.false_ne_true
    exact honest_exchange accepted (List.ne_nil_of_length_pos salted) saltShort
      positive few client server together fits
  · intro username data serverNonce serverData password clientData challengeData
      finalData credentials handshake first sent challenge signature answer drawn
      started received parsed challenged finished sameKey verified sha256
      hmacSha256
    exact same_messages_of_accepted drawn started received parsed challenged
      finished sameKey verified sha256 hmacSha256

/-- The empty username is refused, whatever the client sends for it. -/
theorem empty_username_refused : ∃ primitives : Primitives, ∀ (data serverNonce : List Char)
      (credentials : ScramCredentials) (result : ScramHandshake × List Char),
      serverFirstMessage primitives [] data credentials serverNonce ≠ .ok result := by
  let digest := List.replicate 32 (0 : UInt8)
  refine ⟨⟨fun _ => digest, fun _ _ => digest, fun _ _ _ => [], fun _ => rfl, fun _ _ => rfl⟩, ?_⟩
  intro data serverNonce credentials result started
  obtain ⟨_, _, parsed, empty, _⟩ := serverFirstMessage_eq_ok_iff.mp started
  obtain ⟨_, _, _, _, _, accepted⟩ := parseClientFirst_eq_ok parsed
  rw [empty] at accepted
  cases accepted

end Auth
end Haystack
