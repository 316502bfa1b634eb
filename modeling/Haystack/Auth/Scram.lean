import Haystack.Kinds
import Haystack.Collections.Text

/-!
# SCRAM

The four messages of the SCRAM exchange and their parsers.  The digests and the
key derivation are parameters; messages are texts, which travel as unpadded
base64url.  The random nonces are arguments of the functions that draw them.
-/

namespace Haystack
namespace Auth

open Collections

def defaultIterations : Nat := 100000

def maxClientIterations : Nat := 1000000

def maxAuthDataBytes : Nat := 4096

def maxUsernameBytes : Nat := 1024

def maxNonceBytes : Nat := 1024

inductive AuthError
  | invalidCredentials
  | invalidMessage (message : String)
  deriving DecidableEq

/-- The value of an option, or an error with a message. -/
def orInvalid (value : Option α) (message : String) : Except AuthError α :=
  match value with
  | some value => .ok value
  | none => .error (.invalidMessage message)

/-- A check that fails with a message. -/
def require (condition : Bool) (message : String) : Except AuthError Unit :=
  if condition then .ok () else .error (.invalidMessage message)

/-- The digests and the key derivation. -/
structure Primitives where
  sha256 : List UInt8 → List UInt8
  hmacSha256 : List UInt8 → List UInt8 → List UInt8
  pbkdf2Sha256 : List UInt8 → List UInt8 → Nat → List UInt8
  length_sha256 : ∀ data, (sha256 data).length = 32
  length_hmacSha256 : ∀ key message, (hmacSha256 key message).length = 32

structure ScramCredentials where
  salt : List UInt8
  iterations : Nat
  storedKey : List UInt8
  serverKey : List UInt8
  deriving DecidableEq

/-- The state of the server between its challenge and the proof. -/
structure ScramHandshake where
  username : List Char
  clientNonce : List Char
  serverNonce : List Char
  salt : List UInt8
  iterations : Nat
  authMessage : List Char
  serverSignature : List UInt8
  storedKey : List UInt8
  deriving DecidableEq

def xorBytes (a b : List UInt8) : List UInt8 := List.zipWith (· ^^^ ·) a b

/-- The client key, the stored key and the server key. -/
structure Keys where
  clientKey : List UInt8
  storedKey : List UInt8
  serverKey : List UInt8

section

variable (primitives : Primitives)

def deriveKeys (saltedPassword : List UInt8) : Keys :=
  let clientKey := primitives.hmacSha256 saltedPassword (utf8Bytes "Client Key".toList)
  { clientKey
    storedKey := primitives.sha256 clientKey
    serverKey := primitives.hmacSha256 saltedPassword (utf8Bytes "Server Key".toList) }

def deriveCredentials (password : List Char) (salt : List UInt8)
    (iterations : Nat) : ScramCredentials :=
  let keys := deriveKeys primitives (primitives.pbkdf2Sha256 (utf8Bytes password) salt iterations)
  ⟨salt, iterations, keys.storedKey, keys.serverKey⟩

end

/-! ## Data -/

/-- The text that travels for a message. -/
def encodeAuthData (message : List Char) : List Char := base64Encode (utf8Bytes message)

def decodeAuthData (data : List Char) : Except AuthError (List Char) := do
  require (utf8Length data ≤ maxAuthDataBytes * 4 / 3 + 4) "auth data exceeds limit"
  let bytes ← orInvalid (base64Decode data) "invalid base64url data"
  require (bytes.length ≤ maxAuthDataBytes) "decoded auth data exceeds limit"
  orInvalid (ofUtf8 bytes) "invalid auth UTF-8"

/-! ## The first message of the client -/

def escapeScramUsername (username : List Char) : List Char :=
  (username.flatMap fun c => if c = '=' then ['=', '3', 'D'] else [c]).flatMap
    fun c => if c = ',' then ['=', '2', 'C'] else [c]

def makeClientFirstBare (username nonce : List Char) : List Char :=
  ['n', '='] ++ escapeScramUsername username ++ [',', 'r', '='] ++ nonce

/-- The header of a message without channel binding. -/
def gs2Header : List Char := ['n', ',', ',']

def clientFirstMessage (username nonce : List Char) : List Char :=
  encodeAuthData (gs2Header ++ makeClientFirstBare username nonce)

/-- `char::is_control`. -/
def isControl (c : Char) : Bool := c.toNat < 0x20 || (0x7f ≤ c.toNat && c.toNat < 0xa0)

def validateUsername (username : List Char) : Except AuthError Unit :=
  require (!username.isEmpty && utf8Length username ≤ maxUsernameBytes &&
    !username.any isControl) "invalid username"

/-- A nonce consists of printable ASCII characters other than the comma. -/
def nonceValid (nonce : List Char) : Bool := !nonce.isEmpty && utf8Length nonce ≤ maxNonceBytes &&
    nonce.all fun c => 0x21 ≤ c.toNat && c.toNat ≤ 0x7e && c ≠ ','

structure ClientFirst where
  username : List Char
  nonce : List Char
  bare : List Char

/-- Resolve the escapes of a username. -/
def unescape : List Char → Option (List Char)
  | [] => some []
  | '=' :: '2' :: 'C' :: rest => (unescape rest).map (',' :: ·)
  | '=' :: '3' :: 'D' :: rest => (unescape rest).map ('=' :: ·)
  | c :: rest => if c = '=' then none else (unescape rest).map (c :: ·)

def parseClientFirst (data : List Char) : Except AuthError ClientFirst := do
  let full ← decodeAuthData data
  let bare ← orInvalid (full.dropPrefix? gs2Header) "unsupported GS2 header"
  let fields ← orInvalid (splitOnce [',', 'r', '='] bare) "invalid client-first fields"
  let escaped ← orInvalid (fields.1.dropPrefix? ['n', '=']) "invalid client-first username"
  require (nonceValid fields.2 && !escaped.contains ',') "invalid client-first fields"
  let username ← orInvalid (unescape escaped) "invalid SCRAM username escape"
  validateUsername username
  return ⟨username, fields.2, bare⟩

/-! ## The challenge of the server -/

def validateCredentials (credentials : ScramCredentials) : Except AuthError Unit :=
  require (!credentials.salt.isEmpty && credentials.salt.length ≤ 1024 &&
    1 ≤ credentials.iterations && credentials.iterations ≤ maxClientIterations &&
    credentials.storedKey.length = 32 && credentials.serverKey.length = 32)
    "invalid SCRAM credentials"

def serverFirst (nonce : List Char) (salt : List UInt8) (iterations : Nat) : List Char :=
  ['r', '='] ++ nonce ++ [',', 's', '='] ++ standardEncode salt ++
    [',', 'i', '='] ++ decimal iterations

/-- The message of the client without its proof. -/
def withoutProof (nonce : List Char) : List Char :=
  ['c', '=', 'b', 'i', 'w', 's', ',', 'r', '='] ++ nonce

/-- The transcript that both sides sign. -/
def authMessage (bare message nonce : List Char) : List Char :=
  bare ++ [','] ++ message ++ [','] ++ withoutProof nonce

/-- The state in which the server waits for the proof. -/
def startHandshake (primitives : Primitives) (first : ClientFirst)
    (credentials : ScramCredentials)
    (serverNonce : List Char) : ScramHandshake :=
  let combined := first.nonce ++ serverNonce
  let transcript := authMessage first.bare
    (serverFirst combined credentials.salt credentials.iterations) combined
  { username := first.username
    clientNonce := first.nonce
    serverNonce
    salt := credentials.salt
    iterations := credentials.iterations
    authMessage := transcript
    serverSignature := primitives.hmacSha256 credentials.serverKey (utf8Bytes transcript)
    storedKey := credentials.storedKey }

def serverFirstMessage (primitives : Primitives) (username clientFirstData : List Char)
    (credentials : ScramCredentials) (serverNonce : List Char) :
    Except AuthError (ScramHandshake × List Char) := do
  validateCredentials credentials
  let first ← parseClientFirst clientFirstData
  if first.username ≠ username then .error .invalidCredentials
  else
    require (utf8Length first.nonce + utf8Length serverNonce ≤ maxNonceBytes)
      "nonce exceeds limit"
    return (startHandshake primitives first credentials serverNonce,
      encodeAuthData (serverFirst (first.nonce ++ serverNonce) credentials.salt
        credentials.iterations))

structure ServerFirst where
  message : List Char
  nonce : List Char
  salt : List UInt8
  iterations : Nat

/-- `str::parse::<u32>` of digits. -/
def parseU32 (text : List Char) : Option Nat := (parseDecimal text).filter (· ≤ u32Max)

def parseServerFirst (clientNonce data : List Char) : Except AuthError ServerFirst := do
  let message ← decodeAuthData data
  match message.splitOn ',' with
  | [first, second, third] =>
    let nonce ← orInvalid (first.dropPrefix? ['r', '=']) "missing server nonce"
    require (nonceValid nonce && clientNonce.isPrefixOf nonce &&
      utf8Length clientNonce < utf8Length nonce)
      "server nonce does not extend client nonce"
    let salt ← orInvalid (second.dropPrefix? ['s', '=']) "missing salt"
    require (utf8Length salt ≤ 1368) "salt exceeds limit"
    let salt ← orInvalid (standardDecode salt) "invalid salt base64"
    require (!salt.isEmpty && salt.length ≤ 1024) "invalid salt length"
    let iterations ← orInvalid (third.dropPrefix? ['i', '=']) "missing iterations"
    let iterations ← orInvalid (parseU32 iterations) "invalid iterations"
    require (1 ≤ iterations && iterations ≤ maxClientIterations) "iterations exceed bounds"
    return ⟨message, nonce, salt, iterations⟩
  | _ => .error (.invalidMessage "invalid server-first fields")

/-! ## The proof of the client -/

section

variable (primitives : Primitives)

/-- The keys that a client derives for a challenge. -/
def clientKeys (password : List Char) (server : ServerFirst) : Keys := deriveKeys primitives
    (primitives.pbkdf2Sha256 (utf8Bytes password) server.salt server.iterations)

/-- The transcript of the client. -/
def clientTranscript (first : ClientFirst) (server : ServerFirst) : List Char :=
  authMessage first.bare server.message server.nonce

def clientProof (keys : Keys) (transcript : List Char) : List UInt8 := xorBytes keys.clientKey
    (primitives.hmacSha256 keys.storedKey (utf8Bytes transcript))

/-- The proof, and the signature that the server must answer with. -/
def clientFinalMessage (password clientFirstData serverFirstData : List Char) :
    Except AuthError (List Char × List UInt8) := do
  let first ← parseClientFirst clientFirstData
  let server ← parseServerFirst first.nonce serverFirstData
  let keys := clientKeys primitives password server
  let transcript := clientTranscript first server
  return (encodeAuthData (withoutProof server.nonce ++ [',', 'p', '='] ++
      standardEncode (clientProof primitives keys transcript)),
    primitives.hmacSha256 keys.serverKey (utf8Bytes transcript))

def serverVerifyFinal (handshake : ScramHandshake) (data : List Char) :
    Except AuthError (List UInt8) := do
  let message ← decodeAuthData data
  match message.splitOn ',' with
  | [first, second, third] =>
    require (first = ['c', '=', 'b', 'i', 'w', 's']) "invalid client-final fields"
    let nonce ← orInvalid (second.dropPrefix? ['r', '=']) "missing final nonce"
    require (nonce = handshake.clientNonce ++ handshake.serverNonce) "nonce mismatch"
    let proof ← orInvalid (third.dropPrefix? ['p', '=']) "missing proof"
    require (utf8Length proof = 44) "invalid proof length"
    let proof ← orInvalid (standardDecode proof) "invalid proof base64"
    require (proof.length = 32) "invalid proof length"
    let signature := primitives.hmacSha256 handshake.storedKey (utf8Bytes handshake.authMessage)
    if primitives.sha256 (xorBytes proof signature) = handshake.storedKey then
      .ok handshake.serverSignature
    else .error .invalidCredentials
  | _ => .error (.invalidMessage "invalid client-final fields")

end

/-! ## The signature of the server -/

/-- The last message of the server. -/
def serverFinalData (signature : List UInt8) : List Char :=
  encodeAuthData (['v', '='] ++ standardEncode signature)

def verifyServerFinal (data : List Char) (expectedSignature : List UInt8) :
    Except AuthError Unit := do
  let message ← decodeAuthData data
  let signature ← orInvalid (message.dropPrefix? ['v', '=']) "missing server verifier"
  require (utf8Length signature = 44 && expectedSignature.length = 32) "invalid verifier length"
  let signature ← orInvalid (standardDecode signature) "invalid verifier base64"
  if signature.length = 32 ∧ signature = expectedSignature then .ok ()
  else .error .invalidCredentials

end Auth
end Haystack
