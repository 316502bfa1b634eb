import Haystack.App.Types
import Haystack.Auth.Scram

/-!
# The authentication manager

The tables of handshakes and bearer tokens.  One lock makes a request one step: it
sweeps what has expired and then does its own work at one reading of the clock.
The random tokens and nonces are arguments of the requests; a token that was drawn
before is not drawn again.
-/

namespace Haystack
namespace Server

open Std (ExtTreeMap)
open Collections Haystack.Auth
open Haystack.App (Principal)

structure AuthUser where
  username : List Char
  permissions : List String
  deriving DecidableEq

structure UserRecord where
  credentials : ScramCredentials
  permissions : List String

structure AuthLimits where
  maxHandshakes : Nat
  maxTokens : Nat
  handshakeTtl : Nat

inductive AuthFailure
  | rejected
  | capacity
  deriving DecidableEq

inductive Phase
  | awaitFirst (username : List Char)
  | awaitFinal (handshake : ScramHandshake)
  deriving DecidableEq

/-- A session object, which the records of tokens name by its place. -/
structure Session where
  principal : Principal
  expires : Nat
  closed : Bool

structure TokenRecord where
  user : AuthUser
  session : Nat

/-- The configuration of a manager.  `instantMax` is the last instant that the
clock can represent. -/
structure AuthManager where
  primitives : Primitives
  users : ExtTreeMap String UserRecord
  tokenTtl : Nat
  limits : AuthLimits
  serverSecret : List UInt8
  instantMax : Nat

structure AuthState where
  handshakes : ExtTreeMap String (Phase × Nat)
  tokens : ExtTreeMap String TokenRecord
  sessions : List Session
  drawn : List String
  now : Nat

def AuthState.initial (now : Nat) : AuthState := ⟨∅, ∅, [], [], now⟩

/-! ## Requests -/

inductive AuthRequest
  | hello (username : List Char) (draw : String)
  | scram (token : Option String) (data : List Char) (draw : String) (nonce : List Char)
  | validate (token : String)
  | revoke (token : String)
  | sweep
  | closeSession (session : Nat)
  | tick (elapsed : Nat)

inductive AuthAnswer
  | discovery (token : String)
  | challenge (token : String) (data : List Char)
  | authenticated (token : String) (data : List Char)
  | failed (failure : AuthFailure)
  | user (user : Option AuthUser)
  | revoked (found : Bool)
  | done

def formatWwwAuthenticate (handshakeToken : Option String) (data : Option String) : String :=
  let value := "SCRAM hash=SHA-256"
  let value := match handshakeToken with
    | some token => value ++ ", handshakeToken=" ++ token
    | none => value
  match data with
  | some data => value ++ ", data=" ++ data
  | none => value

def formatAuthInfo (authToken data : String) : String :=
  "authToken=" ++ authToken ++ ", hash=SHA-256, data=" ++ data

/-- The header that carries an answer. -/
def AuthAnswer.header : AuthAnswer → Option String
  | .discovery token => some (formatWwwAuthenticate (some token) none)
  | .challenge token data =>
    some (formatWwwAuthenticate (some token) (some (String.ofList data)))
  | .authenticated token data =>
    some (formatAuthInfo token (String.ofList data))
  | _ => none

namespace AuthManager

variable (manager : AuthManager)

/-! ## Credentials -/

def fakeKey (domain : String) (username : List Char) : List UInt8 :=
  manager.primitives.hmacSha256 manager.serverSecret
    (utf8Bytes domain.toList ++ [0] ++ utf8Bytes username)

/-- The credentials that an unknown user is challenged with. -/
def fakeCredentials (username : List Char) : ScramCredentials where
  salt := (manager.fakeKey "salt" username).take 16
  iterations := defaultIterations
  storedKey := manager.primitives.sha256 (manager.fakeKey "client-key" username)
  serverKey := manager.fakeKey "server-key" username

def user (username : List Char) : Option UserRecord := manager.users[String.ofList username]?

def credentials (username : List Char) : ScramCredentials :=
  match manager.user username with
  | some record => record.credentials
  | none => manager.fakeCredentials username

/-! ## Sweeping -/

/-- A session is in use. -/
def isActive (s : AuthState) (record : TokenRecord) : Bool :=
  s.sessions[record.session]?.any fun session =>
    !session.closed && s.now < session.expires

def closeSessions (ended : List Nat) (sessions : List Session) : List Session :=
  sessions.mapIdx fun index session =>
    if index ∈ ended then { session with closed := true } else session

def sweep (s : AuthState) : AuthState :=
  let ended := (s.tokens.toList.filter fun entry => !isActive s entry.2).map
    fun entry => entry.2.session
  { s with
    handshakes := retain (fun _ entry =>
      s.now - entry.2 < manager.limits.handshakeTtl) s.handshakes
    tokens := retain (fun _ record => isActive s record) s.tokens
    sessions := closeSessions ended s.sessions }

/-! ## Handshakes -/

def hello (s : AuthState) (username : List Char) (draw : String) : AuthState × AuthAnswer :=
  if validateUsername username ≠ .ok () then (s, .failed .rejected)
  else
    let s := manager.sweep s
    if s.handshakes.size ≥ manager.limits.maxHandshakes then
      (s, .failed .capacity)
    else
      ({ s with
        handshakes := s.handshakes.insert draw (.awaitFirst username, s.now) },
        .discovery draw)

/-- The permissions of a principal, in order and without duplicates. -/
def permissions (user : AuthUser) : List String := (user.permissions.insertionSort (· ≤ ·)).dedup

def principal (user : AuthUser) : Principal :=
  .authenticated (String.ofList user.username) (permissions user)

/-- A new session, unless its end or its principal is out of bounds. -/
def issueSession (now : Nat) (user : AuthUser) : Except AuthFailure Session :=
  match checkedAdd manager.instantMax now manager.tokenTtl with
  | none => .error .rejected
  | some expires =>
    if expires ≤ now then .error .rejected
    else if (permissions user).length > 1024 ∨ (principal user).bytes > 65536 then
      .error .rejected
    else .ok ⟨principal user, expires, false⟩

/-- A client-first message replaces its token by the drawn one. -/
def receiveFirst (s : AuthState) (username : List Char) (created : Nat) (data : List Char)
    (draw : String)
    (nonce : List Char) : AuthState × AuthAnswer :=
  match serverFirstMessage manager.primitives username data
      (manager.credentials username) nonce with
  | .error _ => (s, .failed .rejected)
  | .ok (handshake, data) =>
    ({ s with
      handshakes := s.handshakes.insert draw (.awaitFinal handshake, created) },
      .challenge draw data)

/-- A valid proof of a registered user is answered with a bearer token. -/
def receiveFinal (s : AuthState) (handshake : ScramHandshake) (data : List Char)
    (draw : String) : AuthState × AuthAnswer :=
  match serverVerifyFinal manager.primitives handshake data with
  | .error _ => (s, .failed .rejected)
  | .ok signature =>
    match manager.user handshake.username with
    | none => (s, .failed .rejected)
    | some record =>
      if s.tokens.size ≥ manager.limits.maxTokens then
        (s, .failed .capacity)
      else
        let user : AuthUser := ⟨handshake.username, record.permissions⟩
        match manager.issueSession s.now user with
        | .error failure => (s, .failed failure)
        | .ok session =>
          ({ s with
            tokens := s.tokens.insert draw ⟨user, s.sessions.length⟩
            sessions := s.sessions ++ [session] },
            .authenticated draw (serverFinalData signature))

def scram (s : AuthState) (token : Option String) (data : List Char) (draw : String)
    (nonce : List Char) : AuthState × AuthAnswer :=
  match token with
  | none => (s, .failed .rejected)
  | some token =>
    let s := manager.sweep s
    match s.handshakes[token]? with
    | none => (s, .failed .rejected)
    | some (phase, created) =>
      let s := { s with handshakes := s.handshakes.erase token }
      match phase with
      | .awaitFirst username =>
        manager.receiveFirst s username created data draw nonce
      | .awaitFinal handshake => manager.receiveFinal s handshake data draw

/-! ## Tokens -/

def validate (s : AuthState) (token : String) : AuthState × AuthAnswer :=
  let s := manager.sweep s
  (s, .user (s.tokens[token]?.map (·.user)))

def revoke (s : AuthState) (token : String) : AuthState × AuthAnswer :=
  match s.tokens[token]? with
  | none => (s, .revoked false)
  | some record =>
    ({ s with
      tokens := s.tokens.erase token
      sessions := closeSessions [record.session] s.sessions },
      .revoked true)

/-! ## Runs -/

/-- A drawn token is new. -/
def draws (s : AuthState) (draw : String) (work : AuthState × AuthAnswer) :
    AuthState × AuthAnswer :=
  if draw ∈ s.drawn then (s, .done)
  else ({ work.1 with drawn := draw :: s.drawn }, work.2)

/-- One request. -/
def serve (s : AuthState) : AuthRequest → AuthState × AuthAnswer
  | .hello username draw => draws s draw (manager.hello s username draw)
  | .scram token data draw nonce =>
    draws s draw (manager.scram s token data draw nonce)
  | .validate token => manager.validate s token
  | .revoke token => revoke s token
  | .sweep => (manager.sweep s, .done)
  | .closeSession session =>
    ({ s with sessions := closeSessions [session] s.sessions }, .done)
  | .tick elapsed => ({ s with now := s.now + elapsed }, .done)

/-- A request that was served, and the state that it met. -/
structure Turn where
  before : AuthState
  request : AuthRequest
  answer : AuthAnswer

/-- Serve a request and note it. -/
def take (run : List Turn × AuthState) (request : AuthRequest) : List Turn × AuthState :=
  let (s, answer) := manager.serve run.2 request
  (run.1 ++ [⟨run.2, request, answer⟩], s)

/-- The requests that were served, and the last state. -/
def run (now : Nat) (requests : List AuthRequest) : List Turn × AuthState :=
  requests.foldl manager.take ([], .initial now)

end AuthManager
end Server
end Haystack
