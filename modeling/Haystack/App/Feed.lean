import Haystack.App.Sanitize
import Haystack.Collections.Bytes
import Haystack.Collections.Quoted

/-!
# The entity change feed

A caller reads the diffs of a graph page by page.  A page holds the authorized
projections of complete commit units, and a cursor that names its position.  The
cursor is signed for the principal, the scope of its policy, the dataset, the
incarnation of the graph and the generation of its catalog.

The clock and the budget of a request are functions of the point in the request
at which they are read: the clock returns nanoseconds, and the budget the error
with which it ends the request.
-/

namespace Haystack
namespace App

open Collections Haystack.Graph

/-! ## Pages -/

structure ChangesRequest where
  cursor : Option String
  maxDiffs : Nat

/-- The check of `ChangesRequest::to_kind`. -/
def ChangesRequest.isValid (request : ChangesRequest) : Bool :=
  request.maxDiffs ≠ 0 && request.maxDiffs ≤ maxOperations &&
    !request.cursor.any (1024 < ·.utf8ByteSize)

/-- What a policy shows of a diff: nothing of an entity whose identity is
hidden. -/
def PolicySnapshot.diff (policy : PolicySnapshot) (diff : GraphDiff) : Option EntityDiff :=
  if !policy.entity diff.refVal || !policy.tag diff.refVal "id" then none
  else
    let changed := (diff.new.or diff.changedTags).getD .new
    let previous := diff.old.or diff.previousTags
    some {
      revision := diff.version
      span := diff.span
      id := diff.refVal
      operation := diff.op
      changed := (policy.record diff.refVal changed).getD .new
      previous := previous.bind (policy.record diff.refVal) }

/-! ## Cursors -/

def asBytes (text : String) : List UInt8 := text.toUTF8.data.toList

/-- The derived debug text of a principal. -/
def Principal.debug (printable : Char → Bool) : Principal → String
  | .anonymous => "Anonymous"
  | .authenticated subject permissions =>
    "Authenticated \x7b subject: " ++ (String.ofList (quoted printable subject.toList) ++
        (", permissions: " ++ (String.ofList
            (quotedList printable (permissions.map String.toList)) ++
            " \x7d")))
  | .trustedEmbedding subject =>
    "TrustedEmbedding \x7b subject: " ++
      (String.ofList (quoted printable subject.toList) ++ " \x7d")

/-- The dataset, the limits and the key of a service. -/
structure FeedService where
  dataset : BitVec 128
  cursorTtl : Nat
  pageBytes : Nat
  printable : Char → Bool
  hmac : List UInt8 → List UInt8
  length_hmac : ∀ message, (hmac message).length = 32
  codec : Codec

namespace FeedService

variable (service : FeedService)

/-- What the signature of a cursor signs. -/
def macInput (principal : Principal) (scope : String) (bytes : List UInt8) : List UInt8 :=
  let name := asBytes (principal.debug service.printable)
  asBytes "entity-feed-v1\x00typed-v1\x00" ++ bytes ++
    beBytes 8 name.length ++ name ++ asBytes scope

def mac (principal : Principal) (scope : String) (bytes : List UInt8) : List UInt8 :=
  service.hmac (service.macInput principal scope bytes)

/-- The end of the life of a cursor. -/
def expires (clock : Nat) : Nat := min (clock + service.cursorTtl) u64Max

/-- The signed fields of a cursor. -/
def cursorBytes (state : GraphState) (position clock : Nat) : List UInt8 :=
  1 :: (beBytes 16 service.dataset.toNat ++ (beBytes 16 state.incarnation.toNat ++
      (beBytes 8 state.catalogGeneration ++
        (beBytes 8 position ++ beBytes 8 (service.expires clock)))))

def encodeCursor (principal : Principal) (scope : String) (state : GraphState)
    (position clock : Nat) : String :=
  let bytes := service.cursorBytes state position clock
  String.ofList (base64Encode (bytes ++ service.mac principal scope bytes))

/-- `width` bytes of a cursor. -/
def field (bytes : List UInt8) (offset width : Nat) : List UInt8 := (bytes.drop offset).take width

/-- The position of a cursor that is signed for this reader. -/
def decodeCursor (principal : Principal) (scope : String) (state : GraphState) (clock : Nat)
    (cursor : String) : Except ReadError Nat :=
  if cursor.utf8ByteSize > 128 then .error .staleCursor
  else
    match base64Decode cursor.toList with
    | none => .error .staleCursor
    | some bytes =>
      if bytes.length ≠ 89 ∨ bytes.head? ≠ some 1 then .error .staleCursor
      else if service.mac principal scope (bytes.take 57) ≠ bytes.drop 57 then
        .error .staleCursor
      else if field bytes 1 16 ≠ beBytes 16 service.dataset.toNat ∨
          field bytes 17 16 ≠ beBytes 16 state.incarnation.toNat ∨
          beValue (field bytes 33 8) ≠ state.catalogGeneration ∨
          beValue (field bytes 49 8) ≤ clock then
        .error .staleCursor
      else .ok (beValue (field bytes 41 8))

/-! ## Reading a page -/

/-- What the loop over the units has accumulated. -/
structure Progress where
  used : Nat
  encodedBound : Nat
  position : Nat
  changes : List EntityDiff

/-- The reader of a page, and the graph that it reads. -/
structure Reading where
  policy : PolicySnapshot
  principal : Principal
  state : GraphState
  floor : Nat
  maxDiffs : Nat
  clock : Nat → Nat
  interrupt : Nat → Option ReadError

/-- A page at a position. -/
def page (reading : Reading) (position point : Nat)
    (changes : List EntityDiff) : ChangesPage where
  dataset := service.dataset
  incarnation := reading.state.incarnation
  head := reading.state.revision
  floor := reading.floor
  position
  cursor := service.encodeCursor reading.principal reading.policy.scopeKey
    reading.state position (reading.clock point)
  complete := position = reading.state.revision
  changes

/-- The loop over the units.  A unit that would exceed a bound ends it; the first
unit that exceeds a bound on its own is an error. -/
def takeUnits (reading : Reading) : Nat → List ChangeUnit → Progress → Except ReadError Progress
  | _, [], progress => .ok progress
  | point, unit :: units, progress =>
    match reading.interrupt point with
    | some reason => .error reason
    | none =>
      if unit.len > reading.maxDiffs - progress.used then
        if progress.used = 0 then .error .unitTooLarge else .ok progress
      else
        let changes := unit.diffs.filterMap reading.policy.diff
        match service.codec.encodePage (service.page reading unit.span.last point changes) with
        | none => .error .unitTooLarge
        | some encoded =>
          if encoded.length > service.pageBytes then .error .unitTooLarge
          else if encoded.length > service.pageBytes - progress.encodedBound then .ok progress
          else
            takeUnits reading (point + 1) units
              { used := progress.used + unit.len
                encodedBound := progress.encodedBound + encoded.length
                position := unit.span.last
                changes := progress.changes ++ changes }

/-- The page after the units that were taken. -/
def finishPage (reading : Reading) (point : Nat)
    (progress : Progress) : Except ReadError ChangesPage :=
  match reading.interrupt point with
  | some reason => .error reason
  | none =>
    let page := service.page reading progress.position point progress.changes
    match service.codec.encodePage page with
    | none => .error .unitTooLarge
    | some encoded =>
      if encoded.length > service.pageBytes then .error .unitTooLarge
      else .ok page

/-- The position at which a request starts: a missing cursor is the head. -/
def startOf (policy : PolicySnapshot) (principal : Principal) (state : GraphState)
    (clock : Nat) : Option String → Except ReadError Nat
  | some cursor =>
    service.decodeCursor principal policy.scopeKey state clock cursor
  | none => .ok state.revision

/-- The page of the units after a position. -/
def pageAfter (policy : PolicySnapshot) (principal : Principal) (clock : Nat → Nat)
    (interrupt : Nat → Option ReadError) (g : EntityGraph N C)
    (maxDiffs position : Nat) : Except ReadError ChangesPage :=
  match g.changeUnitsSince position with
  | .error _ => .error .staleCursor
  | .ok units =>
    let reading : Reading := ⟨policy, principal, g.state, units.floor, maxDiffs, clock, interrupt⟩
    let collected := units.collect units.log.length
    match service.takeUnits reading 1 collected ⟨0, 0, position, []⟩ with
    | .error reason => .error reason
    | .ok progress =>
      service.finishPage reading (collected.length + 1) progress

/-- One page of the feed. -/
def feedPage (policy : PolicySnapshot) (principal : Principal) (clock : Nat → Nat)
    (interrupt : Nat → Option ReadError) (g : EntityGraph N C)
    (request : ChangesRequest) : Except ReadError ChangesPage :=
  if !request.isValid then
    .error (.invalidQuery "invalid changes request")
  else
    match interrupt 0 with
    | some reason => .error reason
    | none =>
      if !policy.operation .changes then .error .forbidden
      else
        match service.startOf policy principal g.state (clock 0) request.cursor with
        | .error reason => .error reason
        | .ok position =>
          service.pageAfter policy principal clock interrupt g request.maxDiffs position

end FeedService
end App
end Haystack
