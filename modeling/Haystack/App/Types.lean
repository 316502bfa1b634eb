import Haystack.Graph.Prepared

/-!
# Requests, receipts and outcomes

The values that callers of the application exchange with it: principals, the
identities of operations, batches of entity operations, and the receipts and
outcomes that answer them.  Byte strings of sixteen bytes are `BitVec 128`.
-/

namespace Haystack
namespace App

open Std (TransOrd LawfulEqOrd TransCmp)
open Haystack.Graph

/-! ## Callers -/

/-- A caller, with the permissions that its authentication carries. -/
inductive Principal
  | anonymous
  | authenticated (subject : String) (permissions : List String)
  | trustedEmbedding (subject : String)
  deriving DecidableEq

def Principal.bytes : Principal → Nat
  | .anonymous => 1
  | .authenticated subject permissions =>
    permissions.foldl (fun n permission =>
      saturatingAdd (saturatingAdd n permission.utf8ByteSize) 32)
      subject.utf8ByteSize
  | .trustedEmbedding subject => subject.utf8ByteSize

/-- The part of a principal that owns receipts: permissions do not matter. -/
inductive PrincipalKey
  | anonymous
  | authenticated (subject : String)
  | embedding (subject : String)
  deriving DecidableEq

def Principal.key : Principal → PrincipalKey
  | .anonymous => .anonymous
  | .authenticated subject _ => .authenticated subject
  | .trustedEmbedding subject => .embedding subject

namespace PrincipalKey

def rank : PrincipalKey → Nat
  | .anonymous => 0
  | .authenticated _ => 1
  | .embedding _ => 2

def subject : PrincipalKey → String
  | .anonymous => ""
  | .authenticated subject => subject
  | .embedding subject => subject

instance : Ord PrincipalKey where
  compare := compareLex (compareOn rank) (compareOn subject)

instance : TransOrd PrincipalKey :=
  inferInstanceAs (TransCmp (compareLex (compareOn rank) (compareOn subject)))

instance : LawfulEqOrd PrincipalKey where
  eq_of_compare {left right} same := by
    obtain ⟨ranks, subjects⟩ := compareLex_eq_eq.mp same
    have ranks : left.rank = right.rank := Std.LawfulEqOrd.eq_of_compare ranks
    have subjects : left.subject = right.subject := Std.LawfulEqOrd.eq_of_compare subjects
    cases left <;> cases right <;> simp_all [rank, subject]

end PrincipalKey

/-! ## Failures of requests -/

inductive BudgetKind
  | input
  | ids
  | ast
  | candidates
  | forward
  | inverse
  | values
  | work
  | retained
  | depth
  | rows
  | output
  | regex
  deriving DecidableEq

inductive ReadError
  | notReady
  | closed
  | invalidQuery (message : String)
  | unavailable
  | forbidden
  | staleCursor
  | unitTooLarge
  | capacity
  | cancelled
  | deadline
  | budget (kind : BudgetKind)
  | projection
  | invalidLimits
  deriving DecidableEq

/-! ## Entity batches -/

/-- The identity of an operation: the name its caller gave it, the dataset and
the incarnation of the graph that it is about. -/
structure OperationIdentity where
  operationId : String
  dataset : BitVec 128
  incarnation : BitVec 128
  deriving DecidableEq

namespace OperationIdentity

instance : Ord OperationIdentity where
  compare := compareLex (compareOn operationId)
    (compareLex (compareOn dataset) (compareOn incarnation))

instance : TransOrd OperationIdentity :=
  inferInstanceAs (TransCmp (compareLex (compareOn operationId)
    (compareLex (compareOn dataset) (compareOn incarnation))))

instance : LawfulEqOrd OperationIdentity where
  eq_of_compare {left right} same := by
    obtain ⟨operations, rest⟩ := compareLex_eq_eq.mp same
    obtain ⟨datasets, incarnations⟩ := compareLex_eq_eq.mp rest
    obtain ⟨operationId, dataset, incarnation⟩ := left
    obtain rfl : operationId = _ := Std.LawfulEqOrd.eq_of_compare operations
    obtain rfl : dataset = _ := Std.LawfulEqOrd.eq_of_compare datasets
    obtain rfl : incarnation = _ := Std.LawfulEqOrd.eq_of_compare incarnations
    rfl

/-- `char::is_control`. -/
def isControl (c : Char) : Bool := c.toNat < 32 || 127 ≤ c.toNat && c.toNat < 160

/-- The check of `identity_kind`. -/
def isValid (identity : OperationIdentity) : Bool :=
  !identity.operationId.isEmpty && identity.operationId.utf8ByteSize ≤ 128 &&
    !identity.operationId.toList.any isControl

end OperationIdentity

structure EntityBatchRequest where
  identity : OperationIdentity
  expectedRevision : Nat
  operations : List EntityOperation

def maxOperations : Nat := 128

def maxPayloadBytes : Nat := 1048576

/-- Charge the target and the rows of an operation. -/
def chargeOperation (budget : ValueBudget) (operation : EntityOperation) : Option ValueBudget :=
  match operation.target with
  | .error _ => none
  | .ok id =>
    if id.isEmpty || id.utf8ByteSize > 1024 then none
    else do
      let budget ← budget.charge (saturatingAdd id.utf8ByteSize 1)
        (saturatingAdd id.utf8ByteSize 1024)
      match operation with
      | .add row => budget.dict row 1
      | .patch _ changes => budget.dict changes 1
      | .remove _ => some budget

/-- The bytes of the source of a request, when it is within its bounds. -/
def EntityBatchRequest.sourceBytes (request : EntityBatchRequest) : Option Nat :=
  if request.operations.isEmpty ∨ request.operations.length > maxOperations ∨
      request.identity.isValid = false then none
  else
    (request.operations.foldlM chargeOperation
      (ValueBudget.new 100000 (4 * maxPayloadBytes) 48)).map (·.usedBytes)

/-! ## Outcomes -/

inductive ReceiptQualification
  | ephemeralMemory
  | providerProtocol
  | postgresDurable
  | sqliteDurable
  deriving DecidableEq

structure EntityReceipt where
  identity : OperationIdentity
  beforeRevision : Nat
  afterRevision : Nat
  span : Option CommitSpan
  qualification : ReceiptQualification
  deriving DecidableEq

inductive RejectionReason
  | invalid
  | forbidden
  | conflict
  | capacity
  | limit
  | cancelled
  | deadline
  | provider
  deriving DecidableEq

inductive UnknownCause
  | missing
  | pending
  | provider
  | transport
  | invalidAcknowledgement
  deriving DecidableEq

inductive MutationOutcome
  | committed (receipt : EntityReceipt)
  | rejected (identity : OperationIdentity) (reason : RejectionReason)
  | unknown (identity : OperationIdentity) (cause : UnknownCause)
  deriving DecidableEq

namespace MutationOutcome

def identity : MutationOutcome → OperationIdentity
  | .committed receipt => receipt.identity
  | .rejected identity _ => identity
  | .unknown identity _ => identity

def isUnknown : MutationOutcome → Bool
  | .unknown .. => true
  | _ => false

end MutationOutcome

/-! ## The feed of changes -/

structure EntityDiff where
  revision : Nat
  span : CommitSpan
  id : String
  operation : DiffOp
  changed : HDict
  previous : Option HDict

structure ChangesPage where
  dataset : BitVec 128
  incarnation : BitVec 128
  head : Nat
  floor : Nat
  position : Nat
  cursor : String
  complete : Bool
  changes : List EntityDiff

/-- A diff of the log, with nothing hidden. -/
def rawDiff (diff : GraphDiff) : EntityDiff where
  revision := diff.version
  span := diff.span
  id := diff.refVal
  operation := diff.op
  changed := (diff.new.or diff.changedTags).getD HDict.new
  previous := diff.old.or diff.previousTags

/-- The byte encodings of the exchanged values, which may refuse a value. -/
structure Codec where
  encodeBatch : EntityBatchRequest → Option (List UInt8)
  encodeOutcome : MutationOutcome → Option (List UInt8)
  encodePage : ChangesPage → Option (List UInt8)

/-- The canonical bytes of a request, whose source is checked first. -/
def Codec.encodeRequest (codec : Codec) (request : EntityBatchRequest) : Option (List UInt8) :=
  match request.sourceBytes with
  | none => none
  | some _ => codec.encodeBatch request

end App
end Haystack
