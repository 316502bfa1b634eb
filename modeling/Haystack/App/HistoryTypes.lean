import Haystack.App.Types
import Mathlib.Data.Prod.Lex

/-!
# History requests, schemas and outcomes

The values exchanged about the history of a point: operation identities, ordered
samples, the schema that a point declares, receipts and outcomes.  The tables of
units and time zones, and the byte encodings, are parameters.
-/

namespace Haystack

open Std (TransOrd LawfulEqOrd TransCmp)

/-! ## Instants -/

/-- The instant of a datetime: its day, second and fraction in UTC. -/
def DateTime.instant (dt : DateTime) : Int ×ₗ Nat ×ₗ Nat :=
  toLex (dt.date.days, toLex (dt.time.secs, dt.time.frac))

/-- The interchange format can spell the datetime: whole-minute offset, leap
seconds at the end of a minute, and a local year of four digits. -/
def h4DatetimeRepresentable (dt : DateTime) : Bool :=
  let localSecs := dt.time.secs + dt.offset
  let localDays := dt.date.days + localSecs / 86400
  if dt.offset % 60 ≠ 0 || dt.time.frac ≥ 2000000000 ||
      dt.time.frac ≥ 1000000000 && dt.time.secs % 60 ≠ 59 then false
  else
    0 ≤ localDays && localDays < 3652425 && (dt.time.frac < 1000000000 || localSecs % 60 = 59)

namespace App

open Haystack.Graph

/-! ## Requests -/

structure HistoryOperationIdentity where
  authority : BitVec 128
  point : String
  incarnation : BitVec 128
  operationId : String
  deriving DecidableEq

namespace HistoryOperationIdentity

instance : Ord HistoryOperationIdentity where
  compare := compareLex (compareLex (compareOn authority) (compareOn point))
    (compareLex (compareOn incarnation) (compareOn operationId))

instance : TransOrd HistoryOperationIdentity := inferInstanceAs (TransCmp (compareLex
    (compareLex (compareOn authority) (compareOn point))
    (compareLex (compareOn incarnation) (compareOn operationId))))

instance : LawfulEqOrd HistoryOperationIdentity where
  eq_of_compare {left right} same := by
    obtain ⟨first, second⟩ := compareLex_eq_eq.mp same
    obtain ⟨authorities, points⟩ := compareLex_eq_eq.mp first
    obtain ⟨incarnations, operations⟩ := compareLex_eq_eq.mp second
    obtain ⟨authority, point, incarnation, operationId⟩ := left
    obtain rfl : authority = _ := LawfulEqOrd.eq_of_compare authorities
    obtain rfl : point = _ := LawfulEqOrd.eq_of_compare points
    obtain rfl : incarnation = _ := LawfulEqOrd.eq_of_compare incarnations
    obtain rfl : operationId = _ := LawfulEqOrd.eq_of_compare operations
    rfl

/-- The check of `validate_identity`. -/
def isValid (identity : HistoryOperationIdentity) : Bool :=
  !(identity.point.isEmpty || identity.point.utf8ByteSize > 256 ||
    identity.operationId.isEmpty || identity.operationId.utf8ByteSize > 128 ||
    identity.point.toList.any OperationIdentity.isControl ||
    identity.operationId.toList.any OperationIdentity.isControl)

end HistoryOperationIdentity

structure HistorySample where
  ts : HDateTime
  val : Kind

structure HistoryWriteRequest where
  identity : HistoryOperationIdentity
  expectedGeneration : Nat
  samples : List HistorySample

def maxSamples : Nat := 1024

def maxSourceBytes : Nat := 1024 * 1024

def maxReceiptBytes : Nat := 32 * 1024

/-- Charge the timestamp and the value of a sample. -/
def chargeSample (budget : ValueBudget) (sample : HistorySample) : Option ValueBudget :=
  if sample.ts.tzName.utf8ByteSize > 128 then none
  else do
    let budget ← budget.charge 1 (saturatingAdd sample.ts.tzName.utf8ByteSize 128)
    budget.value 0 sample.val

/-- The bytes of the source of a request, when it is within its bounds. -/
def HistoryWriteRequest.sourceBytes (request : HistoryWriteRequest) : Option Nat :=
  if request.identity.isValid = false ∨ request.samples.length > maxSamples then none
  else do
    let budget ← (ValueBudget.new 4000000 maxSourceBytes 16).charge 1
      (1024 + request.identity.point.utf8ByteSize + request.identity.operationId.utf8ByteSize)
    (request.samples.foldlM chargeSample budget).map (·.usedBytes)

/-! ## Schemas -/

inductive HistoryKind
  | bool
  | number
  | str
  deriving DecidableEq

structure HistorySchema where
  kind : HistoryKind
  unit : Option String
  timezone : String
  deriving DecidableEq

/-- The tables of units, by canonical name, and of time zones. -/
structure Tables where
  unitFor : String → Option String
  tzFor : String → Option String
  offsetAt : String → DateTime → Option Int

namespace Tables

variable (tables : Tables)

def validateZone (zone : String) : Except ReadError Unit :=
  if zone = "Rel" || zone.toList.contains '/' || (tables.tzFor zone).isNone then
    .error (.invalidQuery "unsupported H4 history timezone")
  else .ok ()

/-- The kind of samples that a row declares. -/
def schemaKind (row : HDict) : Except ReadError HistoryKind :=
  match row.get "kind" with
  | some (.str "Bool") => .ok .bool
  | some (.str "Number") => .ok .number
  | some (.str "Str") => .ok .str
  | _ => .error .projection

/-- The time zone that a row declares. -/
def schemaZone (row : HDict) : Except ReadError String :=
  match row.get "tz" with
  | some (.str timezone) =>
    if timezone.utf8ByteSize > 128 then
      .error (.invalidQuery "invalid history timezone")
    else (tables.validateZone timezone).map fun _ => timezone
  | _ => .error (.invalidQuery "point requires history timezone")

/-- The unit that a row declares: numbers have one, and nothing else does. -/
def schemaUnit (row : HDict) (kind : HistoryKind) : Except ReadError (Option String) :=
  match row.get "unit" with
  | none => if kind = .number then .error .projection else .ok none
  | some (.str unit) =>
    if kind = .number && unit.utf8ByteSize ≤ 128 &&
        (tables.unitFor unit).isSome then .ok (some unit)
    else .error .projection
  | _ => .error .projection

/-- The history schema of a point. -/
def schema (row : HDict) : Except ReadError HistorySchema :=
  match row.get "his" with
  | some .marker => do
    let kind ← schemaKind row
    let timezone ← tables.schemaZone row
    let unit ← tables.schemaUnit row kind
    .ok { kind, unit, timezone }
  | _ => .error (.invalidQuery "point does not declare history")

/-- The bit pattern of the one NaN that a history may hold. -/
def canonicalNaN : F64 := ⟨0x7FF8000000000000⟩

def validNumber (number : Number) (schema : HistorySchema) : Bool :=
  match number.unit with
  | none => !number.val.isNaN || number.val = canonicalNaN
  | some unit =>
    !number.val.isNaN && match schema.unit.bind tables.unitFor, tables.unitFor unit with
      | some point, some sample => point = sample
      | _, _ => false

def validValue (value : Kind) (schema : HistorySchema) : Bool :=
  match value, schema.kind with
  | .na, _ => true
  | .bool _, .bool => true
  | .str _, .str => true
  | .number number, .number => tables.validNumber number schema
  | _, _ => false

end Tables

/-! ## Outcomes -/

structure HistoryState where
  authority : BitVec 128
  incarnation : BitVec 128
  generation : Nat
  deriving DecidableEq

structure HistoryWriteReceipt where
  identity : HistoryOperationIdentity
  beforeGeneration : Nat
  afterGeneration : Nat
  changeSequence : Nat
  submittedSamples : Nat
  uniqueSamples : Nat
  retainedSamples : Nat
  evictedSamples : Nat
  qualification : ReceiptQualification
  deriving DecidableEq

inductive HistoryWriteRejection
  | invalid
  | emptyBatch
  | forbidden
  | conflict
  | unsupported
  | capacity
  | limit
  | cancelled
  | deadline
  | provider
  deriving DecidableEq

inductive HistoryWriteOutcome
  | committed (receipt : HistoryWriteReceipt)
  | rejected (identity : HistoryOperationIdentity) (reason : HistoryWriteRejection)
  | unknown (identity : HistoryOperationIdentity) (cause : UnknownCause)
  deriving DecidableEq

namespace HistoryWriteOutcome

def identity : HistoryWriteOutcome → HistoryOperationIdentity
  | .committed receipt => receipt.identity
  | .rejected identity _ => identity
  | .unknown identity _ => identity

def isUnknown : HistoryWriteOutcome → Bool
  | .unknown .. => true
  | _ => false

def isPending : HistoryWriteOutcome → Bool
  | .unknown _ .pending => true
  | _ => false

end HistoryWriteOutcome

/-- The byte encodings of the exchanged values, which may refuse a value.  The
bytes of a request determine it. -/
structure HistoryCodec where
  encodeRequest : HistoryWriteRequest → Option (List UInt8)
  encodeOutcome : HistoryWriteOutcome → Option (List UInt8)
  encodeRequest_injective : ∀ {left right bytes},
    encodeRequest left = some bytes → encodeRequest right = some bytes →
    left = right

/-- The canonical bytes of a request, whose source is checked first. -/
def HistoryCodec.canonicalRequest (codec : HistoryCodec)
    (request : HistoryWriteRequest) : Option (List UInt8) :=
  match request.sourceBytes with
  | none => none
  | some _ => codec.encodeRequest request

end App
end Haystack
