import Haystack.App.HistoryTypes
import Haystack.Collections.Series

/-!
# The history store in memory

One history authority: the series of its points, the bounded ledger of changes,
and the receipts of its operations.  A series keeps the latest samples only, at
most so many, and remembers up to which instant it has evicted samples.

Reservations of memory may fail, and an incarnation is drawn for each new
series; a `Draw` says what they were.
-/

namespace Haystack
namespace App

open Std (ExtTreeMap TransOrd LawfulEqOrd TransCmp)
open Collections

/-! ## Series -/

structure HisItem where
  ts : DateTime
  val : Kind

namespace HisItem

def instant (item : HisItem) : Int ×ₗ Nat ×ₗ Nat := item.ts.instant

end HisItem

structure Series where
  incarnation : BitVec 128
  generation : Nat
  items : List HisItem
  evicted : Option DateTime

namespace Series

/-- A new series under a drawn incarnation. -/
def new (incarnation : BitVec 128) : Series := ⟨incarnation, 0, [], none⟩

/-- The instant up to which samples are evicted: the later one of the two, and
the new one when they are equal. -/
def evictedThrough (old : Option DateTime) (through : DateTime) : DateTime :=
  match old with
  | none => through
  | some old => if through.instant < old.instant then old else through

/-- The number of items above the capacity. -/
def excess (series : Series) (capacity : Nat) : Nat := series.items.length - capacity

/-- Evict the oldest items above the capacity. -/
def trim (series : Series) (capacity : Nat) : Series :=
  let excess := series.excess capacity
  if excess = 0 then series
  else
    { series with
      evicted := (series.items[excess - 1]?).map fun through =>
        evictedThrough series.evicted through.ts
      items := series.items.drop excess }

/-- The series with these samples written, before it is trimmed. -/
def merge (series : Series) (items : List HisItem) : Series :=
  { series with items := items.foldl (upsert HisItem.instant) series.items }

end Series

/-! ## The store -/

inductive HistoryProviderError
  | changed
  | stopped
  | limit
  | failed
  | exhausted
  | unsupported
  deriving DecidableEq

structure HistoryStoreLimits where
  maxItemsPerPoint : Nat
  maxPoints : Nat
  receiptCapacity : Nat
  receiptBytes : Nat
  changeCapacity : Nat

namespace HistoryStoreLimits

def maxItemsPerSeries : Nat := 1000000

def default : HistoryStoreLimits where
  maxItemsPerPoint := maxItemsPerSeries
  maxPoints := 4096
  receiptCapacity := 1024
  receiptBytes := 64 * 1024 * 1024
  changeCapacity := 4096

/-- The check of `HisStore::with_limits`. -/
def validate (limits : HistoryStoreLimits) : Except HistoryProviderError Unit :=
  if limits.maxItemsPerPoint = 0 ∨ limits.maxItemsPerPoint > maxItemsPerSeries ∨
      limits.maxPoints = 0 ∨ limits.maxPoints > 100000 ∨
      limits.receiptCapacity = 0 ∨ limits.receiptCapacity > 100000 ∨
      limits.receiptBytes = 0 ∨ limits.receiptBytes > 256 * 1024 * 1024 ∨
      limits.changeCapacity = 0 ∨ limits.changeCapacity > 100000 then
    .error .limit
  else .ok ()

example : default.validate = .ok () := by decide

end HistoryStoreLimits

/-- One publication in the ledger of changes. -/
structure HistoryChangeRecord where
  sequence : Nat
  point : String
  before : HistoryState
  after : HistoryState
  submittedSamples : Nat
  uniqueSamples : Nat
  retainedSamples : Nat
  evictedSamples : Nat
  evictedThrough : Option DateTime
  operation : Option HistoryOperationIdentity
  deriving DecidableEq

/-- What a receipt is bound to. -/
structure HistoryBinding where
  principal : PrincipalKey
  identity : HistoryOperationIdentity
  deriving DecidableEq

namespace HistoryBinding

instance : Ord HistoryBinding where
  compare := compareLex (compareOn principal) (compareOn identity)

instance : TransOrd HistoryBinding := inferInstanceAs (TransCmp (compareLex (compareOn principal)
    (compareOn identity)))

instance : LawfulEqOrd HistoryBinding where
  eq_of_compare {left right} same := by
    obtain ⟨principals, identities⟩ := compareLex_eq_eq.mp same
    obtain ⟨principal, identity⟩ := left
    obtain rfl : principal = _ := LawfulEqOrd.eq_of_compare principals
    obtain rfl : identity = _ := LawfulEqOrd.eq_of_compare identities
    rfl

end HistoryBinding

structure HistoryRecord where
  canonical : List UInt8
  request : HistoryWriteRequest
  outcome : HistoryWriteOutcome

/-- A history authority. -/
structure HisStore where
  authority : BitVec 128
  limits : HistoryStoreLimits
  points : ExtTreeMap String Series
  receipts : ExtTreeMap HistoryBinding HistoryRecord
  receiptBytes : Nat
  changes : List HistoryChangeRecord
  sequence : Nat

/-- The incarnation drawn for a new series, and the memory reservations that
succeed. -/
structure Draw where
  incarnation : BitVec 128
  point : Bool
  items : Bool

namespace HisStore

/-- A store without points, under a drawn authority. -/
def new (limits : HistoryStoreLimits) (authority : BitVec 128) : HisStore where
  authority := authority
  limits := limits
  points := ∅
  receipts := ∅
  receiptBytes := 0
  changes := []
  sequence := 0

def withLimits (limits : HistoryStoreLimits) (authority : BitVec 128) :
    Except HistoryProviderError HisStore :=
  limits.validate.map fun _ => new limits authority

/-- The series of a point, which is created if there is none. -/
def pointIn (s : HisStore) (id : String) (draw : Draw) :
    Except HistoryProviderError (HisStore × Series) :=
  if id.isEmpty || id.utf8ByteSize > 256 then .error .limit
  else
    match s.points[id]? with
    | some series => .ok (s, series)
    | none =>
      if s.points.size ≥ s.limits.maxPoints then .error .limit
      else if !draw.point then .error .limit
      else
        .ok ({ s with points := s.points.insert id (.new draw.incarnation) },
          .new draw.incarnation)

def seriesState (s : HisStore) (series : Series) : HistoryState :=
  ⟨s.authority, series.incarnation, series.generation⟩

/-- Append a change to the bounded ledger. -/
def appendChange (s : HisStore) (change : HistoryChangeRecord) : HisStore :=
  { s with
    changes := (if s.changes.length = s.limits.changeCapacity then s.changes.drop 1
        else s.changes) ++ [change]
    sequence := change.sequence }

/-- Replace the series of a point and record the change. -/
def replace (s : HisStore) (id : String) (series : Series)
    (change : HistoryChangeRecord) : HisStore :=
  { s with points := s.points.insert id series }.appendChange change

/-- Observe a point, which may create its series. -/
def state (s : HisStore) (id : String) (draw : Draw) :
    HisStore × Except HistoryProviderError HistoryState :=
  match s.pointIn id draw with
  | .error error => (s, .error error)
  | .ok (s, series) => (s, .ok (s.seriesState series))

/-- The change that a reset of a series records. -/
def resetChange (s : HisStore) (id : String) (sequence : Nat)
    (series next : Series) : HistoryChangeRecord where
  sequence := sequence
  point := id
  before := s.seriesState series
  after := s.seriesState next
  submittedSamples := 0
  uniqueSamples := 0
  retainedSamples := 0
  evictedSamples := series.items.length
  evictedThrough := series.items.getLast?.map (·.ts)
  operation := none

/-- Start the series of a point anew, under the drawn incarnation. -/
def resetPoint (s : HisStore) (id : String) (draw : Draw) (incarnation : BitVec 128) :
    HisStore × Except HistoryProviderError HistoryState :=
  match checkedAdd u64Max s.sequence 1 with
  | none => (s, .error .exhausted)
  | some sequence =>
    match s.pointIn id draw with
    | .error error => (s, .error error)
    | .ok (s, series) =>
      let next := Series.new incarnation
      (s.replace id next (s.resetChange id sequence series next), .ok (s.seriesState next))

/-- The series after a native write. -/
def written (s : HisStore) (series : Series) (generation : Nat) (items : List HisItem) : Series :=
  { (series.merge items).trim s.limits.maxItemsPerPoint with generation }

/-- The change that a native write records. -/
def writeChange (s : HisStore) (id : String) (sequence : Nat) (series next : Series)
    (items : List HisItem) : HistoryChangeRecord where
  sequence := sequence
  point := id
  before := s.seriesState series
  after := s.seriesState next
  submittedSamples := items.length
  uniqueSamples := (keys HisItem.instant items).card
  retainedSamples := next.items.length
  evictedSamples := (series.merge items).excess s.limits.maxItemsPerPoint
  evictedThrough := next.evicted
  operation := none

/-- A native write of samples to a point. -/
def write (s : HisStore) (id : String) (items : List HisItem) (draw : Draw) :
    HisStore × Except HistoryProviderError Unit :=
  if items.isEmpty then (s, .ok ())
  else
    match checkedAdd u64Max s.sequence 1 with
    | none => (s, .error .exhausted)
    | some sequence =>
      match s.pointIn id draw with
      | .error error => (s, .error error)
      | .ok (s, series) =>
        match checkedAdd u64Max series.generation 1 with
        | none => (s, .error .exhausted)
        | some generation =>
          if !draw.items then (s, .error .limit)
          else
            let next := s.written series generation items
            (s.replace id next (s.writeChange id sequence series next items), .ok ())

/-! ## Runs of native commands -/

inductive HisCommand
  | state (id : String) (draw : Draw)
  | resetPoint (id : String) (draw : Draw) (incarnation : BitVec 128)
  | write (id : String) (items : List HisItem) (draw : Draw)

def step (s : HisStore) : HisCommand → HisStore
  | .state id draw => (s.state id draw).1
  | .resetPoint id draw incarnation => (s.resetPoint id draw incarnation).1
  | .write id items draw => (s.write id items draw).1

end HisStore
end App
end Haystack
