import Haystack.Graph.Size
import Haystack.Collections.UnitLog

/-!
# Changelog

The retained mutations of a graph.  The log is bounded by a number of entries and
by a number of bytes; when a bound is exceeded, complete commit units are evicted
from the front and the floor advances to the last evicted revision.
-/

namespace Haystack
namespace Graph

open Collections

instance lawfulBEqIdentity : LawfulBEq (BitVec 128) := inferInstance

instance transOrdIdentity : Std.TransOrd (BitVec 128) := inferInstance

def defaultChangelogCapacity : Nat := 50000

def defaultChangelogBytes : Nat := 64 * 1024 * 1024

/-- The revisions of one commit unit. -/
@[ext] structure CommitSpan where
  first : Nat
  last : Nat
  deriving DecidableEq, Repr

def CommitSpan.singleton (version : Nat) : CommitSpan := ⟨version, version⟩

/-- Identity of a graph: instance, entity revision and catalog generation. -/
structure GraphState where
  incarnation : BitVec 128
  revision : Nat
  catalogGeneration : Nat
  deriving DecidableEq, Repr

inductive DiffOp
  | add
  | update
  | remove
  deriving DecidableEq, Repr

/-- One recorded mutation. -/
structure GraphDiff where
  version : Nat
  span : CommitSpan
  retainedBytes : Nat
  timestamp : Int
  op : DiffOp
  refVal : String
  old : Option HDict
  new : Option HDict
  changedTags : Option HDict
  previousTags : Option HDict

/-- A requested version lies below the floor. -/
structure ChangelogGap where
  subscriberVersion : Nat
  floorVersion : Nat
  deriving DecidableEq, Repr

inductive ChangeCursorError
  | gap (gap : ChangelogGap)
  | future (head : Nat)
  | insideUnit (span : CommitSpan)
  deriving DecidableEq, Repr

/-- The log fields of a graph. -/
structure Changelog where
  entries : List GraphDiff
  capacity : Nat
  byteCapacity : Nat
  bytes : Nat
  floorVersion : Nat

namespace Changelog

/-- One of the two bounds is exceeded. -/
def isOver (log : Changelog) : Bool :=
  log.entries.length > log.capacity || log.bytes > log.byteCapacity

/-- The inner loop of an eviction: pop the entries up to a revision. -/
def popThrough (last : Nat) : List GraphDiff → Nat → List GraphDiff × Nat
  | [], bytes => ([], bytes)
  | diff :: rest, bytes =>
    if diff.version ≤ last then popThrough last rest (bytes - diff.retainedBytes)
    else (diff :: rest, bytes)

/-- Evict the unit that ends at a revision. -/
def evictUnit (log : Changelog) (last : Nat) : Changelog :=
  let (entries, bytes) := popThrough last log.entries log.bytes
  { log with entries, bytes, floorVersion := last }

/-- The outer loop of an eviction, with `fuel` iterations left. -/
def evict : Nat → Changelog → Changelog
  | 0, log => log
  | fuel + 1, log =>
    if log.isOver then
      match log.entries with
      | [] => log
      | front :: _ => evict fuel (log.evictUnit front.span.last)
    else log

/-- Append a complete unit, then evict complete oldest units. -/
def appendCommittedUnit
    (log : Changelog) (now : Int)
    (diffs : List GraphDiff) : Changelog :=
  let entries := log.entries ++ diffs.map ({ · with timestamp := now })
  evict entries.length { log with
      entries
      bytes := log.bytes + (diffs.map (·.retainedBytes)).sum }

/-- A native write that is too large to retain clears the log. -/
def nativeGap (log : Changelog) (version : Nat) : Changelog :=
  { log with entries := [], bytes := 0, floorVersion := version }

/-- The entries after a version. -/
def changesSince (log : Changelog) (version : Nat) :
    Except ChangelogGap (List GraphDiff) :=
  if log.floorVersion > 0 ∧ version < log.floorVersion then
    .error ⟨version, log.floorVersion⟩
  else
    let start := (log.entries.takeWhile (·.version ≤ version)).length
    .ok (log.entries.drop start)

end Changelog

/-! ## Complete units -/

/-- One complete unit of a log. -/
structure ChangeUnit where
  span : CommitSpan
  log : List GraphDiff
  start : Nat
  stop : Nat

def ChangeUnit.len (unit : ChangeUnit) : Nat := unit.stop - unit.start

/-- The diffs of a unit. -/
def ChangeUnit.diffs (unit : ChangeUnit) : List GraphDiff :=
  (unit.log.drop unit.start).take (unit.stop - unit.start)

/-- An iterator over the complete units of a log. -/
structure ChangeUnits where
  state : GraphState
  floor : Nat
  log : List GraphDiff
  next : Nat

namespace ChangeUnits

/-- Advance the iterator by the length of the span at its position. -/
def step (units : ChangeUnits) : Option (ChangeUnit × ChangeUnits) :=
  (units.log[units.next]?).map fun first =>
    let count := first.span.last - first.span.first + 1
    (⟨first.span, units.log, units.next, units.next + count⟩,
      { units with next := units.next + count })

/-- The units yielded in `fuel` steps. -/
def collect : Nat → ChangeUnits → List ChangeUnit
  | 0, _ => []
  | fuel + 1, units =>
    match units.step with
    | none => []
    | some (unit, rest) => unit :: collect fuel rest

end ChangeUnits

/-- An iterator over the complete units after a version. -/
def Changelog.changeUnitsSince
    (log : Changelog) (state : GraphState)
    (version : Nat) : Except ChangeCursorError ChangeUnits :=
  if version > state.revision then .error (.future state.revision)
  else if version < log.floorVersion then
    .error (.gap ⟨version, log.floorVersion⟩)
  else
    let next := (log.entries.takeWhile (·.version ≤ version)).length
    match if next > 0 then log.entries[next - 1]? else none with
    | some diff =>
      if diff.span.last ≠ version then .error (.insideUnit diff.span)
      else .ok ⟨state, log.floorVersion, log.entries, next⟩
    | none => .ok ⟨state, log.floorVersion, log.entries, next⟩

end Graph
end Haystack
