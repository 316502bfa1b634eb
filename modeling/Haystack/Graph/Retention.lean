import Haystack.Graph.Changelog

/-!
# Retention of complete units

The log of a graph consists of complete commit units with consecutive revisions
after the floor.  Appending a unit and evicting old ones keeps this shape: the
retained units are a suffix of the old units followed by the new one.  The
eviction loop ends because its guard fails, not because its fuel runs out.
-/

namespace Haystack
namespace Graph

open Collections

namespace Changelog

/-- Complete units of diffs with consecutive revisions after the floor. -/
def DiffUnits : Nat → List (List GraphDiff) → Prop :=
  UnitsFrom GraphDiff.version (·.span.first) (·.span.last)

/-- The log holds the given units, and accounts for their bytes. -/
structure Partitioned (log : Changelog) (version : Nat)
    (units : List (List GraphDiff)) : Prop where
  entries : log.entries = units.flatten
  complete : DiffUnits log.floorVersion units
  head : version = log.floorVersion + units.flatten.length
  bytes : log.bytes = (units.flatten.map (·.retainedBytes)).sum

/-- The log holds the given units and respects its two bounds. -/
structure Retains (log : Changelog) (version : Nat) (units : List (List GraphDiff)) : Prop
    extends Partitioned log version units where
  count : log.entries.length ≤ log.capacity
  byteCount : log.bytes ≤ log.byteCapacity

theorem popThrough_eq (last : Nat) (entries : List GraphDiff) (bytes : Nat) :
    popThrough last entries bytes = (entries.dropWhile (·.version ≤ last), bytes -
          ((entries.takeWhile (·.version ≤ last)).map (·.retainedBytes)).sum) :=
    by
  induction entries generalizing bytes with
  | nil => rfl
  | cons diff rest ih =>
    unfold popThrough
    by_cases older : diff.version ≤ last
    · rw [if_pos older, ih, List.dropWhile_cons_of_pos (by simpa using older),
        List.takeWhile_cons_of_pos (by simpa using older)]
      simp [Nat.sub_sub]
    · rw [if_neg older, List.dropWhile_cons_of_neg (by simpa using older),
        List.takeWhile_cons_of_neg (by simpa using older)]
      simp

theorem isOver_eq_false_iff {log : Changelog} :
    log.isOver = false ↔ log.entries.length ≤ log.capacity ∧ log.bytes ≤ log.byteCapacity := by
  simp [isOver]

variable {log : Changelog} {units : List (List GraphDiff)} {version : Nat}

/-- Evicting up to the end of the oldest unit drops that unit. -/
theorem Partitioned.evictUnit
    {unit : List GraphDiff} (held : Partitioned log version (unit :: units)) :
    Partitioned (log.evictUnit (log.floorVersion + unit.length)) version units := by
  have dropped : log.entries.dropWhile
      (·.version ≤ log.floorVersion + unit.length) = units.flatten := by
    rw [held.entries]
    exact held.complete.dropWhile_unit
  have taken : log.entries.takeWhile (·.version ≤ log.floorVersion + unit.length) = unit := by
    have whole := List.takeWhile_append_dropWhile (p := fun diff : GraphDiff =>
        decide (diff.version ≤ log.floorVersion + unit.length))
      (l := log.entries)
    rw [dropped, held.entries] at whole
    rw [held.entries]
    exact List.append_cancel_right whole
  have bytes := held.bytes
  have head := held.head
  simp only [List.flatten_cons, List.map_append, List.sum_append,
    List.length_append] at bytes head
  unfold Changelog.evictUnit
  simp only [popThrough_eq, dropped, taken]
  refine ⟨rfl, held.complete.2.2.2, ?_, ?_⟩
  · simp only
    omega
  · simp only
    omega

/-- Entries respect the bounds of the log. -/
def fits (log : Changelog) (entries : List GraphDiff) : Bool :=
  entries.length ≤ log.capacity && (entries.map (·.retainedBytes)).sum ≤ log.byteCapacity

/-- The newest units that respect the bounds of the log. -/
def kept (log : Changelog) (units : List (List GraphDiff)) : List (List GraphDiff) :=
  keepFitting log.fits units

theorem kept_suffix (log : Changelog) (units : List (List GraphDiff)) :
    log.kept units <:+ units :=
  keepFitting_suffix units

theorem kept_congr {log' : Changelog} (capacity : log'.capacity = log.capacity)
    (byteCapacity : log'.byteCapacity = log.byteCapacity) : log'.kept = log.kept := by
  have same : log'.fits = log.fits := by
    funext entries
    rw [fits, fits, capacity, byteCapacity]
  funext units
  rw [kept, kept, same]

/-- Appending to the kept units keeps what appending to all units would. -/
theorem kept_kept (log : Changelog) (units : List (List GraphDiff)) (unit : List GraphDiff) :
    log.kept (log.kept units ++ [unit]) = log.kept (units ++ [unit]) := by
  refine keepFitting_keepFitting ?_ units unit
  intro entries more fit
  simp only [fits, List.length_append, List.map_append, List.sum_append,
    Bool.and_eq_true, decide_eq_true_eq] at fit ⊢
  omega

theorem Partitioned.isOver_eq (held : Partitioned log version units) :
    log.isOver = !log.fits units.flatten := by
  rw [isOver, fits, held.bytes, held.entries, Bool.not_and]
  simp [← decide_not]

/-- A log within its bounds keeps all its units. -/
theorem Retains.kept_eq (retains : Retains log version units) : log.kept units = units := by
  refine keepFitting_of_fits ?_
  have within := retains.isOver_eq
  rw [isOver_eq_false_iff.mpr ⟨retains.count, retains.byteCount⟩] at within
  simpa using within.symm

/-- What an eviction keeps: the newest units within the bounds. -/
structure Evicted (log after : Changelog) (version : Nat)
    (units : List (List GraphDiff)) : Prop where
  retains : Retains after version (log.kept units)
  floor : log.floorVersion ≤ after.floorVersion
  capacity : after.capacity = log.capacity
  byteCapacity : after.byteCapacity = log.byteCapacity

/-- With one iteration for every unit, the loop ends within the bounds. -/
theorem Partitioned.evict (held : Partitioned log version units) {fuel : Nat}
    (enough : units.length ≤ fuel) : Evicted log (Changelog.evict fuel log) version units := by
  have exceeds := held.isOver_eq
  induction units generalizing log fuel with
  | nil =>
    have empty : log.entries = [] := held.entries
    have within : log.isOver = false := by
      rw [isOver_eq_false_iff, empty, held.bytes]
      simp
    have unchanged : Changelog.evict fuel log = log := by
      cases fuel <;> simp [Changelog.evict, within]
    rw [unchanged]
    obtain ⟨count, byteCount⟩ := isOver_eq_false_iff.mp within
    exact ⟨⟨held, count, byteCount⟩, le_rfl, rfl, rfl⟩
  | cons unit units ih =>
    cases exceeded : log.isOver with
    | false =>
      have unchanged : Changelog.evict fuel log = log := by
        cases fuel <;> simp [Changelog.evict, exceeded]
      have keepsAll : log.kept (unit :: units) = unit :: units := by
        refine keepFitting_of_fits ?_
        simpa [exceeded] using exceeds
      obtain ⟨count, byteCount⟩ := isOver_eq_false_iff.mp exceeded
      rw [unchanged]
      exact ⟨keepsAll.symm ▸ ⟨held, count, byteCount⟩, le_rfl, rfl, rfl⟩
    | true =>
      obtain ⟨remaining, rfl⟩ : ∃ remaining, fuel = remaining + 1 := by
        simp only [List.length_cons] at enough
        exact ⟨fuel - 1, by omega⟩
      obtain ⟨nonempty, _, spans, _⟩ := held.complete
      obtain ⟨front, rest, rfl⟩ := List.exists_cons_of_ne_nil nonempty
      have entries := held.entries
      rw [List.flatten_cons, List.cons_append] at entries
      have ends := (spans front (by simp)).2
      have step : Changelog.evict (remaining + 1) log = Changelog.evict remaining (log.evictUnit
            (log.floorVersion + (front :: rest).length)) := by
        rw [Changelog.evict, exceeded, entries]
        simp [ends]
      have left : units.length ≤ remaining := by
        simp only [List.length_cons] at enough
        omega
      have evicted := ih held.evictUnit left held.evictUnit.isOver_eq
      have drops : log.kept ((front :: rest) :: units) = log.kept units := by
        refine if_neg ?_
        simpa [exceeded] using exceeds
      rw [step]
      exact ⟨drops.symm ▸ evicted.retains,
        (Nat.le_add_right _ _).trans evicted.floor, evicted.capacity,
        evicted.byteCapacity⟩

/-- The diffs of a unit as they are stored. -/
def stamp (now : Int) (diffs : List GraphDiff) : List GraphDiff :=
  diffs.map ({ · with timestamp := now })

variable {diffs : List GraphDiff}

theorem diffUnits_stamp {floor : Nat} (now : Int) (complete : DiffUnits floor [diffs]) :
    DiffUnits floor [stamp now diffs] := by
  obtain ⟨nonempty, versions, spans, _⟩ := complete
  refine ⟨?_, ?_, ?_, trivial⟩
  · simpa [stamp] using nonempty
  · simpa [stamp, Function.comp_def] using versions
  · intro diff member
    obtain ⟨original, originalMember, rfl⟩ := List.mem_map.mp member
    simpa [stamp] using spans original originalMember

/-- Appending a complete unit keeps complete units within the bounds. -/
theorem Retains.appendCommittedUnit
    (retains : Retains log version units) (complete : DiffUnits version [diffs]) (now : Int) :
    Evicted log (log.appendCommittedUnit now diffs)
      (version + diffs.length) (units ++ [stamp now diffs]) := by
  have stamped := diffUnits_stamp now complete
  have units' : DiffUnits log.floorVersion (units ++ [stamp now diffs]) := by
    refine unitsFrom_append.mpr ⟨retains.complete, ?_⟩
    rw [← retains.head]
    exact stamped
  have held : Partitioned { log with
        entries := log.entries ++ stamp now diffs
        bytes := log.bytes + (diffs.map (·.retainedBytes)).sum }
      (version + diffs.length) (units ++ [stamp now diffs]) := by
    refine ⟨?_, units', ?_, ?_⟩
    · simp [retains.entries]
    · simp only [retains.head, stamp]
      simp [Nat.add_assoc]
    · simp [retains.bytes, stamp, Function.comp_def]
  have enough : (units ++ [stamp now diffs]).length ≤
      (log.entries ++ stamp now diffs).length := by
    rw [retains.entries]
    simpa using units'.length_le
  have evicted := held.evict enough
  exact ⟨evicted.retains, evicted.floor, evicted.capacity, evicted.byteCapacity⟩

/-- The entries after an append are the end of the old ones and the new unit. -/
theorem Retains.entries_appendCommittedUnit
    (retains : Retains log version units) (complete : DiffUnits version [diffs]) (now : Int) :
    (log.appendCommittedUnit now diffs).entries = (log.entries ++ stamp now diffs).drop
        ((log.appendCommittedUnit now diffs).floorVersion - log.floorVersion) := by
  have evicted := retains.appendCommittedUnit complete now
  have suffix : (log.appendCommittedUnit now diffs).entries <:+
      log.entries ++ stamp now diffs := by
    rw [evicted.retains.entries, retains.entries]
    have kept := log.kept_suffix (units ++ [stamp now diffs])
    simpa using kept.flatten
  have before := retains.head
  have after := evicted.retains.head
  rw [← retains.entries] at before
  rw [← evicted.retains.entries] at after
  refine (List.suffix_iff_eq_drop.mp suffix).trans ?_
  congr 1
  simp only [List.length_append, stamp, List.length_map]
  omega

/-- A gap leaves an empty log whose floor is the head. -/
theorem retains_nativeGap (log : Changelog) (version : Nat) :
    Retains (log.nativeGap version) version [] := by
  refine ⟨⟨rfl, trivial, rfl, rfl⟩, ?_, ?_⟩ <;> simp [nativeGap]

/-! ## Reading the log -/

/-- At or above the floor, the entries after a version are a suffix. -/
theorem Retains.changesSince (retains : Retains log version units) {v : Nat}
    (lower : log.floorVersion ≤ v) :
    log.changesSince v = .ok (log.entries.drop (v - log.floorVersion)) := by
  have noGap : ¬(log.floorVersion > 0 ∧ v < log.floorVersion) := by omega
  have start := retains.complete.takeWhile_length v
  rw [← retains.entries] at start
  unfold Changelog.changesSince
  rw [if_neg noGap]
  simp only [start]
  rcases Nat.le_total (v - log.floorVersion) log.entries.length with
    within | beyond
  · rw [Nat.min_eq_left within]
  · rw [Nat.min_eq_right beyond, List.drop_eq_nil_of_le le_rfl, List.drop_eq_nil_of_le beyond]

/-- The iterator over the units after the end of `older`. -/
def unitsAfter (log : Changelog) (state : GraphState)
    (older : List (List GraphDiff)) : ChangeUnits :=
  ⟨state, log.floorVersion, log.entries, older.flatten.length⟩

variable {older newer : List (List GraphDiff)}

/-- At the end of a unit the cursor is accepted. -/
theorem Retains.changeUnitsSince_boundary (state : GraphState)
    (retains : Retains log state.revision (older ++ newer)) :
    log.changeUnitsSince state (log.floorVersion + older.flatten.length) =
      .ok (log.unitsAfter state older) := by
  have head := retains.head
  rw [List.flatten_append, List.length_append] at head
  have start := retains.complete.takeWhile_length (log.floorVersion + older.flatten.length)
  have position : (log.entries.takeWhile
      (·.version ≤ log.floorVersion + older.flatten.length)).length = older.flatten.length := by
    rw [retains.entries, start, List.flatten_append, List.length_append]
    omega
  unfold Changelog.changeUnitsSince
  rw [if_neg (by omega), if_neg (by omega)]
  simp only [position]
  by_cases nonempty : older.flatten.length > 0
  · rw [if_pos nonempty]
    have bound : older.flatten.length - 1 < log.entries.length := by
      rw [retains.entries, List.flatten_append, List.length_append]
      omega
    rw [List.getElem?_eq_getElem bound]
    have ends : (log.entries[older.flatten.length - 1]).span.last =
        log.floorVersion + older.flatten.length := by
      refine retains.complete.last_at_boundary ?_ ?_
      · rw [← retains.entries]
        exact List.getElem?_eq_getElem bound
      · rintro rfl
        simp at nonempty
    simp only [ends, ne_eq]
    rfl
  · rw [if_neg nonempty]
    rfl

/-- Inside a unit the cursor is rejected. -/
theorem Retains.changeUnitsSince_inside
    {state : GraphState} (retains : Retains log state.revision units) {v : Nat}
    (upper : v ≤ state.revision) (lower : log.floorVersion < v) {diff : GraphDiff}
    (found : units.flatten[v - log.floorVersion - 1]? = some diff)
    (notLast : diff.span.last ≠ v) :
    log.changeUnitsSince state v = .error (.insideUnit diff.span) := by
  have head := retains.head
  have start := retains.complete.takeWhile_length v
  have position : (log.entries.takeWhile (·.version ≤ v)).length = v - log.floorVersion := by
    rw [retains.entries]
    omega
  unfold Changelog.changeUnitsSince
  rw [if_neg (by omega), if_neg (by omega)]
  simp only [position]
  rw [if_pos (by omega), retains.entries, found]
  simp [notLast]

/-- A cursor is accepted exactly at the floor and at the ends of units. -/
theorem Retains.changeUnitsSince_isOk_iff
    (state : GraphState) (retains : Retains log state.revision units) (v : Nat) :
    (∃ iterator, log.changeUnitsSince state v = .ok iterator) ↔
      log.floorVersion ≤ v ∧ v ≤ state.revision ∧ ∃ older newer, units = older ++ newer ∧
          v = log.floorVersion + older.flatten.length := by
  constructor
  · rintro ⟨iterator, accepted⟩
    have upper : v ≤ state.revision := by
      by_contra beyond
      unfold Changelog.changeUnitsSince at accepted
      rw [if_pos (by omega)] at accepted
      cases accepted
    have lower : log.floorVersion ≤ v := by
      by_contra below
      unfold Changelog.changeUnitsSince at accepted
      rw [if_neg (by omega), if_pos (by omega)] at accepted
      cases accepted
    refine ⟨lower, upper, ?_⟩
    have bound : v ≤ log.floorVersion + units.flatten.length := retains.head ▸ upper
    rcases retains.complete.boundary_or_inside lower bound with
      boundary | ⟨diff, found, after, notLast⟩
    · exact boundary
    · rw [retains.changeUnitsSince_inside upper after found notLast] at accepted
      cases accepted
  · rintro ⟨_, _, older, newer, rfl, rfl⟩
    exact ⟨_, retains.changeUnitsSince_boundary state⟩

/-- The iterator yields every later unit completely and in order. -/
theorem Retains.collect_unitsAfter (state : GraphState)
    (retains : Retains log state.revision (older ++ newer)) {fuel : Nat}
    (enough : newer.length ≤ fuel) :
    ((log.unitsAfter state older).collect fuel).map ChangeUnit.diffs = newer ∧
      ∀ unit ∈ (log.unitsAfter state older).collect fuel, unit.len = unit.diffs.length ∧
          ∀ diff ∈ unit.diffs, diff.span = unit.span := by
  induction newer generalizing older fuel with
  | nil =>
    have done : log.entries[older.flatten.length]? = none := by
      rw [retains.entries]
      simp
    cases fuel with
    | zero => simp [ChangeUnits.collect]
    | succ =>
      simp only [ChangeUnits.collect, ChangeUnits.step, unitsAfter, done]
      simp
  | cons unit newer ih =>
    obtain ⟨remaining, rfl⟩ : ∃ remaining, fuel = remaining + 1 := by
      simp only [List.length_cons] at enough
      exact ⟨fuel - 1, by omega⟩
    have left : newer.length ≤ remaining := by
      simp only [List.length_cons] at enough
      omega
    have shifted : older ++ unit :: newer = older ++ [unit] ++ newer := by
      simp
    rw [shifted] at retains
    have rest := ih retains left
    obtain ⟨_, unitFormed⟩ := unitsFrom_append.mp (unitsFrom_append.mp retains.complete).1
    obtain ⟨nonempty, _, spans, _⟩ := unitFormed
    obtain ⟨front, tail, rfl⟩ := List.exists_cons_of_ne_nil nonempty
    have entries : log.entries = older.flatten ++ ((front :: tail) ++ newer.flatten) := by
      rw [retains.entries]
      simp
    have found : log.entries[older.flatten.length]? = some front := by
      rw [entries]
      simp
    have span := spans front (by simp)
    have count : front.span.last - front.span.first + 1 = (front :: tail).length := by
      simp only [List.length_cons] at span ⊢
      omega
    have position : (older ++ [front :: tail]).flatten.length =
        older.flatten.length + (front :: tail).length := by
      simp
    simp only [unitsAfter, position] at rest
    simp only [unitsAfter, ChangeUnits.collect, ChangeUnits.step, found,
      Option.map_some, count, List.map_cons, List.mem_cons, forall_eq_or_imp]
    have diffs : ChangeUnit.diffs ⟨front.span, log.entries, older.flatten.length,
        older.flatten.length + (front :: tail).length⟩ = front :: tail := by
      simp [ChangeUnit.diffs, entries]
    refine ⟨by rw [diffs, rest.1], ⟨?_, ?_⟩, rest.2⟩
    · rw [diffs, ChangeUnit.len, Nat.add_sub_cancel_left]
    intro diff member
    rw [diffs] at member
    have other := spans diff member
    exact CommitSpan.ext (other.1.trans span.1.symm) (other.2.trans span.2.symm)

end Changelog
end Graph
end Haystack
