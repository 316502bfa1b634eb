import Haystack.App.History

/-!
# Bounded series keep the latest samples

A series under a capacity holds the latest instants of everything written to its
point since the last reset, each with its last write.  It has evicted the other
instants, and remembers the latest of them.
-/

namespace Haystack
namespace App

open Std (ExtTreeMap)
open Collections

/-! ## Trimming -/

namespace Series

@[simp] theorem merge_items (series : Series) (items : List HisItem) :
    (series.merge items).items = items.foldl (upsert HisItem.instant) series.items := rfl

@[simp] theorem trim_items (series : Series) (capacity : Nat) :
    (series.trim capacity).items = latest capacity series.items := by
  unfold trim latest
  by_cases fits : series.excess capacity = 0
  · simp only [fits, if_true]
    rw [← excess, fits, List.drop_zero]
  · simp only [fits]
    rfl

/-- The later one of two eviction marks. -/
theorem evictedThrough_instant (old : Option DateTime) (through : DateTime) :
    (evictedThrough old through).instant =
      (old.elim through.instant fun old => max old.instant through.instant) := by
  cases old with
  | none => rfl
  | some =>
    simp only [evictedThrough]
    split
    · rename_i below
      exact (max_eq_left below.le).symm
    · rename_i notBelow
      exact (max_eq_right (le_of_not_gt notBelow)).symm

/-- The instants that a series has dropped, and its mark of the latest one. -/
def Marks (dropped : Finset (Int ×ₗ Nat ×ₗ Nat)) : Option DateTime → Prop
  | none => dropped = ∅
  | some through => IsGreatest (dropped : Set (Int ×ₗ Nat ×ₗ Nat)) through.instant

theorem Marks.evictedThrough
    {dropped drained : Finset (Int ×ₗ Nat ×ₗ Nat)} {old : Option DateTime}
    (marks : Marks dropped old) {through : DateTime}
    (greatest : IsGreatest (drained : Set (Int ×ₗ Nat ×ₗ Nat)) through.instant) :
    Marks (dropped ∪ drained) (some (Series.evictedThrough old through)) := by
  simp only [Marks, evictedThrough_instant, Finset.coe_union]
  cases old with
  | none =>
    rw [show dropped = ∅ from marks]
    simpa using greatest
  | some => exact IsGreatest.union marks greatest

/-- Trimming an increasing series drops the instants that are not recent, and
marks the latest of them. -/
theorem trim_marks {series : Series} (increasing : Increasing HisItem.instant series.items)
    (capacity : Nat) {dropped : Finset (Int ×ₗ Nat ×ₗ Nat)}
    (marks : Marks dropped series.evicted) :
    Marks (dropped ∪ (keys HisItem.instant series.items \
        keys HisItem.instant (series.trim capacity).items))
      (series.trim capacity).evicted := by
  rw [trim_items, increasing.keys_sdiff_latest]
  unfold trim
  rcases reached : series.excess capacity with _ | count
  · rw [← excess, reached]
    simpa [keys] using marks
  · have within : count < series.items.length := by
      have short := Nat.sub_le series.items.length capacity
      rw [← excess, reached] at short
      exact short
    rw [← excess, reached]
    simp only [Nat.add_sub_cancel, List.getElem?_eq_getElem within]
    exact marks.evictedThrough (increasing.isGreatest_keys_take within)

end Series

/-! ## What has been done to a point -/

/-- What has been done to a point since its last reset: the samples written, the
instants that its series has dropped, and the number of writes. -/
structure Journal where
  written : List HisItem
  dropped : Finset (Int ×ₗ Nat ×ₗ Nat)
  writes : Nat

namespace HisStore

/-- The instants that the series of a point holds. -/
def instants (s : HisStore) (id : String) : Finset (Int ×ₗ Nat ×ₗ Nat) :=
  keys HisItem.instant ((s.points[id]?).elim [] (·.items))

end HisStore

namespace Journal

def empty : Journal := ⟨[], ∅, 0⟩

/-- Add a write, which drops the instants that the series holds no more. -/
def write (journal : Journal) (items : List HisItem)
    (before after : Finset (Int ×ₗ Nat ×ₗ Nat)) : Journal where
  written := journal.written ++ items
  dropped := journal.dropped ∪ ((before ∪ keys HisItem.instant items) \ after)
  writes := journal.writes + 1

/-- The journal of a point after a command that succeeds on it. -/
def step (id : String) (s : HisStore) (journal : Journal) : HisStore.HisCommand → Journal
  | .state _ _ => journal
  | .resetPoint point draw incarnation =>
    if point = id ∧ (s.resetPoint point draw incarnation).2.isOk then empty
    else journal
  | .write point items draw =>
    if point = id ∧ items.isEmpty = false ∧ (s.write point items draw).2.isOk then
      journal.write items (s.instants id) ((s.write point items draw).1.instants id)
    else journal

end Journal

namespace HisStore

/-- A store and the journal of a point after a run. -/
def observe (id : String) (s : HisStore) (commands : List HisCommand) : HisStore × Journal :=
  commands.foldl (fun seen command => (seen.1.step command, seen.2.step id seen.1 command))
    (s, .empty)

/-! ## Inversions -/

/-- How a point is opened: it is there, or a new series is created for it. -/
inductive Opened (s : HisStore) (id : String) : HisStore → Series → Prop
  | found (series : Series) (held : s.points[id]? = some series) : Opened s id s series
  | created (incarnation : BitVec 128) (absent : s.points[id]? = none) : Opened s id
        { s with points := s.points.insert id (.new incarnation) }
        (.new incarnation)

variable {s s' : HisStore} {series : Series} {id : String}

theorem pointIn_eq_ok {draw : Draw} (opened : s.pointIn id draw = .ok (s', series)) :
    Opened s id s' series := by
  unfold pointIn at opened
  split at opened
  · cases opened
  split at opened
  · rename_i held
    obtain ⟨rfl, rfl⟩ := Prod.mk.inj (Except.ok.inj opened)
    exact .found _ held
  · rename_i absent
    split at opened
    · cases opened
    split at opened
    · cases opened
    obtain ⟨rfl, rfl⟩ := Prod.mk.inj (Except.ok.inj opened)
    exact .created _ absent

/-- What a native write does. -/
inductive Wrote (s : HisStore) (id : String) (items : List HisItem) :
    HisStore → Except HistoryProviderError Unit → Prop
  | nothing (empty : items.isEmpty = true) : Wrote s id items s (.ok ())
  | refused (error : HistoryProviderError) : Wrote s id items s (.error error)
  | unwritten (opened : HisStore) (series : Series)
      (error : HistoryProviderError) (opens : Opened s id opened series) :
      Wrote s id items opened (.error error)
  | wrote (opened after : HisStore) (series next : Series) (given : items.isEmpty = false)
      (opens : Opened s id opened series)
      (sequence : s.sequence + 1 ≤ u64Max)
      (generation : series.generation + 1 ≤ u64Max)
      (extended : next = opened.written series (series.generation + 1) items)
      (replaced : after = opened.replace id next
        (opened.writeChange id (s.sequence + 1) series next items)) :
      Wrote s id items after (.ok ())

theorem write_wrote (s : HisStore) (id : String) (items : List HisItem) (draw : Draw) :
    Wrote s id items (s.write id items draw).1 (s.write id items draw).2 := by
  unfold write
  split
  · rename_i empty
    exact .nothing empty
  rename_i given
  split
  · exact .refused _
  rename_i sequence next
  obtain ⟨rfl, bounded⟩ := checkedAdd_eq_some_iff.mp next
  split
  · exact .refused _
  rename_i opened series pointed
  have opens := pointIn_eq_ok pointed
  split
  · exact .unwritten opened series _ opens
  rename_i generation grown
  obtain ⟨rfl, fits⟩ := checkedAdd_eq_some_iff.mp grown
  split
  · exact .unwritten opened series _ opens
  · exact .wrote opened _ series _ (by simpa using given) opens bounded fits rfl rfl

/-- What a reset of a point does. -/
inductive Reset (s : HisStore) (id : String) :
    HisStore → Except HistoryProviderError HistoryState → Prop
  | refused (error : HistoryProviderError) : Reset s id s (.error error)
  | reset (opened after : HisStore) (series : Series) (incarnation : BitVec 128)
      (opens : Opened s id opened series)
      (sequence : s.sequence + 1 ≤ u64Max)
      (replaced : after = opened.replace id (.new incarnation)
        (opened.resetChange id (s.sequence + 1) series (.new incarnation))) :
      Reset s id after (.ok (opened.seriesState (.new incarnation)))

theorem resetPoint_reset (s : HisStore) (id : String) (draw : Draw) (incarnation : BitVec 128) :
    Reset s id (s.resetPoint id draw incarnation).1 (s.resetPoint id draw incarnation).2 := by
  unfold resetPoint
  split
  · exact .refused _
  rename_i sequence next
  obtain ⟨rfl, bounded⟩ := checkedAdd_eq_some_iff.mp next
  split
  · exact .refused _
  rename_i opened series pointed
  exact .reset opened _ series incarnation (pointIn_eq_ok pointed) bounded rfl

@[simp] theorem points_replace (s : HisStore) (id : String) (series : Series)
    (change : HistoryChangeRecord) :
    (s.replace id series change).points = s.points.insert id series := rfl

theorem Opened.limits (opened : Opened s id s' series) : s'.limits = s.limits := by
  cases opened <;> rfl

variable {series : Series} {s s' : HisStore}

theorem Opened.getElem?_self {id : String} (opened : Opened s id s' series) :
    s'.points[id]? = some series := by
  cases opened with
  | found series held => exact held
  | created => simp

theorem Opened.getElem?_of_ne {id other : String}
    (opened : Opened s id s' series) (different : id ≠ other) :
    s'.points[other]? = s.points[other]? := by
  cases opened with
  | found => rfl
  | created =>
    simp [ExtTreeMap.getElem?_insert, different]

/-! ## The invariant of a point -/

/-- The series of a point agrees with its journal. -/
structure Agrees (capacity : Nat) (journal : Journal) (series : Series) : Prop where
  items : series.items = latest capacity (journal.written.foldl (upsert HisItem.instant) [])
  dropped : journal.dropped = keys HisItem.instant journal.written \
    recent capacity (keys HisItem.instant journal.written)
  marks : Series.Marks journal.dropped series.evicted
  generation : series.generation = journal.writes

theorem agrees_empty (capacity : Nat) (incarnation : BitVec 128) :
    Agrees capacity .empty (.new incarnation) where
  items := by simp [Series.new, Journal.empty, latest]
  dropped := rfl
  marks := rfl
  generation := rfl

theorem increasing_written (written : List HisItem) :
    Increasing HisItem.instant (written.foldl (upsert HisItem.instant) []) :=
  Increasing.foldl_upsert List.Pairwise.nil written

variable {journal : Journal} {capacity : Nat}

theorem Agrees.increasing (agrees : Agrees capacity journal series) :
    Increasing HisItem.instant series.items := by
  rw [agrees.items]
  exact (increasing_written _).sublist (List.drop_sublist _ _)

theorem Agrees.keys_items (agrees : Agrees capacity journal series) :
    keys HisItem.instant series.items =
      recent capacity (keys HisItem.instant journal.written) := by
  rw [agrees.items, (increasing_written _).keys_latest, keys_foldl_upsert List.Pairwise.nil]
  simp [keys]

/-- A write keeps the series and the journal of a point in agreement. -/
theorem Agrees.written (agrees : Agrees s.limits.maxItemsPerPoint journal series)
    (items : List HisItem) :
    Agrees s.limits.maxItemsPerPoint
      (journal.write items (keys HisItem.instant series.items) (keys HisItem.instant
          (s.written series (series.generation + 1) items).items))
      (s.written series (series.generation + 1) items) := by
  have merged : Increasing HisItem.instant (series.merge items).items :=
    agrees.increasing.foldl_upsert items
  have kept : (s.written series (series.generation + 1) items).items =
      latest s.limits.maxItemsPerPoint
        ((journal.written ++ items).foldl (upsert HisItem.instant) []) := by
    simp only [HisStore.written, Series.trim_items, Series.merge_items]
    rw [agrees.items, latest_foldl_upsert_latest (increasing_written _), List.foldl_append]
  have retained : keys HisItem.instant (s.written series (series.generation + 1) items).items =
      recent s.limits.maxItemsPerPoint (keys HisItem.instant journal.written ∪
          keys HisItem.instant items) := by
    rw [kept, (increasing_written _).keys_latest, keys_foldl_upsert List.Pairwise.nil]
    simp [keys]
  refine ⟨kept, ?_, ?_, ?_⟩
  · simp only [Journal.write, keys_append]
    rw [retained, agrees.keys_items, agrees.dropped, ← union_sdiff_recent]
  · have marked := Series.trim_marks merged s.limits.maxItemsPerPoint agrees.marks
    rw [Series.merge_items, keys_foldl_upsert agrees.increasing] at marked
    exact marked
  · exact congrArg (· + 1) agrees.generation

/-- The points of a store agree with the journal of one of them. -/
def AgreesAt (id : String) (s : HisStore) (journal : Journal) : Prop :=
  match s.points[id]? with
  | none => journal = .empty
  | some series => Agrees s.limits.maxItemsPerPoint journal series

theorem AgreesAt.of_eq (agrees : AgreesAt id s journal) (limits : s'.limits = s.limits)
    (points : s'.points[id]? = s.points[id]?) : AgreesAt id s' journal := by
  unfold AgreesAt at agrees ⊢
  rw [points, limits]
  exact agrees

variable {point : String}

theorem AgreesAt.opened (agrees : AgreesAt id s journal) (opened : Opened s point s' series) :
    AgreesAt id s' journal := by
  by_cases same : point = id
  · subst same
    cases opened with
    | found => exact agrees
    | created incarnation absent =>
      rw [AgreesAt, absent] at agrees
      subst agrees
      rw [AgreesAt, ExtTreeMap.getElem?_insert_self]
      exact agrees_empty _ _
  · exact agrees.of_eq opened.limits (opened.getElem?_of_ne same)

theorem Opened.agrees (opened : Opened s id s' series) (agrees : AgreesAt id s journal) :
    Agrees s'.limits.maxItemsPerPoint journal series := by
  have after := agrees.opened opened
  rw [AgreesAt, opened.getElem?_self] at after
  exact after

theorem Opened.instants (opened : Opened s id s' series) :
    s.instants id = keys HisItem.instant series.items := by
  cases opened with
  | found series held => simp [HisStore.instants, held]
  | created incarnation absent =>
    simp [HisStore.instants, absent, Series.new]

/-- Replacing the series of a point keeps what is known of the others. -/
theorem AgreesAt.replaced {opened : HisStore} {after : Journal}
    (agrees : AgreesAt id s journal) {next : Series}
    (opens : Opened s point opened series) (change : HistoryChangeRecord)
    (here : point = id → Agrees opened.limits.maxItemsPerPoint after next)
    (elsewhere : point ≠ id → after = journal) :
    AgreesAt id (opened.replace point next change) after := by
  by_cases same : point = id
  · rw [AgreesAt, points_replace, same, ExtTreeMap.getElem?_insert_self]
    exact here same
  · rw [elsewhere same]
    refine agrees.of_eq opens.limits ?_
    rw [points_replace, ExtTreeMap.getElem?_insert, if_neg (by simpa using same)]
    exact opens.getElem?_of_ne same

theorem instants_replace (s : HisStore) (id : String) (series : Series)
    (change : HistoryChangeRecord) :
    (s.replace id series change).instants id = keys HisItem.instant series.items := by
  simp [HisStore.instants]

/-- Every command keeps a point and its journal in agreement. -/
theorem AgreesAt.step (agrees : AgreesAt id s journal) (command : HisCommand) :
    AgreesAt id (s.step command) (journal.step id s command) := by
  cases command with
  | state =>
    simp only [HisStore.step, HisStore.state]
    split
    · exact agrees
    · rename_i opened series pointed
      exact agrees.opened (pointIn_eq_ok pointed)
  | resetPoint point draw incarnation =>
    have reset := resetPoint_reset s point draw incarnation
    simp only [HisStore.step, Journal.step]
    generalize s.resetPoint point draw incarnation = result at reset
    obtain ⟨after, _⟩ := result
    cases reset with
    | refused => simpa [Except.isOk, Except.toBool] using agrees
    | reset opened after series incarnation opens sequence replaced =>
      subst replaced
      refine agrees.replaced opens _ ?_ ?_
      · rintro rfl
        simpa [Except.toBool] using agrees_empty _ _
      · intro different
        simp [different]
  | write point items draw =>
    have wrote := write_wrote s point items draw
    simp only [HisStore.step, Journal.step]
    generalize s.write point items draw = result at wrote
    obtain ⟨after, _⟩ := result
    cases wrote with
    | nothing empty => simpa [empty] using agrees
    | refused => simpa [Except.isOk, Except.toBool] using agrees
    | unwritten opened series error opens =>
      simpa [Except.toBool] using agrees.opened opens
    | wrote opened after series next given opens sequence generation extended replaced =>
      subst replaced
      refine agrees.replaced opens _ ?_ ?_
      · rintro rfl
        simp only [given]
        rw [opens.instants, instants_replace, extended]
        exact (opens.agrees agrees).written items
      · intro different
        simp [different]

theorem AgreesAt.observe (agrees : AgreesAt id s .empty) (commands : List HisCommand) :
    AgreesAt id (s.observe id commands).1 (s.observe id commands).2 := by
  induction commands using List.reverseRecOn with
  | nil => exact agrees
  | append_singleton commands command ih =>
    simp only [HisStore.observe, List.foldl_append]
    exact ih.step command

/-! ## The latest samples -/

/-- A series holds the latest instants written since the last reset, each with
its last write, in increasing order.  Its eviction mark is the latest instant
that it has dropped, which is before all that it holds. -/
structure Retains (capacity : Nat) (journal : Journal) (series : Series) : Prop where
  increasing : Increasing HisItem.instant series.items
  items : ∀ item, item ∈ series.items ↔
    lastWrite HisItem.instant journal.written item.instant = some item ∧ item.instant ∈
        recent capacity (keys HisItem.instant journal.written)
  dropped : ∀ instant, instant ∈ journal.dropped ↔
    instant ∈ keys HisItem.instant journal.written ∧ instant ∉ keys HisItem.instant series.items
  unmarked : series.evicted = none ↔ journal.dropped = ∅
  marked : ∀ through ∈ series.evicted,
    IsGreatest (journal.dropped : Set (Int ×ₗ Nat ×ₗ Nat)) through.instant
  before : ∀ through ∈ series.evicted, ∀ item ∈ series.items, through.instant < item.instant
  generation : series.generation = journal.writes

/-- A key that is not recent is before all recent ones. -/
theorem lt_of_recent {instants : Finset (Int ×ₗ Nat ×ₗ Nat)} {old new : Int ×ₗ Nat ×ₗ Nat}
    (member : old ∈ instants) (notRecent : old ∉ recent capacity instants)
    (kept : new ∈ recent capacity instants) : old < new := by
  obtain ⟨_, few⟩ := Finset.mem_filter.mp kept
  by_contra notBefore
  refine notRecent (Finset.mem_filter.mpr ⟨member, lt_of_le_of_lt ?_ few⟩)
  apply Finset.card_le_card
  intro other above
  obtain ⟨present, greater⟩ := Finset.mem_filter.mp above
  exact Finset.mem_filter.mpr ⟨present, (le_of_not_gt notBefore).trans_lt greater⟩

theorem Agrees.retains (agrees : Agrees capacity journal series) :
    Retains capacity journal series := by
  have marked : ∀ through ∈ series.evicted, IsGreatest (journal.dropped : Set (Int ×ₗ Nat ×ₗ Nat))
        through.instant := by
    intro through evicted
    have marks := agrees.marks
    rwa [Option.mem_def.mp evicted] at marks
  refine ⟨agrees.increasing, ?_, ?_, ?_, marked, ?_, agrees.generation⟩
  · intro item
    constructor
    · intro member
      refine ⟨?_, agrees.keys_items ▸ mem_keys.mpr ⟨item, member, rfl⟩⟩
      rw [agrees.items] at member
      exact mem_foldl_upsert_iff.mp (List.mem_of_mem_drop member)
    · rintro ⟨last, kept⟩
      rw [← agrees.keys_items] at kept
      obtain ⟨_, member, same⟩ := mem_keys.mp kept
      have found := member
      rw [agrees.items] at found
      have written := mem_foldl_upsert_iff.mp (List.mem_of_mem_drop found)
      rw [same, last] at written
      exact Option.some.inj written ▸ member
  · intro instant
    rw [agrees.dropped, agrees.keys_items, Finset.mem_sdiff]
  · constructor
    · intro unmarked
      have marks := agrees.marks
      rwa [unmarked] at marks
    · intro nothing
      by_contra some
      obtain ⟨through, evicted⟩ := Option.ne_none_iff_exists'.mp some
      have greatest := marked through evicted
      rw [nothing] at greatest
      simpa using greatest.1
  · intro through evicted item member
    have dropped := Finset.mem_coe.mp (marked through evicted).1
    rw [agrees.dropped, Finset.mem_sdiff] at dropped
    refine lt_of_recent dropped.1 dropped.2 ?_
    rw [← agrees.keys_items]
    exact mem_keys.mpr ⟨item, member, rfl⟩

/-- The series of a point after a run, if it has one. -/
def RetainsAt (id : String) (s : HisStore) (journal : Journal) : Prop :=
  match s.points[id]? with
  | none => journal = .empty
  | some series => Retains s.limits.maxItemsPerPoint journal series

/-- The ledger, the receipts and the series that there were are unchanged; a
point that was not there may have got an empty series. -/
structure Unwritten (s s' : HisStore) (id : String) : Prop where
  changes : s'.changes = s.changes
  sequence : s'.sequence = s.sequence
  receipts : s'.receipts = s.receipts ∧ s'.receiptBytes = s.receiptBytes
  series : ∀ (other : String) (series : Series),
    s.points[other]? = some series → s'.points[other]? = some series
  created : ∀ (other : String) (series : Series), s.points[other]? = none →
    s'.points[other]? = some series →
    other = id ∧ ∃ incarnation, series = .new incarnation

theorem Unwritten.refl (s : HisStore) (id : String) : Unwritten s s id where
  changes := rfl
  sequence := rfl
  receipts := ⟨rfl, rfl⟩
  series _ _ held := held
  created other series absent present := by
    rw [absent] at present
    cases present

theorem Opened.unwritten (opened : Opened s id s' series) : Unwritten s s' id := by
  cases opened with
  | found => exact .refl s id
  | created incarnation absent =>
    refine ⟨rfl, rfl, ⟨rfl, rfl⟩, ?_, ?_⟩
    · intro other series held
      rw [ExtTreeMap.getElem?_insert, if_neg]
      · exact held
      · intro same
        rw [compare_eq_iff_eq] at same
        subst same
        rw [absent] at held
        cases held
    · intro other series missing present
      rw [ExtTreeMap.getElem?_insert] at present
      split at present
      · rename_i same
        rw [compare_eq_iff_eq] at same
        exact ⟨same.symm, incarnation, (Option.some.inj present).symm⟩
      · rw [missing] at present
        cases present

/-- After any run of native commands, the series of a point holds the latest
samples of the point, and a write that fails changes nothing. -/
theorem retains_latest (limits : HistoryStoreLimits) (authority : BitVec 128) (id : String)
    (commands : List HisCommand) (items : List HisItem) (draw : Draw) :
    let seen := (HisStore.new limits authority).observe id commands
    RetainsAt id seen.1 seen.2 ∧ ∀ error, (seen.1.write id items draw).2 = .error error →
        Unwritten seen.1 (seen.1.write id items draw).1 id := by
  intro seen
  constructor
  · have started : AgreesAt id (HisStore.new limits authority) .empty := by
      simp [AgreesAt, HisStore.new]
    have agrees := started.observe commands
    unfold AgreesAt at agrees
    unfold RetainsAt
    split at agrees
    · rename_i absent
      simp only [seen, absent]
      exact agrees
    · rename_i series held
      simp only [seen, held]
      exact agrees.retains
  · intro error failed
    have wrote := write_wrote seen.1 id items draw
    generalize seen.1.write id items draw = result at wrote failed
    obtain ⟨_, _⟩ := result
    cases wrote with
    | nothing | wrote => cases failed
    | refused => exact .refl _ _
    | unwritten opened series error opens => exact opens.unwritten

end HisStore
end App
end Haystack
