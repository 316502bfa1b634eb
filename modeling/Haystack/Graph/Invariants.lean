import Haystack.Graph.Run

/-!
# Invariants of reachable graphs

The derived structures of a reachable graph are those determined by its rows, and
its log consists of complete commit units within the configured bounds.
-/

namespace Haystack
namespace Graph

open Collections
open Haystack.Filter (FilterNode Ontology Arc)

namespace EntityGraph

variable {N C : Type}

/-- The row of a numeric id. -/
def rowOf (g : EntityGraph N C) (n : Nat) : Option HDict :=
  (g.reverseId[n]?).bind fun refVal => g.entities[refVal]?

/-- The derived structures of a graph are those determined by its rows. -/
structure Derived (g : EntityGraph N C) : Prop where
  /-- The id maps are inverse to each other. -/
  inverse : ∀ (refVal : String) (n : Nat),
    g.idMap[refVal]? = some n ↔ g.reverseId[n]? = some refVal
  /-- Exactly the ref values of the rows have an id. -/
  covered : ∀ refVal : String,
    (∃ n, g.idMap[refVal]? = some n) ↔ ∃ row, g.entities[refVal]? = some row
  /-- An id below the next one is either live or once in the free list. -/
  liveOrFree : ∀ n < g.nextId, (∃ row, g.rowOf n = some row) ∧ n ∉ g.freeIds ∨
      g.rowOf n = none ∧ g.freeIds.count n = 1
  /-- No other id is live or free. -/
  below : ∀ n, (∃ row, g.rowOf n = some row) ∨ n ∈ g.freeIds → n < g.nextId
  /-- The `id` tag of a row is a reference to its key. -/
  identified : ∀ (refVal : String) (row : HDict), g.entities[refVal]? = some row →
      ∃ r : HRef, row.get "id" = some (.ref r) ∧ r.val = refVal
  /-- The bitmap of a tag holds the live ids with the tag, and is not empty. -/
  tagged : ∀ (tag : String) (bitmap : Finset Nat), g.tagIndex.hasTag tag = some bitmap →
      bitmap.Nonempty ∧ ∀ n, n ∈ bitmap ↔ ∃ row, g.rowOf n = some row ∧ row.has tag = true
  /-- A tag without bitmap is on no row. -/
  untagged : ∀ tag : String, g.tagIndex.hasTag tag = none →
    ∀ n row, g.rowOf n = some row → row.has tag = false
  /-- The bucket of a registered field and a value holds the live ids with the
  value, each once. -/
  values : ∀ (field : String) (key : OrderableKind), g.valueIndex.hasIndex field = true →
      (g.valueIndex.bucketOf (field, key)).Nodup ∧ ∀ n, n ∈ g.valueIndex.bucketOf (field, key) ↔
          ∃ row value, g.rowOf n = some row ∧ row.get field = some value ∧
            OrderableKind.fromKind value = some key
  /-- The outgoing edges of a live id are the `Ref` tags of its row, each once;
  no other id has any. -/
  forward : ∀ n, (g.adjacency.forward[n]?.getD []).Nodup ∧
      ∀ tag target, (tag, target) ∈ g.adjacency.forward[n]?.getD [] ↔
        tag ≠ "id" ∧ ∃ row r, g.rowOf n = some row ∧ row.get tag = some (.ref r) ∧ r.val = target
  /-- The incoming edges of a target are the `Ref` tags of the live rows that
  point to it, each once. -/
  reverse : ∀ target : String, (g.adjacency.reverse[target]?.getD []).Nodup ∧
      ∀ tag n, (tag, n) ∈ g.adjacency.reverse[target]?.getD [] ↔
        tag ≠ "id" ∧ ∃ row r, g.rowOf n = some row ∧ row.get tag = some (.ref r) ∧ r.val = target

private theorem liveOrFree_of_wellFormed {rows : Rows} (wellFormed : rows.WellFormed) {n : Nat}
    (below : n < rows.nextId) :
    (∃ row, rows.live n = some row) ∧ n ∉ rows.freeIds ∨
      rows.live n = none ∧ rows.freeIds.count n = 1 := by
  by_cases free : n ∈ rows.freeIds
  · have unowned := wellFormed.notBoth n free
    refine .inr ⟨by simp [Rows.live, unowned], ?_⟩
    exact List.count_eq_one_of_mem wellFormed.freeNodup free
  · have owned := ((wellFormed.liveOrFree n).mp below).resolve_right free
    obtain ⟨refVal, owner⟩ := Option.isSome_iff_exists.mp owned
    have covered := wellFormed.covered refVal
    rw [(wellFormed.inverse refVal n).mpr owner] at covered
    obtain ⟨row, found⟩ := Option.isSome_iff_exists.mp covered.symm
    exact .inl ⟨⟨row, by simp [Rows.live, owner, found]⟩, free⟩

private theorem below_of_wellFormed {rows : Rows} (wellFormed : rows.WellFormed) {n : Nat}
    (used : (∃ row, rows.live n = some row) ∨ n ∈ rows.freeIds) : n < rows.nextId := by
  rw [wellFormed.liveOrFree]
  rcases used with ⟨row, alive⟩ | free
  · obtain ⟨_, owner, _⟩ := Option.bind_eq_some_iff.mp alive
    exact .inl (by rw [owner, Option.isSome_some])
  · exact .inr free

/-- Exact derived structures, spelled out. -/
theorem Indexed.derived {g : EntityGraph N C} (indexed : g.Indexed) : g.Derived where
  inverse := indexed.rows.inverse
  covered refVal := by
    rw [← Option.isSome_iff_exists, ← Option.isSome_iff_exists]
    exact (indexed.rows.covered refVal) ▸ Iff.rfl
  liveOrFree n below := liveOrFree_of_wellFormed indexed.rows below
  below n used := below_of_wellFormed indexed.rows used
  identified := indexed.rows.identified
  tagged tag bitmap found := by
    obtain ⟨reflects, nonempty⟩ := indexed.tags
    refine ⟨Finset.nonempty_iff_ne_empty.mpr (nonempty tag bitmap found), ?_⟩
    intro n
    have members := reflects tag n
    rw [bucket_of_getElem? found] at members
    simp only [TagBitmapIndex.mem_rowSlots_slot] at members
    rw [members]
    constructor
    · rintro ⟨_, row, alive, rfl, has⟩
      exact ⟨row, alive, has⟩
    · rintro ⟨row, alive, has⟩
      exact ⟨n, row, alive, rfl, has⟩
  untagged tag missing n row alive := by
    obtain ⟨reflects, _⟩ := indexed.tags
    have members := reflects tag n
    rw [bucket_of_getElem?_none missing] at members
    rw [Bool.eq_false_iff]
    intro has
    refine absurd (members.mpr ⟨n, row, alive, ?_⟩) (Finset.notMem_empty n)
    exact TagBitmapIndex.mem_rowSlots_slot.mpr ⟨rfl, has⟩
  values field key registered := by
    refine ⟨indexed.values.lists.nodup _, fun n => ?_⟩
    refine (indexed.values.lists.reflects (field, key) n).trans ?_
    simp only [ValueIndex.mem_rowSlots_slot, registered, true_and]
    constructor
    · rintro ⟨_, row, alive, rfl, value, found, keyed⟩
      exact ⟨row, value, alive, found, keyed⟩
    · rintro ⟨row, value, alive, found, keyed⟩
      exact ⟨n, row, alive, rfl, value, found, keyed⟩
  forward n := by
    have edges : g.adjacency.forward[n]?.getD [] =
        (g.rowOf n).elim [] RefAdjacency.outgoing := indexed.edges.forward n
    rw [edges]
    cases g.rowOf n with
    | none => simp
    | some row =>
      refine ⟨RefAdjacency.nodup_outgoing row, fun tag target => ?_⟩
      simp [RefAdjacency.mem_outgoing]
  reverse target := by
    refine ⟨indexed.edges.reverse.nodup target, fun tag n => ?_⟩
    refine (indexed.edges.reverse.reflects target (tag, n)).trans ?_
    simp only [RefAdjacency.mem_rowSlots_slot]
    constructor
    · rintro ⟨_, row, alive, named, rfl, r, found, same⟩
      exact ⟨named, row, r, alive, found, same⟩
    · rintro ⟨named, row, r, alive, found, same⟩
      exact ⟨n, row, alive, named, rfl, r, found, same⟩

end EntityGraph

namespace Session

variable {N C : Type} {ontology : Ontology N C} {parseFilter : String → Except String FilterNode}

/-- In every reachable graph, the derived structures are those determined by the
rows. -/
theorem derived_of_reachable {s : Session N C} (reachable : Reachable ontology parseFilter s) :
    s.graph.Derived :=
  reachable.sound.indexed.derived

/-- Ids freed by a removal are used again. -/
theorem derived_after_reuse :
    let row (name : String) : HDict := HDict.new.set "id" (.ref ⟨name, none⟩)
    let s := run Ontology.blank (fun _ => .error "no filter") (initial 3 3000 1 none)
      [.add 0 (row "a"), .add 0 (row "b"), .remove 0 "a", .add 0 (row "c")]
    s.graph.nextId = 2 ∧ s.graph.version = 4 ∧ s.graph.Derived :=
  ⟨by decide, by decide, derived_of_reachable ⟨_, _, _, _, _, rfl⟩⟩

end Session

/-! ## The log -/

namespace EntityGraph

variable {N C : Type} {ontology : Ontology N C} {parseFilter : String → Except String FilterNode}

/-- What later states keep of a log: its bounds and, from below, its floor. -/
structure LogLater (log log' : Changelog) : Prop where
  capacity : log'.capacity = log.capacity
  byteCapacity : log'.byteCapacity = log.byteCapacity
  floor : log.floorVersion ≤ log'.floorVersion

theorem LogLater.refl (log : Changelog) : LogLater log log := ⟨rfl, rfl, le_rfl⟩

theorem LogLater.trans {first second third : Changelog} (left : LogLater first second)
    (right : LogLater second third) : LogLater first third :=
  ⟨right.capacity.trans left.capacity,
    right.byteCapacity.trans left.byteCapacity, left.floor.trans right.floor⟩

variable {units : List (List GraphDiff)} {g : EntityGraph N C} {g' : EntityGraph N C}

theorem Commit.logLater {changes : List IndexChange} {diffs : List GraphDiff}
    (committed : Commit g g' changes diffs) (retains : Changelog.Retains g.log g.version units) :
    LogLater g.log g'.log := by
  cases committed.logged with
  | unit now accounted appended =>
    have evicted := retains.appendCommittedUnit committed.complete now
    rw [appended]
    exact ⟨evicted.capacity, evicted.byteCapacity, evicted.floor⟩
  | gap cleared =>
    have head := retains.head
    have version := committed.version
    rw [cleared]
    refine ⟨rfl, rfl, ?_⟩
    change g.log.floorVersion ≤ g'.version
    omega

theorem Moved.logLater (moved : Moved ontology parseFilter g g')
    (retains : Changelog.Retains g.log g.version units) : LogLater g.log g'.log := by
  rcases moved.commit_or_same with ⟨_, _, committed⟩ | ⟨_, _, log, _⟩
  · exact committed.logLater retains
  · rw [log]
    exact .refl _

/-- A log is well formed: consecutive revisions up to the head, in complete units
that know their first and last revision, within the bounds. -/
structure LogFormed (g : EntityGraph N C) (capacity byteCapacity : Nat)
    (units : List (List GraphDiff)) : Prop where
  floor : g.log.floorVersion ≤ g.version
  consecutive : g.log.entries.map (·.version) =
    List.range' (g.log.floorVersion + 1) (g.version - g.log.floorVersion)
  partitioned : g.log.entries = units.flatten
  complete : ∀ unit ∈ units, ∃ first last, unit.head? = some first ∧
    unit.getLast? = some last ∧ ∀ diff ∈ unit, diff.span = ⟨first.version, last.version⟩
  bytes : g.log.bytes = (g.log.entries.map (·.retainedBytes)).sum
  count : g.log.entries.length ≤ capacity
  byteCount : g.log.bytes ≤ byteCapacity

private theorem complete_of_diffUnits {floor : Nat} (formed : Changelog.DiffUnits floor units)
    {unit : List GraphDiff} (member : unit ∈ units) :
    ∃ first last, unit.head? = some first ∧ unit.getLast? = some last ∧
      ∀ diff ∈ unit, diff.span = ⟨first.version, last.version⟩ := by
  obtain ⟨older, _, rfl⟩ := List.append_of_mem member
  obtain ⟨_, nonempty, versions, spans, _⟩ := unitsFrom_append.mp formed
  obtain ⟨first, rest, rfl⟩ := List.exists_cons_of_ne_nil nonempty
  obtain ⟨last, ends⟩ := Option.isSome_iff_exists.mp (List.getLast?_isSome.mpr nonempty)
  have starts : first.version = floor + older.flatten.length + 1 := by
    exact (List.cons.inj versions).1
  have finish : last.version = floor + older.flatten.length + (first :: rest).length :=
    UnitsFrom.last_version formed ends
  refine ⟨first, last, rfl, ends, fun diff diffMember => ?_⟩
  obtain ⟨spanFirst, spanLast⟩ := spans diff diffMember
  exact CommitSpan.ext (spanFirst.trans starts.symm) (spanLast.trans finish.symm)

theorem logFormed_of_retains (retains : Changelog.Retains g.log g.version units) :
    LogFormed g g.log.capacity g.log.byteCapacity units where
  floor := by
    have head := retains.head
    omega
  consecutive := by
    have numbered := retains.complete.map_version
    have head := retains.head
    rw [← retains.entries] at numbered head
    rw [numbered]
    congr 1
    omega
  partitioned := retains.entries
  complete := fun unit member => complete_of_diffUnits retains.complete member
  bytes := by
    rw [retains.entries]
    exact retains.bytes
  count := retains.count
  byteCount := retains.byteCount

end EntityGraph

namespace Session

open EntityGraph (LogLater LogFormed)

variable {N C : Type} {ontology : Ontology N C} {parseFilter : String → Except String FilterNode}

theorem Sound.run_logLater {s : Session N C} (sound : s.Sound) (commands : List (Command N C)) :
    LogLater s.graph.log (s.run ontology parseFilter commands).graph.log := by
  induction commands generalizing s with
  | nil => exact .refl _
  | cons command commands ih =>
    obtain ⟨_, retains⟩ := sound.retained
    have first : LogLater s.graph.log (s.step ontology parseFilter command).graph.log :=
      (sound.step_moved command).logLater retains
    exact first.trans (ih (sound.step command))

/-- The log of every reachable graph is well formed, its floor never decreases,
and its units are read completely and in order from exactly the floor and the
ends of units. -/
theorem changelog_wellFormed
    (capacity bytes : Nat) (incarnation : BitVec 128) (base : Option (Arc N))
    (commands : List (Command N C)) :
    let start : Session N C := initial capacity bytes incarnation base
    let g := (start.run ontology parseFilter commands).graph
    ∃ units, LogFormed g (max capacity 1) (max bytes 1) units ∧
      (∀ more, g.log.floorVersion ≤ (start.run ontology parseFilter
        (commands ++ more)).graph.log.floorVersion) ∧
      (∀ v, (∃ iterator, g.changeUnitsSince v = .ok iterator) ↔
        g.log.floorVersion ≤ v ∧ v ≤ g.version ∧ (v = g.log.floorVersion ∨ ∃ unit ∈ units, ∃ diff,
            unit.getLast? = some diff ∧ diff.version = v)) ∧
      ∀ v iterator, g.changeUnitsSince v = .ok iterator → ∀ fuel ≥ units.length,
          (iterator.collect fuel).map ChangeUnit.diffs =
              units.filter (fun unit => unit.all (v < ·.version)) ∧
            ∀ unit ∈ iterator.collect fuel, ∀ diff ∈ unit.diffs, diff.span = unit.span := by
  intro start g
  have soundStart : start.Sound := sound_initial capacity bytes incarnation base
  have sound : (start.run ontology parseFilter commands).Sound := soundStart.run commands
  have later : LogLater start.graph.log g.log := soundStart.run_logLater commands
  obtain ⟨units, retains⟩ := sound.retained
  have accepted := Changelog.Retains.changeUnitsSince_isOk_iff g.state retains
  refine ⟨units, ?_, ?_, ?_, ?_⟩
  · have formed := EntityGraph.logFormed_of_retains retains
    rw [later.capacity, later.byteCapacity] at formed
    exact formed
  · intro more
    unfold run
    rw [List.foldl_append]
    exact (sound.run_logLater more).floor
  · intro v
    refine (accepted v).trans ?_
    rw [retains.complete.boundary_iff v]
    rfl
  · intro v iterator found fuel enough
    obtain ⟨_, _, _, newer, rfl, rfl⟩ := (accepted v).mp ⟨iterator, found⟩
    have boundary := Changelog.Retains.changeUnitsSince_boundary g.state retains
    obtain rfl := Except.ok.inj (found.symm.trans boundary)
    have remaining : newer.length ≤ fuel := by
      rw [List.length_append] at enough
      omega
    obtain ⟨collected, spans⟩ := Changelog.Retains.collect_unitsAfter g.state retains remaining
    refine ⟨collected.trans ?_, fun unit member => (spans unit member).2⟩
    exact retains.complete.filter_after.symm

end Session
end Graph
end Haystack
