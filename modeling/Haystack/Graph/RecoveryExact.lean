import Haystack.Filter.Traversal
import Haystack.Graph.QueryExact
import Haystack.Graph.Recovery

/-!
# Recovery of reachable graphs

The image of a reachable graph is accepted, and the restored graph agrees with
the original on rows, state and log, and so on every answer.  Its numeric ids may
differ, so the answers are compared as sets of rows.  An image that is accepted
has consecutive changes that form complete units.
-/

namespace Haystack
namespace Graph

open Std (ExtTreeMap)
open Collections
open Haystack.Filter (FilterNode Ontology Arc ListsSources Serves Identified matchesWithNs_congr)

/-! ## Changes -/

theorem limited_eq_ok {α : Type} {result : Option α} {value : α} :
    limited result = .ok value ↔ result = some value := by
  cases result <;> simp [limited]

variable {before after : ExtTreeMap String HDict} {diff : GraphDiff}

/-- The diffs of a mutation have the dictionaries of their operation. -/
theorem Recorded.valid (recorded : Recorded before after diff) :
    (RecoveryChange.ofDiff diff).valid = true := by
  cases recorded with
  | add row op shape identified | remove old op shape identified =>
    obtain ⟨r, tagged, same⟩ := identified
    simp [RecoveryChange.valid, RecoveryChange.isRow, RecoveryChange.ofDiff,
      op, shape, HDict.id_eq_some_iff.mpr tagged, same]
  | update old changes op shape =>
    simp [RecoveryChange.valid, RecoveryChange.ofDiff, op, shape]

variable {diffs : List GraphDiff}

theorem RecordedAll.valid (recorded : RecordedAll before diffs after) :
    ∀ diff ∈ diffs, (RecoveryChange.ofDiff diff).valid = true := by
  induction recorded with
  | nil => simp
  | snoc _ last ih =>
    intro diff member
    rcases List.mem_append.mp member with earlier | new
    · exact ih diff earlier
    · obtain rfl := List.mem_singleton.mp new
      exact last.valid

/-- A diff can be restored. -/
def GraphDiff.Restorable (diff : GraphDiff) : Prop :=
  (RecoveryChange.ofDiff diff).valid = true ∧ diff.Accounted

/-- A restorable diff is restored with the bytes it had. -/
theorem GraphDiff.Restorable.intoDiff_ofDiff (restorable : diff.Restorable) (named : diff.refVal ≠ "")
    (short : diff.refVal.utf8ByteSize ≤ 4096) {limit : Nat}
    (within : diff.retainedBytes ≤ limit) (machine : limit ≤ usizeMax) :
    (RecoveryChange.ofDiff diff).intoDiff limit = .ok diff := by
  have counted := (restorable.2 short).diffBytes_eq within machine
  have bytes : diffBytes (RecoveryChange.ofDiff diff).id
      ([(RecoveryChange.ofDiff diff).old, (RecoveryChange.ofDiff diff).new,
        (RecoveryChange.ofDiff diff).changed,
        (RecoveryChange.ofDiff diff).previous].filterMap fun dict => dict)
      limit = some diff.retainedBytes := counted
  have accepted : ¬(!(RecoveryChange.ofDiff diff).valid ||
      (RecoveryChange.ofDiff diff).id.isEmpty ||
      (RecoveryChange.ofDiff diff).id.utf8ByteSize > 4096) = true := by
    rw [restorable.1]
    simp [RecoveryChange.ofDiff, named, short]
  rw [RecoveryChange.intoDiff, if_neg accepted, bytes]
  rfl

/-! ## The loop over the changes -/

/-- The check of versions and spans in the loop over the changes. -/
abbrev scanChange (revision : Nat) :
    Nat × Option CommitSpan → RecoveryChange → Option (Nat × Option CommitSpan) :=
  scanUnit RecoveryChange.version RecoveryChange.span CommitSpan.first CommitSpan.last revision

variable {revision : Nat} {change : RecoveryChange}

theorem nextSpan_eq_ok_iff {previous : Nat} {span after : Option CommitSpan} :
    nextSpan revision previous span change = .ok after ↔ previous + 1 ≤ u64Max ∧
        scanChange revision (previous, span) change = some (change.version, after) := by
  unfold nextSpan scanChange scanUnit
  by_cases checked : checkedAdd u64Max previous 1 = some change.version
  · obtain ⟨number, within⟩ := checkedAdd_eq_some_iff.mp checked
    rw [if_neg (not_not.mpr checked)]
    simp only [number, within, true_and]
    cases span with
    | none =>
      simp only [inUnit, number, decide_eq_true_eq]
      by_cases opens : change.span.first = previous + 1 ∧
          previous + 1 ≤ change.span.last ∧ change.span.last ≤ revision
      · rw [if_neg (by omega : ¬(change.span.first ≠ previous + 1 ∨
          change.span.last < previous + 1 ∨ change.span.last > revision)),
          if_pos opens]
        simp
      · rw [if_pos (by omega : change.span.first ≠ previous + 1 ∨
          change.span.last < previous + 1 ∨ change.span.last > revision),
          if_neg opens]
        simp
    | some unit =>
      by_cases same : unit = change.span <;> simp [inUnit, same]
  · rw [if_pos checked]
    simp only [reduceCtorEq, false_iff, not_and]
    intro within
    rw [if_neg]
    · simp
    · rintro ⟨number, _⟩
      exact checked (checkedAdd_eq_some_iff.mpr ⟨number, within⟩)

variable {limits : RecoveryLimits} {loading after : Loading}

theorem loadChange_eq_ok_iff :
    loadChange limits revision loading change = .ok after ↔ ∃ span diff budget,
        nextSpan revision loading.previous loading.span change = .ok span ∧
        change.intoDiff limits.maxBytes = .ok diff ∧
        loading.budget.charge 1 diff.retainedBytes = some budget ∧
        loading.bytes + diff.retainedBytes ≤ usizeMax ∧
        after =
          { changes := loading.changes ++ [diff]
            bytes := loading.bytes + diff.retainedBytes
            previous := change.version
            span := span
            budget := budget } := by
  unfold loadChange
  simp only [except_bind_eq_ok, limited_eq_ok, checkedAdd_eq_some_iff]
  constructor
  · rintro ⟨span, scanned, diff, restored, budget, charged, _, ⟨rfl, within⟩, same⟩
    exact ⟨span, diff, budget, scanned, restored, charged, within, (Except.ok.inj same).symm⟩
  · rintro ⟨span, diff, budget, scanned, restored, charged, within, rfl⟩
    exact ⟨span, scanned, diff, restored, budget, charged, _, ⟨rfl, within⟩, rfl⟩

/-- Loaded changes pass the check of versions and spans. -/
theorem scan_of_load {changes : List RecoveryChange}
    (loaded : changes.foldlM (loadChange limits revision) loading = .ok after) :
    changes.foldlM (scanChange revision) (loading.previous, loading.span) =
      some (after.previous, after.span) := by
  induction changes generalizing loading with
  | nil =>
    obtain rfl := Except.ok.inj loaded
    rfl
  | cons change changes ih =>
    rw [List.foldlM_cons, except_bind_eq_ok] at loaded
    obtain ⟨_, step, rest⟩ := loaded
    obtain ⟨_, _, _, scanned, _, _, _, rfl⟩ := loadChange_eq_ok_iff.mp step
    rw [List.foldlM_cons, (nextSpan_eq_ok_iff.mp scanned).2]
    exact ih rest

variable {budget : ValueBudget}

/-- Restorable diffs that pass the check and fit the budget are loaded. -/
theorem load_of_scan (loading : Loading) {final : Nat × Option CommitSpan}
    (scanned : (diffs.map RecoveryChange.ofDiff).foldlM (scanChange revision)
      (loading.previous, loading.span) = some final)
    (restored : ∀ diff ∈ diffs, (RecoveryChange.ofDiff diff).intoDiff limits.maxBytes = .ok diff)
    (charged : diffs.foldlM
      (fun budget diff => budget.charge 1 diff.retainedBytes) loading.budget = some budget)
    (bounded : loading.previous + diffs.length ≤ u64Max)
    (small : loading.bytes + (diffs.map (·.retainedBytes)).sum ≤ usizeMax) :
    (diffs.map RecoveryChange.ofDiff).foldlM (loadChange limits revision) loading = .ok
        { changes := loading.changes ++ diffs
          bytes := loading.bytes + (diffs.map (·.retainedBytes)).sum
          previous := final.1
          span := final.2
          budget := budget } := by
  induction diffs generalizing loading with
  | nil =>
    obtain rfl := Option.some.inj scanned
    obtain rfl := Option.some.inj charged
    simp [pure, Except.pure]
  | cons diff diffs ih =>
    simp only [List.map_cons, List.sum_cons, List.length_cons] at small bounded
    obtain ⟨state, here, scanned⟩ := Option.bind_eq_some_iff.mp scanned
    obtain ⟨left, chargedHere, charged⟩ := Option.bind_eq_some_iff.mp charged
    obtain ⟨first, others⟩ := List.forall_mem_cons.mp restored
    obtain ⟨number, same⟩ := scanUnit_eq_some here
    obtain ⟨version, span⟩ := state
    obtain rfl : version = (RecoveryChange.ofDiff diff).version := same
    have loaded : loadChange limits revision loading (RecoveryChange.ofDiff diff) = .ok
          { changes := loading.changes ++ [diff]
            bytes := loading.bytes + diff.retainedBytes
            previous := (RecoveryChange.ofDiff diff).version
            span := span
            budget := left } :=
      loadChange_eq_ok_iff.mpr ⟨span, diff, left,
        nextSpan_eq_ok_iff.mpr ⟨by omega, here⟩, first, chargedHere, by omega,
        rfl⟩
    rw [List.map_cons, List.foldlM_cons, loaded]
    have rest := ih
      { changes := loading.changes ++ [diff]
        bytes := loading.bytes + diff.retainedBytes
        previous := (RecoveryChange.ofDiff diff).version
        span := span
        budget := left } scanned others charged
      (by simp only [number]; omega) (by simp only; omega)
    refine rest.trans ?_
    simp [Nat.add_assoc]

variable {after : ValueBudget}

/-- The bytes of charged diffs fit the budget. -/
theorem sum_le_of_charged
    (charged : diffs.foldlM (fun budget diff => budget.charge 1 diff.retainedBytes) budget =
        some after) :
    (diffs.map (·.retainedBytes)).sum ≤ budget.bytesLeft := by
  have step (budget : ValueBudget) (diff : GraphDiff) : budget.charge 1 diff.retainedBytes =
        Charge.step budget ⟨0, 1, diff.retainedBytes⟩ := by
    simp [Charge.step]
  simp only [step] at charged
  rw [← List.foldlM_map] at charged
  have fits := (Charge.run_eq_some_iff.mp charged).1.bytes
  simpa [Charge.totalBytes, Function.comp_def] using fits

theorem bytesLeft_of_dicts {depth : Nat} {rows : List HDict}
    (charged : budget.dicts depth rows = some after) : after.bytesLeft ≤ budget.bytesLeft := by
  rw [ValueBudget.dicts_eq_run] at charged
  obtain ⟨_, rfl⟩ := Charge.run_eq_some_iff.mp charged
  exact Nat.sub_le _ _

theorem RecoveryLimits.validate_eq_ok (valid : limits.validate = .ok ()) :
    limits.maxRows ≤ 100000 ∧ limits.maxChanges ≤ 100000 ∧ limits.maxBytes ≤ usizeMax := by
  unfold RecoveryLimits.validate at valid
  split at valid
  · cases valid
  · unfold usizeMax
    omega

namespace EntityGraph

variable {N C : Type} {ontology : Ontology N C} {parseFilter : String → Except String FilterNode}

/-! ## What a run keeps for recovery -/

/-- The diffs of the log can be restored, and the namespace is the one of the
activated catalog. -/
structure Imageable (ontology : Ontology N C) (g : EntityGraph N C) : Prop where
  entries : ∀ diff ∈ g.log.entries, diff.Restorable
  managed : ∀ catalog, g.activated = some catalog →
    g.namespaceArc = some (ontology.catalogNamespace catalog.val) ∧ g.catalogGeneration ≠ 0

theorem Commit.restorable {g g' : EntityGraph N C} {changes : List IndexChange}
    (committed : Commit g g' changes diffs) {units : List (List GraphDiff)}
    (retains : Changelog.Retains g.log g.version units)
    (before : ∀ diff ∈ g.log.entries, diff.Restorable) :
    ∀ diff ∈ g'.log.entries, diff.Restorable := by
  intro diff member
  cases committed.logged with
  | gap cleared =>
    rw [cleared] at member
    cases member
  | unit now accounted appended =>
    rw [appended, retains.entries_appendCommittedUnit committed.complete now] at member
    rcases List.mem_append.mp (List.mem_of_mem_drop member) with old | new
    · exact before diff old
    · obtain ⟨original, written, rfl⟩ := List.mem_map.mp new
      exact ⟨committed.recorded.valid original written, accounted original written⟩

theorem Imageable.moved {s : Session N C} (sound : s.Sound) {g' : EntityGraph N C}
    (moved : Moved ontology parseFilter s.graph g') (imageable : Imageable ontology s.graph) :
    Imageable ontology g' where
  entries := by
    obtain ⟨_, retains⟩ := sound.retained
    rcases moved.commit_or_same with ⟨_, _, committed⟩ | ⟨_, _, log, _⟩
    · exact committed.restorable retains imageable.entries
    · rw [log]
      exact imageable.entries
  managed := by
    cases moved with
    | commit changes diffs committed =>
      have framed := committed.framed
      rw [framed.activated, framed.namespaceArc, framed.catalogGeneration]
      exact imageable.managed
    | republished ns activated derived =>
      intro catalog same
      exact ⟨derived catalog same, Nat.succ_ne_zero _⟩
    | queried filterExpr limit =>
      obtain ⟨_, _, same⟩ := readAll_frame ontology parseFilter s.graph filterExpr limit
      rw [same]
      exact imageable.managed
    | _ => exact imageable.managed

end EntityGraph

theorem Session.Reachable.imageable {N C : Type} {ontology : Ontology N C}
    {parseFilter : String → Except String FilterNode} {s : Session N C}
    (reachable : Reachable ontology parseFilter s) : s.graph.Imageable ontology := by
  refine reachable.keeps ?_ ?_
  · intro capacity bytes incarnation base
    refine ⟨?_, ?_⟩
    · intro diff member
      cases member
    · intro catalog activated
      cases activated
  · intro s g' sound moved imageable
    exact imageable.moved sound moved

namespace EntityGraph

variable {N C : Type} {ontology : Ontology N C} {parseFilter : String → Except String FilterNode}

/-! ## Rows -/

theorem extractRefVal_of_identified
    {refVal : String} {row : HDict} (identified : IdentifiedBy refVal row) :
    extractRefVal row = .ok refVal := by
  obtain ⟨r, tagged, rfl⟩ := identified
  rw [extractRefVal, tagged]

variable {g : EntityGraph N C}

/-- What adding rows of distinct refs to a new graph does. -/
theorem foldlM_loadRow (indexed : g.Indexed) (recycled : g.freeIds = [])
    {entries : List (String × HDict)} (idsLeft : g.nextId + entries.length ≤ maxEntityId)
    (versionsLeft : g.version + entries.length ≤ u64Max)
    (identified : ∀ entry ∈ entries, IdentifiedBy entry.1 entry.2)
    (distinct : entries.Pairwise fun left right => left.1 ≠ right.1)
    (absent : ∀ entry ∈ entries, g.entities[entry.1]? = none) (now : Int) :
    ∃ g', (entries.map Prod.snd).foldlM (loadRow now) g = .ok g' ∧ g'.Indexed ∧ Framed g g' ∧
      g'.entities = entries.foldl
        (fun entities entry => entities.insert entry.1 entry.2) g.entities := by
  induction entries generalizing g with
  | nil => exact ⟨g, rfl, indexed, .refl g, rfl⟩
  | cons entry entries ih =>
    obtain ⟨refVal, row⟩ := entry
    simp only [List.length_cons] at idsLeft versionsLeft
    obtain ⟨named, others⟩ := List.forall_mem_cons.mp identified
    obtain ⟨fresh, distinct⟩ := List.pairwise_cons.mp distinct
    have missing : g.entities[refVal]? = none := absent _ List.mem_cons_self
    have free : g.rows.takeId = some (g.nextId, { g.rows with nextId := g.nextId + 1 }) := by
      have within : ¬g.nextId > maxEntityId := by omega
      simp [Rows.takeId, EntityGraph.rows, recycled, within]
    obtain ⟨middle, added, performed⟩ := add_performed
      (extractRefVal_of_identified named) missing (by omega) free now
    have version := performed.version
    have nextId : middle.nextId = g.nextId + 1 := congrArg Rows.nextId performed.rows
    have freeIds : middle.freeIds = g.freeIds := congrArg Rows.freeIds performed.rows
    have entities : middle.entities = g.entities.insert refVal row :=
      congrArg Rows.entities performed.rows
    obtain ⟨g', loaded, indexedAfter, framed, rest⟩ := ih
      (performed.indexed indexed) (freeIds.trans recycled) (by omega)
      (by omega) others distinct fun other member => by
        rw [entities, ExtTreeMap.getElem?_insert]
        rw [if_neg (by simpa using fresh other member)]
        exact absent other (List.mem_cons_of_mem _ member)
    refine ⟨g', ?_, indexedAfter, performed.framed.trans framed, ?_⟩
    · rw [List.map_cons, List.foldlM_cons, loadRow, added]
      exact loaded
    · rw [rest, entities]
      rfl

/-- A map is rebuilt from its entries. -/
theorem foldl_insert_toList (entities : ExtTreeMap String HDict) : entities.toList.foldl
      (fun entities entry => entities.insert entry.1 entry.2) ∅ = entities := by
  apply ExtTreeMap.ext_getElem?
  intro refVal
  rw [observe_foldl_toList (·[refVal]?) fun entry _ => some entry.2]
  · cases entities[refVal]? <;> simp
  · intro state entry
    by_cases same : entry.1 = refVal <;>
      simp [ExtTreeMap.getElem?_insert]

/-! ## Answers depend on the rows -/

variable {refType : Option String}

theorem mem_sourcesTo {adjacency : RefAdjacency} {target : String} {n : Nat} :
    n ∈ adjacency.sourcesTo target refType ↔
      ∃ tag, (tag, n) ∈ adjacency.reverse[target]?.getD [] ∧ refType.all (tag = ·) = true := by
  unfold RefAdjacency.sourcesTo
  cases adjacency.reverse[target]? with
  | none | some edges => simp

theorem Indexed.identified (indexed : g.Indexed) : Identified g.entities := by
  intro refVal row found
  obtain ⟨r, tagged, same⟩ := indexed.rows.identified refVal row found
  exact ⟨r, HDict.id_eq_some_iff.mpr tagged, same⟩

/-- A live id is the one of a stored row. -/
theorem rowOf_eq_some_iff {n : Nat} {row : HDict} :
    g.rowOf n = some row ↔ ∃ refVal : String, g.reverseId[n]? = some refVal ∧
      g.entities[refVal]? = some row := by
  rw [rowOf, Option.bind_eq_some_iff]

theorem Indexed.listsSources (indexed : g.Indexed) : ListsSources g.entities g.inverseRows where
  byValue left right tag same := by
    unfold inverseRows
    rw [same]
  nodup target tag := by
    have edges := (indexed.derived.reverse target.val).1
    unfold inverseRows RefAdjacency.sourcesTo
    cases found : g.adjacency.reverse[target.val]? with
    | none => simp
    | some =>
      rw [found] at edges
      refine List.Nodup.filterMap ?_ ?_
      · intro n m row alive otherAlive
        exact indexed.rowOf_injective alive otherAlive
      · rw [List.Nodup, List.pairwise_map]
        refine List.Pairwise.imp_of_mem ?_ (edges.filter _)
        rintro ⟨left, n⟩ ⟨right, m⟩ leftKept rightKept different same
        have leftTag := (List.mem_filter.mp leftKept).2
        have rightTag := (List.mem_filter.mp rightKept).2
        simp only [Option.all_some, decide_eq_true_eq] at leftTag rightTag
        exact different (Prod.ext (leftTag.trans rightTag.symm) same)
  mem_iff target tag row := by
    simp only [inverseRows, List.mem_filterMap, mem_sourcesTo, Option.all_some, decide_eq_true_eq]
    constructor
    · rintro ⟨n, ⟨_, edge, rfl⟩, alive⟩
      obtain ⟨named, _, r, otherAlive, tagged, same⟩ :=
        ((indexed.derived.reverse target.val).2 _ n).mp edge
      obtain rfl := Option.some.inj (otherAlive.symm.trans alive)
      obtain ⟨refVal, _, found⟩ := rowOf_eq_some_iff.mp otherAlive
      exact ⟨named, refVal, r, found, tagged, same⟩
    · rintro ⟨named, refVal, r, found, tagged, same⟩
      obtain ⟨n, mapped⟩ := (indexed.derived.covered refVal).mpr ⟨row, found⟩
      have alive : g.rowOf n = some row :=
        indexed.rows.live_eq_some_iff.mpr ⟨refVal, mapped, found⟩
      exact ⟨n, ⟨tag, ((indexed.derived.reverse target.val).2 tag n).mpr
        ⟨named, row, r, alive, tagged, same⟩, rfl⟩, alive⟩

/-- The context of a graph serves its rows. -/
theorem Indexed.serves (indexed : g.Indexed) : Serves g.context g.entities :=
  ⟨rfl, ⟨g.inverseRows, rfl, indexed.listsSources⟩, rfl⟩

/-- The sources of a target are the rows with a reference to it. -/
theorem Indexed.mem_refsTo (indexed : g.Indexed) {target source : String} :
    source ∈ g.refsTo target refType ↔ ∃ tag row, refType.all (tag = ·) = true ∧ tag ≠ "id" ∧
        g.entities[source]? = some row ∧
        ∃ r, row.get tag = some (.ref r) ∧ r.val = target := by
  simp only [refsTo, List.mem_filterMap, mem_sourcesTo]
  constructor
  · rintro ⟨n, ⟨tag, edge, typed⟩, owner⟩
    obtain ⟨named, row, r, alive, tagged, same⟩ :=
      ((indexed.derived.reverse target).2 tag n).mp edge
    obtain ⟨_, otherOwner, found⟩ := rowOf_eq_some_iff.mp alive
    obtain rfl := Option.some.inj (otherOwner.symm.trans owner)
    exact ⟨tag, row, typed, named, found, r, tagged, same⟩
  · rintro ⟨tag, row, typed, named, found, r, tagged, same⟩
    obtain ⟨n, mapped⟩ := (indexed.derived.covered source).mpr ⟨row, found⟩
    have alive : g.rowOf n = some row := indexed.rows.live_eq_some_iff.mpr ⟨source, mapped, found⟩
    exact ⟨n, ⟨tag, ((indexed.derived.reverse target).2 tag n).mpr
      ⟨named, row, r, alive, tagged, same⟩, typed⟩,
      (indexed.rows.inverse source n).mp mapped⟩

/-- Two answers are the same failure or the same rows. -/
inductive SameAnswer : Except GraphError (List HDict) → Except GraphError (List HDict) → Prop
  | failed (failure : GraphError) : SameAnswer (.error failure) (.error failure)
  | rows {left right : List HDict} (same : left.Perm right) : SameAnswer (.ok left) (.ok right)

variable {g' : EntityGraph N C}

/-- Graphs with the same rows and namespace answer filters alike. -/
theorem sameAnswer_of_entities (indexed : g.Indexed) (indexedAfter : g'.Indexed)
    (cached : Cached ontology parseFilter g) (cachedAfter : Cached ontology parseFilter g')
    (entities : g'.entities = g.entities) (ns : g'.ns = g.ns) (filterExpr : String) :
    SameAnswer (g.readAll ontology parseFilter filterExpr 0).1
      (g'.readAll ontology parseFilter filterExpr 0).1 := by
  have checked : g'.checkedFilter ontology parseFilter filterExpr =
      g.checkedFilter ontology parseFilter filterExpr := by
    simp [checkedFilter, rejectUnresolvedSpecs, ns]
  have serves : Serves g'.context g.entities := entities ▸ indexedAfter.serves
  have scanned (ast : FilterNode) : g'.scan ontology ast = g.scan ontology ast := by
    unfold scan
    rw [entities, ns]
    congr 1
    funext row
    exact matchesWithNs_congr ontology indexed.identified serves indexed.serves g.ns row ast
  cases outcome : g.checkedFilter ontology parseFilter filterExpr with
  | error failure =>
    rw [cached.readAll_refused outcome, cachedAfter.readAll_refused (checked.trans outcome)]
    exact .failed failure
  | ok ast =>
    obtain ⟨rows, answered, same⟩ := cached.readAll_perm indexed outcome
    obtain ⟨_, answeredAfter, sameAfter⟩ :=
      cachedAfter.readAll_perm indexedAfter (checked.trans outcome)
    rw [answered, answeredAfter]
    rw [scanned ast] at sameAfter
    exact .rows (same.trans sameAfter.symm)

/-! ## Restored graphs -/

/-- A restored graph agrees with the original. -/
structure Recovered (ontology : Ontology N C) (parseFilter : String → Except String FilterNode)
    (g g' : EntityGraph N C) : Prop where
  entities : g'.entities = g.entities
  state : g'.state = g.state
  floor : g'.log.floorVersion = g.log.floorVersion
  changes : g'.log.entries = g.log.entries
  bytes : g'.log.bytes = g.log.bytes
  reads : ∀ filterExpr, SameAnswer (g.readAll ontology parseFilter filterExpr 0).1
      (g'.readAll ontology parseFilter filterExpr 0).1
  sources : ∀ (target : String) (refType : Option String) (source : String),
    source ∈ g'.refsTo target refType ↔ source ∈ g.refsTo target refType
  units : ∀ version, g'.changeUnitsSince version = g.changeUnitsSince version

variable {limits : RecoveryLimits} {image : GraphImage}

/-- What capturing an image requires. -/
theorem image_eq_ok (captured : g.image limits = .ok image) :
    limits.validate = .ok () ∧ g.entities.size ≤ limits.maxRows ∧
      g.log.entries.length ≤ limits.maxChanges ∧
      (∃ budget after, limits.budget.dicts 0 (g.entities.toList.map Prod.snd) = some budget ∧
        g.log.entries.foldlM (fun budget diff => budget.charge 1 diff.retainedBytes) budget =
            some after) ∧
      image =
        { state := g.state
          rows := g.entities.toList.map Prod.snd
          floor := g.log.floorVersion
          changes := g.log.entries.map RecoveryChange.ofDiff } := by
  obtain ⟨_, valid, captured⟩ := except_bind_eq_ok.mp captured
  split at captured
  · cases captured
  obtain ⟨budget, rows, captured⟩ := except_bind_eq_ok.mp captured
  obtain ⟨after, charged, captured⟩ := except_bind_eq_ok.mp captured
  refine ⟨valid, by omega, by omega, ⟨budget, after, limited_eq_ok.mp rows,
    limited_eq_ok.mp charged⟩, (Except.ok.inj captured).symm⟩

/-- The rows of a graph are loaded into a new one. -/
theorem Indexed.loaded (indexed : g.Indexed) (ontology : Ontology N C)
    (few : g.entities.size ≤ 100000) (fresh : BitVec 128) (now : Int) (catalog : Arc C) :
    ∃ g', (g.entities.toList.map Prod.snd).foldlM (loadRow now)
        (restoreBase ontology fresh catalog) = .ok g' ∧
      g'.Indexed ∧ Framed (restoreBase ontology fresh catalog) g' ∧
      g'.entities = g.entities := by
  have base : (restoreBase ontology fresh catalog).Indexed := by
    have start := indexed_initial (C := C) 1 1 fresh
      (some (ontology.catalogNamespace catalog.val))
    exact ⟨⟨start.tags, start.values, start.edges⟩, start.rows⟩
  have count : g.entities.toList.length ≤ 100000 := by
    rwa [ExtTreeMap.length_toList]
  obtain ⟨g', loaded, indexedAfter, framed, entities⟩ := foldlM_loadRow base rfl
      (show 0 + g.entities.toList.length ≤ maxEntityId by
        unfold maxEntityId u32Max
        omega)
      (show 0 + g.entities.toList.length ≤ u64Max by
        unfold u64Max
        omega)
      (fun entry member => indexed.rows.identified entry.1 entry.2
        (ExtTreeMap.mem_toList_iff_getElem?_eq_some.mp member))
      (pairwise_toList g.entities)
      (fun entry _ => ExtTreeMap.getElem?_empty) now
  exact ⟨g', loaded, indexedAfter, framed, entities.trans (foldl_insert_toList g.entities)⟩

variable {catalog : Arc C}

/-- What restoring an image requires. -/
theorem restore_eq_ok_iff {fresh : BitVec 128} {now : Int} :
    restore ontology fresh now image catalog limits = .ok g' ↔
      limits.validate = .ok () ∧ image.rows.length ≤ limits.maxRows ∧
      image.changes.length ≤ limits.maxChanges ∧
      (image.state.incarnation ≠ 0 ∧ image.state.catalogGeneration ≠ 0 ∧
        image.floor ≤ image.state.revision) ∧
      ∃ budget loading g, limits.budget.dicts 0 image.rows = some budget ∧
        image.changes.foldlM (loadChange limits image.state.revision)
          { changes := [], bytes := 0, previous := image.floor, span := none,
            budget := budget } = .ok loading ∧
        (loading.previous, loading.span) = (image.state.revision, none) ∧
        image.rows.foldlM (loadRow now) (restoreBase ontology fresh catalog) = .ok g ∧
        g' = g.install image limits loading := by
  unfold restore
  rw [except_bind_eq_ok]
  constructor
  · rintro ⟨_, valid, restored⟩
    split at restored
    · cases restored
    split at restored
    · cases restored
    rename_i counted stated
    obtain ⟨budget, rows, restored⟩ := except_bind_eq_ok.mp restored
    obtain ⟨loading, changes, restored⟩ := except_bind_eq_ok.mp restored
    split at restored
    · cases restored
    rename_i finished
    obtain ⟨g, loaded, restored⟩ := except_bind_eq_ok.mp restored
    simp only [not_or, not_not, Bool.not_eq_true, Option.isSome_eq_false_iff,
      Option.isNone_iff_eq_none] at finished stated
    exact ⟨valid, by omega, by omega, ⟨stated.1, stated.2.1, by omega⟩, budget,
      loading, g, limited_eq_ok.mp rows, changes,
      Prod.ext finished.1 finished.2, loaded, (Except.ok.inj restored).symm⟩
  · rintro ⟨valid, rowCount, changeCount, ⟨identity, generation, floor⟩,
      budget, loading, g, rows, changes, finished, loaded, rfl⟩
    obtain ⟨previous, span⟩ := Prod.mk.inj finished
    refine ⟨(), valid, ?_⟩
    have stated : ¬(image.state.incarnation = 0 ∨ image.state.catalogGeneration = 0 ∨
        image.floor > image.state.revision) := by
      rintro (zero | zero | below)
      · exact identity zero
      · exact generation zero
      · omega
    rw [if_neg (by omega), if_neg stated]
    refine except_bind_eq_ok.mpr ⟨budget, limited_eq_ok.mpr rows, ?_⟩
    refine except_bind_eq_ok.mpr ⟨loading, changes, ?_⟩
    rw [if_neg (by simp [previous, span])]
    exact except_bind_eq_ok.mpr ⟨g, loaded, rfl⟩

/-- The image of an imageable graph is restored. -/
theorem Imageable.restored (imageable : Imageable ontology g) (indexed : g.Indexed)
    (cached : Cached ontology parseFilter g) (bounded : g.version ≤ u64Max)
    {units : List (List GraphDiff)} (retains : Changelog.Retains g.log g.version units)
    (identity : g.incarnation ≠ 0) (activated : g.activated = some catalog)
    (logged : ∀ diff ∈ g.log.entries, diff.refVal ≠ "" ∧ diff.refVal.utf8ByteSize ≤ 4096)
    (captured : g.image limits = .ok image) (fresh : BitVec 128) (now : Int) :
    ∃ g', restore ontology fresh now image catalog limits = .ok g' ∧
      Recovered ontology parseFilter g g' := by
  obtain ⟨valid, rowCount, _, ⟨budget, after, rows, charged⟩, rfl⟩ := image_eq_ok captured
  obtain ⟨rowLimit, _, byteLimit⟩ := RecoveryLimits.validate_eq_ok valid
  obtain ⟨namespaceArc, generation⟩ := imageable.managed catalog activated
  have head := retains.head
  rw [← retains.entries] at head
  -- The bytes of the diffs fit the limit, so they are counted again alike.
  have sum := sum_le_of_charged charged
  have left : budget.bytesLeft ≤ limits.maxBytes := bytesLeft_of_dicts rows
  have restorable : ∀ diff ∈ g.log.entries,
      (RecoveryChange.ofDiff diff).intoDiff limits.maxBytes = .ok diff := by
    intro diff member
    have part : diff.retainedBytes ≤ (g.log.entries.map (·.retainedBytes)).sum :=
      List.single_le_sum (by simp) _ (List.mem_map_of_mem member)
    exact (imageable.entries diff member).intoDiff_ofDiff
      (logged diff member).1 (logged diff member).2 (by omega) byteLimit
  have scanned : (g.log.entries.map RecoveryChange.ofDiff).foldlM
      (scanChange g.version) (g.log.floorVersion, none) = some (g.version, none) := by
    rw [List.foldlM_map]
    exact (foldlM_scanUnit_eq_some_iff fun _ _ => CommitSpan.ext).mpr
      ⟨head.symm, [], units, retains.entries, retains.complete, rfl⟩
  have changes := load_of_scan
    { changes := [], bytes := 0, previous := g.log.floorVersion, span := none,
      budget := budget } scanned restorable charged
    (show g.log.floorVersion + g.log.entries.length ≤ u64Max by omega)
    (show 0 + (g.log.entries.map (·.retainedBytes)).sum ≤ usizeMax by omega)
  obtain ⟨loaded, added, indexedAfter, framed, entities⟩ :=
    indexed.loaded ontology (rowCount.trans rowLimit) fresh now catalog
  refine ⟨_, restore_eq_ok_iff.mpr ⟨valid, ?_, ?_,
    ⟨identity, generation, ?_⟩, budget, _, loaded, rows, changes, rfl, added,
    rfl⟩, ?_⟩
  · rwa [List.length_map, ExtTreeMap.length_toList]
  · rwa [List.length_map]
  · exact (Nat.le_add_right _ _).trans_eq head.symm
  have restoredIndexed : (loaded.install
      { state := g.state
        rows := g.entities.toList.map Prod.snd
        floor := g.log.floorVersion
        changes := g.log.entries.map RecoveryChange.ofDiff } limits
      { changes := [] ++ g.log.entries
        bytes := 0 + (g.log.entries.map (·.retainedBytes)).sum
        previous := g.version
        span := none
        budget := after }).Indexed :=
    ⟨⟨indexedAfter.tags, indexedAfter.values, indexedAfter.edges⟩, indexedAfter.rows⟩
  refine ⟨entities, rfl, rfl, rfl, ?_, ?_, ?_, ?_⟩
  · rw [retains.bytes, ← retains.entries]
    exact Nat.zero_add _
  · intro filterExpr
    refine sameAnswer_of_entities indexed restoredIndexed cached ⟨?_, ?_⟩ entities ?_ filterExpr
    · intro other ast found
      have empty : loaded.astCache = ∅ := framed.astCache
      change loaded.astCache[other]? = some ast at found
      simp [empty] at found
    · intro entry member
      cases member
    · have same : loaded.namespaceArc =
          some (ontology.catalogNamespace catalog.val) := framed.namespaceArc
      change loaded.namespaceArc.map _ = g.namespaceArc.map _
      rw [same, namespaceArc]
  · intro target refType source
    rw [restoredIndexed.mem_refsTo, indexed.mem_refsTo]
    change (∃ tag row, _ ∧ _ ∧ loaded.entities[source]? = some row ∧ _) ↔ _
    rw [entities]
  · intro version
    rfl

end EntityGraph

/-- The changes of an image have the versions from its floor to its revision. -/
def GraphImage.Consecutive (image : GraphImage) : Prop :=
  image.changes.map RecoveryChange.version = List.range' (image.floor + 1) image.changes.length ∧
    image.floor + image.changes.length = image.state.revision

/-- The changes of an image are complete units: every change of a unit carries
the first and the last version of the unit. -/
def GraphImage.CompleteUnits (image : GraphImage) : Prop :=
  ∃ units : List (List RecoveryChange), image.changes = units.flatten ∧
    ∀ unit ∈ units, ∃ first last, unit.head? = some first ∧ unit.getLast? = some last ∧
      ∀ change ∈ unit, change.span = ⟨first.version, last.version⟩

/-- An accepted image has consecutive changes that form complete units. -/
theorem complete_of_restore
    {N C : Type} {ontology : Ontology N C} {fresh : BitVec 128} {now : Int}
    {image : GraphImage} {catalog : Arc C} {g : EntityGraph N C}
    (restored : EntityGraph.restore ontology fresh now image catalog limits = .ok g) :
    image.Consecutive ∧ image.CompleteUnits := by
  obtain ⟨_, _, _, _, _, _, _, _, changes, finished, _⟩ :=
    EntityGraph.restore_eq_ok_iff.mp restored
  have scanned := scan_of_load changes
  rw [finished] at scanned
  obtain ⟨total, _, units, same, complete, rfl⟩ :=
    (foldlM_scanUnit_eq_some_iff fun _ _ => CommitSpan.ext).mp scanned
  refine ⟨⟨?_, total⟩, units, same, ?_⟩
  · rw [same]
    exact complete.map_version
  · intro unit member
    obtain ⟨first, last, front, back, spans⟩ := complete.unit_bounds unit member
    exact ⟨first, last, front, back, fun change inside =>
      CommitSpan.ext (spans change inside).1 (spans change inside).2⟩

namespace Session

variable {N C : Type} {ontology : Ontology N C} {parseFilter : String → Except String FilterNode}

/-- The image of a reachable graph is restored to a graph that agrees with it,
and an image is rejected when its changes are not consecutive up to its revision
or not made of complete units. -/
theorem restore_image {s : Session N C} (reachable : Reachable ontology parseFilter s)
    (identity : s.graph.incarnation ≠ 0) {catalog : Arc C}
    (activated : s.graph.activated = some catalog)
    (logged : ∀ diff ∈ s.graph.log.entries, diff.refVal ≠ "" ∧ diff.refVal.utf8ByteSize ≤ 4096)
    {limits : RecoveryLimits} {image : GraphImage}
    (captured : s.graph.image limits = .ok image) (fresh : BitVec 128) (now : Int) :
    (∃ g', EntityGraph.restore ontology fresh now image catalog limits =
        .ok g' ∧ EntityGraph.Recovered ontology parseFilter s.graph g') ∧
      ∀ (other : GraphImage) (otherCatalog : Arc C) (otherLimits : RecoveryLimits),
        ¬other.Consecutive ∨ ¬other.CompleteUnits →
          ∃ failure, EntityGraph.restore ontology fresh now other otherCatalog
            otherLimits = .error failure := by
  have sound := reachable.sound
  obtain ⟨_, retains⟩ := sound.retained
  refine ⟨reachable.imageable.restored sound.indexed reachable.cached
    sound.bounded retains identity activated logged captured fresh now, ?_⟩
  intro other otherCatalog otherLimits incomplete
  cases outcome : EntityGraph.restore ontology fresh now other otherCatalog otherLimits with
  | error failure => exact ⟨failure, rfl⟩
  | ok =>
    obtain ⟨consecutive, complete⟩ := complete_of_restore outcome
    rcases incomplete with versions | spans
    · exact absurd consecutive versions
    · exact absurd complete spans

/-- A graph with a patch and a removal, restored from its image. -/
theorem restore_image_patch :
    let row (name : String) : HDict := HDict.new.set "id" (.ref ⟨name, none⟩)
    let noFilter : String → Except String FilterNode := fun _ => .error ""
    let s := run Ontology.blank noFilter (initial 3 30000 1 none)
      [.add 0 (row "a"), .add 0 (row "b"), .compareInitializeCatalog ⟨1, 2, 0⟩ none ⟨7, ()⟩,
        .update 0 "a" (HDict.new.set "site" .marker), .remove 0 "b"]
    let image : GraphImage :=
      { state := s.graph.state
        rows := s.graph.entities.toList.map Prod.snd
        floor := s.graph.log.floorVersion
        changes := s.graph.log.entries.map RecoveryChange.ofDiff }
    s.graph.state = ⟨1, 4, 1⟩ ∧ s.graph.log.floorVersion = 1 ∧
      ∃ g', EntityGraph.restore Ontology.blank 9 0 image ⟨7, ()⟩ RecoveryLimits.default = .ok g' ∧
        EntityGraph.Recovered Ontology.blank noFilter s.graph g' :=
  ⟨by decide, by decide,
    (restore_image ⟨_, _, _, _, _, rfl⟩ (by decide) rfl (by decide) rfl 9 0).1⟩

end Session
end Graph
end Haystack
