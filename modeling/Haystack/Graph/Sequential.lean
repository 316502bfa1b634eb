import Haystack.Graph.Invariants

/-!
# Batches against sequences of native calls

A published batch leaves the graph that the native calls of its operations leave,
one after another.  Their logs hold the same diffs; the batch groups them into
one commit unit.
-/

namespace Haystack
namespace Graph

open Collections
open Haystack.Filter (FilterNode Ontology)

namespace EntityGraph

variable {N C : Type}

/-- Native calls one after another, each with its time. -/
def nativeAll (g : EntityGraph N C) (calls : List (Int × EntityOperation)) :
    Except GraphError (EntityGraph N C) :=
  calls.foldlM (fun g call => g.native call.1 call.2) g

variable {g middle : EntityGraph N C} {calls : List (Int × EntityOperation)}

theorem nativeAll_concat
    (reached : g.nativeAll calls = .ok middle) (call : Int × EntityOperation) :
    g.nativeAll (calls ++ [call]) = middle.native call.1 call.2 := by
  unfold nativeAll at reached ⊢
  rw [List.foldlM_append, reached]
  exact bind_pure (middle.native call.1 call.2)

/-- A diff as the log of native calls stores it. -/
def Stamped (diff written : GraphDiff) : Prop := ∃ now, diff = { written with timestamp := now }

/-- The log after native calls that were all retained: every diff is a unit. -/
structure LoggedSingly (g native : EntityGraph N C) (units : List (List GraphDiff))
    (diffs : List GraphDiff) : Prop where
  capacity : native.log.capacity = g.log.capacity
  byteCapacity : native.log.byteCapacity = g.log.byteCapacity
  retains : Changelog.Retains native.log native.version (g.log.kept (units ++ diffs.map ([·])))

/-- What a sequence of native calls does. -/
structure Sequenced (g native : EntityGraph N C) (effects : List Effect)
    (rows : Rows) : Prop where
  rows : native.rows = rows
  version : native.version = g.version + effects.length
  framed : Framed g native
  indexed : native.Indexed
  logged : ∀ units written, Changelog.Retains g.log g.version units →
    EffectDiffs g.log.byteCapacity g.version effects written →
    ∃ diffs, List.Forall₂ Stamped diffs written ∧ LoggedSingly g native units diffs

theorem sequenced_refl (indexed : g.Indexed) : Sequenced g g [] g.rows where
  rows := rfl
  version := rfl
  framed := .refl g
  indexed := indexed
  logged := by
    intro units written retains diffs
    obtain rfl := List.eq_nil_of_length_eq_zero diffs.length_eq
    refine ⟨[], .nil, rfl, rfl, ?_⟩
    rw [List.map_nil, List.append_nil, retains.kept_eq]
    exact retains

variable {diffs : List GraphDiff} {now : Int} {units : List (List GraphDiff)}

variable {after : EntityGraph N C}

/-- One more native call appends its diff as a unit of its own. -/
theorem LoggedSingly.append (logged : LoggedSingly g middle units diffs)
    {diff : GraphDiff} (version : after.version = middle.version + 1)
    (diffVersion : diff.version = middle.version + 1)
    (span : diff.span = .singleton (middle.version + 1))
    (log : after.log = middle.log.appendCommittedUnit now [diff]) :
    LoggedSingly g after units (diffs ++ [{ diff with timestamp := now }]) := by
  have evicted := logged.retains.appendCommittedUnit (diffUnits_singleton diffVersion span) now
  rw [← log] at evicted
  refine ⟨evicted.capacity.trans logged.capacity,
    evicted.byteCapacity.trans logged.byteCapacity, ?_⟩
  have retains := evicted.retains
  rw [Changelog.kept_congr logged.capacity logged.byteCapacity,
    Changelog.kept_kept, List.append_assoc] at retains
  rw [version, List.map_append]
  exact retains

variable {effects : List Effect} {rows : Rows}

/-- One more native call performs its effect. -/
theorem Sequenced.performed (sequenced : Sequenced g middle effects rows)
    {operation : EntityOperation} {effect : Effect}
    (operated : rows.operate operation = some (some effect))
    (performed : Performed middle after now effect) :
    Sequenced g after (effects ++ [effect]) effect.rows where
  rows := performed.rows
  version := by
    rw [performed.version, sequenced.version, List.length_append,
      List.length_singleton, Nat.add_assoc]
  framed := sequenced.framed.trans performed.framed
  indexed := performed.indexed sequenced.indexed
  logged := by
    intro units written retains diffs
    obtain ⟨earlier, bytes, rest, retained, rfl⟩ := diffs.of_snoc
    obtain ⟨stored, stamped, logged⟩ := sequenced.logged units earlier retains rest
    rw [← sequenced.rows] at operated
    have sound := sequenced.indexed.rows.operate operated
    have log := performed.log
    rw [loggedEffect, logged.byteCapacity, retained] at log
    rw [← sequenced.version]
    refine ⟨stored ++ [{ effect.diff (middle.version + 1) bytes with
      timestamp := now }], ?_, ?_⟩
    · exact List.rel_append stamped (.cons ⟨now, rfl⟩ .nil)
    · exact logged.append performed.version (sound.version _ _) (sound.span _ _) log

variable {operations : List EntityOperation}

/-- Operations that the rows allow are performed by native calls. -/
theorem nativeAll_sequenced
    (indexed : g.Indexed) (operated : g.rows.Operated operations effects rows)
    (bounded : g.version + effects.length ≤ u64Max) (listed : calls.map Prod.snd = operations) :
    ∃ native, g.nativeAll calls = .ok native ∧ Sequenced g native effects rows := by
  induction operated generalizing calls with
  | nil =>
    obtain rfl := List.map_eq_nil_iff.mp listed
    exact ⟨g, rfl, sequenced_refl indexed⟩
  | quiet before operated ih =>
    obtain ⟨_, _, rfl, listedBefore, listedLast⟩ := List.map_eq_append_iff.mp listed
    obtain ⟨⟨now, _⟩, rfl, rfl⟩ := List.map_eq_singleton_iff.mp listedLast
    obtain ⟨middle, reached, sequenced⟩ := ih bounded listedBefore
    refine ⟨middle, ?_, sequenced⟩
    rw [nativeAll_concat reached]
    rw [← sequenced.rows] at operated
    exact native_quiet operated now
  | effect before operated ih =>
    obtain ⟨_, _, rfl, listedBefore, listedLast⟩ := List.map_eq_append_iff.mp listed
    obtain ⟨⟨now, _⟩, rfl, rfl⟩ := List.map_eq_singleton_iff.mp listedLast
    rw [List.length_append] at bounded
    obtain ⟨middle, reached, sequenced⟩ := ih (by omega) listedBefore
    have within : middle.version + 1 ≤ u64Max := by
      rw [sequenced.version]
      omega
    have available := operated
    rw [← sequenced.rows] at available
    obtain ⟨after, succeeded, performed⟩ := native_performed available within now
    refine ⟨after, ?_, sequenced.performed operated performed⟩
    rw [nativeAll_concat reached]
    exact succeeded

/-! ## The batch against the calls -/

/-- The diff of a native call, as the batch stores it. -/
def regroup (span : CommitSpan) (now : Int) (diff : GraphDiff) : GraphDiff :=
  { diff with span := span, timestamp := now }

variable {written : List GraphDiff}

theorem map_regroup_stamped (stamped : List.Forall₂ Stamped diffs written) (span : CommitSpan)
    (now : Int) : diffs.map (regroup span now) = written.map (regroup span now) := by
  induction stamped with
  | nil => rfl
  | cons head _ ih =>
    obtain ⟨_, rfl⟩ := head
    rw [List.map_cons, ih]
    rfl

theorem spans_of_stamped (stamped : List.Forall₂ Stamped diffs written)
    (spans : ∀ diff ∈ written, diff.span = .singleton diff.version) :
    ∀ diff ∈ diffs, diff.span = .singleton diff.version := by
  induction stamped with
  | nil => simp
  | cons head _ ih =>
    obtain ⟨_, rfl⟩ := head
    rw [List.forall_mem_cons] at spans ⊢
    exact ⟨spans.1, ih spans.2⟩

/-- The logs of two graphs hold the same diffs after the retained ones, singly in
the first and as one unit of the second. -/
structure SameLog (native batch : EntityGraph N C) (span : CommitSpan) (now : Int)
    (retained diffs : List GraphDiff) : Prop where
  singly : native.log.entries = retained ++ diffs
  grouped : batch.log.entries = retained ++ diffs.map (regroup span now)
  spans : ∀ diff ∈ diffs, diff.span = .singleton diff.version
  floor : batch.log.floorVersion = native.log.floorVersion
  bytes : batch.log.bytes = native.log.bytes
  capacity : batch.log.capacity = native.log.capacity
  byteCapacity : batch.log.byteCapacity = native.log.byteCapacity

variable {batch : EntityGraph N C} {native : EntityGraph N C}

/-- The units of the two logs determine the rest. -/
theorem sameLog_of_retains {older : List (List GraphDiff)}
    {span : CommitSpan} {batchUnits : List (List GraphDiff)}
    (nativeRetains : Changelog.Retains native.log native.version (older ++ diffs.map ([·])))
    (batchRetains : Changelog.Retains batch.log native.version (older ++ batchUnits))
    (regrouped : batchUnits.flatten = diffs.map (regroup span now))
    (spans : ∀ diff ∈ diffs, diff.span = .singleton diff.version)
    (capacity : batch.log.capacity = native.log.capacity)
    (byteCapacity : batch.log.byteCapacity = native.log.byteCapacity) :
    SameLog native batch span now older.flatten diffs := by
  have singles : (diffs.map ([·])).flatten = diffs := by
    rw [← List.flatMap_def, List.flatMap_singleton']
  have entries := nativeRetains.entries
  have batchEntries := batchRetains.entries
  have head := nativeRetains.head
  have batchHead := batchRetains.head
  have bytes := nativeRetains.bytes
  have batchBytes := batchRetains.bytes
  rw [List.flatten_append, singles] at entries head bytes
  rw [List.flatten_append, regrouped] at batchEntries batchHead batchBytes
  refine ⟨entries, batchEntries, spans, ?_, ?_, capacity, byteCapacity⟩
  · simp only [List.length_append, List.length_map] at head batchHead
    omega
  · rw [bytes, batchBytes]
    simp [regroup, Function.comp_def]

variable {plan : PreparedBatch}

/-- The published unit of a plan holds the regrouped diffs of the calls. -/
theorem stamp_diffs_eq (prepared : PreparedFrom g operations plan effects written rows)
    (wellFormed : g.rows.WellFormed) (stamped : List.Forall₂ Stamped diffs written) (now : Int) :
    Changelog.stamp now plan.diffs =
      diffs.map (regroup ⟨g.version + 1, plan.afterRevision⟩ now) := by
  have sound := prepared.operated.diffsSound wellFormed prepared.diffs
  rw [map_regroup_stamped stamped, prepared.shared]
  cases written with
  | nil => rfl
  | cons first =>
    have starts : first.version = g.version + 1 := by
      have versions := sound.versions
      exact (List.cons.inj versions).1
    simp [shareSpan, Changelog.stamp, regroup, starts]

/-- Grouping does not change whether entries fit. -/
theorem fits_regroup (log : Changelog) (span : CommitSpan) (now : Int)
    (entries diffs : List GraphDiff) :
    log.fits (entries ++ diffs) = log.fits (entries ++ diffs.map (regroup span now)) := by
  simp [Changelog.fits, regroup, Function.comp_def]

/-- The log of a published batch holds its diffs as one unit. -/
theorem Published.retains (prepared : PreparedFrom g operations plan effects written rows)
    (indexed : g.Indexed) (published : Published g batch now plan rows)
    (retains : Changelog.Retains g.log g.version units) :
    ∃ batchUnits, batchUnits.flatten = Changelog.stamp now plan.diffs ∧
      Changelog.Retains batch.log batch.version (g.log.kept (units ++ batchUnits)) ∧
      batch.log.capacity = g.log.capacity ∧
      batch.log.byteCapacity = g.log.byteCapacity := by
  have log := published.log
  by_cases empty : written = []
  · subst empty
    have noDiffs : plan.diffs = [] := prepared.shared
    rw [noDiffs, List.isEmpty_nil, if_pos rfl] at log
    have version : batch.version = g.version := by
      rw [published.version, prepared.revision, ← prepared.diffs.length_eq]
      rfl
    refine ⟨[], by rw [noDiffs]; rfl, ?_, by rw [log], by rw [log]⟩
    rw [List.append_nil, retains.kept_eq, log, version]
    exact retains
  · have committed := published.commit prepared (.refl g) indexed empty
    have nonempty : plan.diffs ≠ [] := committed.complete.1
    rw [if_neg (by simpa using nonempty)] at log
    have evicted := retains.appendCommittedUnit committed.complete now
    rw [← log] at evicted
    refine ⟨[Changelog.stamp now plan.diffs], by simp, ?_, evicted.capacity, evicted.byteCapacity⟩
    rw [committed.version]
    exact evicted.retains

theorem Published.sameLog (prepared : PreparedFrom g operations plan effects written rows)
    (indexed : g.Indexed) (published : Published g batch now plan rows)
    (sequenced : Sequenced g native effects rows)
    (retains : Changelog.Retains g.log g.version units) :
    ∃ retained diffs, diffs.length = effects.length ∧
      SameLog native batch ⟨g.version + 1, batch.version⟩ now retained diffs := by
  have sound := prepared.operated.diffsSound indexed.rows prepared.diffs
  obtain ⟨diffs, stamped, logged⟩ := sequenced.logged units written retains prepared.diffs
  obtain ⟨batchUnits, flattened, batchRetains, capacity, byteCapacity⟩ :=
    published.retains prepared indexed retains
  have version : batch.version = native.version := by
    rw [published.version, prepared.revision, sequenced.version]
  rw [stamp_diffs_eq prepared indexed.rows stamped now, ← published.version] at flattened
  have singles : (diffs.map ([·])).flatten = diffs := by
    rw [← List.flatMap_def, List.flatMap_singleton']
  have fit : g.log.fits (diffs.map ([·])).flatten = true := by
    have whole : g.log.fits written = true := by
      simp [Changelog.fits, prepared.count, prepared.bytes]
    rw [singles, ← List.nil_append diffs, fits_regroup g.log ⟨0, 0⟩ 0, map_regroup_stamped
      stamped, ← fits_regroup]
    exact whole
  have same (entries : List GraphDiff) : g.log.fits (entries ++ (diffs.map ([·])).flatten) =
        g.log.fits (entries ++ batchUnits.flatten) := by
    rw [singles, flattened]
    exact fits_regroup g.log _ now entries diffs
  obtain ⟨kept, left, right⟩ := keepFitting_append same fit units
  have nativeRetains := logged.retains
  rw [Changelog.kept, left] at nativeRetains
  rw [Changelog.kept, right, version] at batchRetains
  refine ⟨kept.flatten, diffs, stamped.length_eq.trans prepared.diffs.length_eq, ?_⟩
  exact sameLog_of_retains nativeRetains batchRetains flattened
    (spans_of_stamped stamped sound.spans) (capacity.trans logged.capacity.symm)
    (byteCapacity.trans logged.byteCapacity.symm)

/-- Two graphs with the same rows and exact indexes have the same indexes, up to
the order in the buckets of lists. -/
structure SameIndexes (left right : EntityGraph N C) : Prop where
  tags : left.tagIndex = right.tagIndex
  fields : left.valueIndex.hasIndex = right.valueIndex.hasIndex
  values : ∀ slot, (left.valueIndex.bucketOf slot).Perm (right.valueIndex.bucketOf slot)
  forward : left.adjacency.forward = right.adjacency.forward
  reverse : ∀ target : String, (left.adjacency.reverse[target]?.getD []).Perm
    (right.adjacency.reverse[target]?.getD [])

theorem Indexed.sameIndexes {left right : EntityGraph N C} (leftIndexed : left.Indexed)
    (rightIndexed : right.Indexed) (rows : left.rows = right.rows)
    (fields : left.valueIndex.hasIndex = right.valueIndex.hasIndex) : SameIndexes left right := by
  obtain ⟨⟨tags, values, edges⟩, _⟩ := leftIndexed
  rw [rows] at tags values edges
  refine ⟨tags.unique rightIndexed.tags, fields, ?_, ?_, ?_⟩
  · have lists := values.lists
    rw [fields] at lists
    exact lists.perm rightIndexed.values.lists
  · refine ext_bucket edges.forwardNonempty rightIndexed.edges.forwardNonempty ?_
    intro n
    rw [edges.forward, rightIndexed.edges.forward]
  · exact edges.reverse.perm rightIndexed.edges.reverse

/-- A plan is published on the graph that it was prepared for. -/
theorem applyPrepared_ok (prepared : PreparedFrom g operations plan effects written rows)
    (now : Int) :
    ∃ batch, g.applyPrepared now true plan = .ok (plan.span, batch) ∧
      Published g batch now plan rows := by
  have succeeded : ∃ batch, g.applyPrepared now true plan = .ok (plan.span, batch) := by
    unfold applyPrepared
    rw [if_neg (by simp [prepared.state, prepared.indexGeneration])]
    exact ⟨_, rfl⟩
  obtain ⟨batch, applied⟩ := succeeded
  exact ⟨batch, applied, applyPrepared_published prepared (.refl g) applied⟩

end EntityGraph

namespace Session

open EntityGraph (SameIndexes SameLog Framed)

variable {N C : Type} {ontology : Ontology N C} {parseFilter : String → Except String FilterNode}

/-- A batch that can be prepared and the native calls of its operations, one
after another, all succeed and leave the same graph; the batch gives its diffs
one span. -/
theorem applyPrepared_eq_nativeAll
    {s : Session N C} (reachable : Reachable ontology parseFilter s)
    {allocation : Allocation} {operations : List EntityOperation}
    {limits : BatchLimits} {plan : PreparedBatch}
    (prepared : s.graph.prepareBatch allocation s.graph.version operations limits = .ok plan)
    (now : Int) (calls : List (Int × EntityOperation))
    (listed : calls.map Prod.snd = operations) :
    ∃ batch native, s.graph.applyPrepared now true plan = .ok (plan.span, batch) ∧
        s.graph.nativeAll calls = .ok native ∧
        batch.entities = native.entities ∧ batch.idMap = native.idMap ∧
        batch.reverseId = native.reverseId ∧
        batch.freeIds = native.freeIds ∧ batch.nextId = native.nextId ∧
        SameIndexes batch native ∧ batch.version = native.version ∧
        Framed s.graph batch ∧ Framed s.graph native ∧
        ∃ retained diffs, s.graph.version + diffs.length = batch.version ∧
            SameLog native batch ⟨s.graph.version + 1, batch.version⟩ now retained diffs := by
  have sound := reachable.sound
  obtain ⟨effects, _, rows, source⟩ :=
    EntityGraph.prepareBatch_preparedFrom sound.bounded prepared
  obtain ⟨batch, applied, published⟩ := EntityGraph.applyPrepared_ok source now
  have bounded : s.graph.version + effects.length ≤ u64Max := by
    rw [← source.revision]
    exact source.bounded
  obtain ⟨native, called, sequenced⟩ := EntityGraph.nativeAll_sequenced
    sound.indexed source.operated bounded listed
  obtain ⟨_, retains⟩ := sound.retained
  obtain ⟨retained, diffs, length, sameLog⟩ :=
    published.sameLog source sound.indexed sequenced retains
  have indexed := published.indexed source (.refl _) sound.indexed sound.indexed
  have rowsEq : batch.rows = native.rows := published.rows.trans sequenced.rows.symm
  have fields : batch.valueIndex.hasIndex = native.valueIndex.hasIndex :=
    published.framed.fields.trans sequenced.framed.fields.symm
  have version : batch.version = s.graph.version + effects.length := by
    rw [published.version, source.revision]
  refine ⟨batch, native, applied, called, congrArg Rows.entities rowsEq,
    congrArg Rows.idMap rowsEq, congrArg Rows.reverseId rowsEq,
    congrArg Rows.freeIds rowsEq, congrArg Rows.nextId rowsEq,
    indexed.sameIndexes sequenced.indexed rowsEq fields,
    version.trans sequenced.version.symm, published.framed, sequenced.framed,
    retained, diffs, ?_, sameLog⟩
  rw [length, version]

/-- A batch that uses the id of a removed row for a new one. -/
theorem applyPrepared_eq_nativeAll_reuse :
    let row (name : String) : HDict := HDict.new.set "id" (.ref ⟨name, none⟩)
    let s := run Ontology.blank (fun _ => .error "no filter")
      (initial 3 3000 1 none) [.add 0 (row "a")]
    let allocation : Allocation := ⟨16, 16, 16, 16, 16, 16, 16, fun _ => 8, 8, 8, 8⟩
    ∃ plan batch native, s.graph.prepareBatch allocation s.graph.version
          [.remove "a", .add (row "b")] .default = .ok plan ∧
        s.graph.applyPrepared 1 true plan = .ok (plan.span, batch) ∧
        s.graph.nativeAll [(1, .remove "a"), (2, .add (row "b"))] = .ok native ∧
        batch.idMap = native.idMap := by
  intro row s allocation
  have accepted : (s.graph.prepareBatch allocation s.graph.version
      [.remove "a", .add (row "b")] .default).toBool = true := by
    decide +kernel
  cases prepared : s.graph.prepareBatch allocation s.graph.version
      [.remove "a", .add (row "b")] .default with
  | error =>
    rw [prepared] at accepted
    cases accepted
  | ok plan =>
    have reachable : Reachable Ontology.blank (fun _ => .error "no filter") s :=
      ⟨3, 3000, 1, none, [.add 0 (row "a")], rfl⟩
    obtain ⟨batch, native, applied, called, _, idMap, _⟩ :=
      applyPrepared_eq_nativeAll reachable prepared 1 [(1, .remove "a"), (2, .add (row "b"))] rfl
    exact ⟨plan, batch, native, rfl, applied, called, idMap⟩

end Session
end Graph
end Haystack
