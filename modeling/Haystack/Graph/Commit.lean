import Haystack.Graph.Prepared
import Haystack.Graph.Retention
import Haystack.Graph.Rows
import Haystack.Graph.ValueIndexExact

/-!
# Commits

What a mutation of the graph does, said once for native operations and for
batches: a sequence of row changes, the diffs that record them, one commit unit
appended to the log (or a gap), and nothing else.
-/

namespace Haystack
namespace Graph

open Std (ExtTreeMap)
open Collections
open EntityGraph (previousTags)

/-- The dictionaries stored by a diff. -/
def GraphDiff.dicts (diff : GraphDiff) : List HDict :=
  [diff.old, diff.new, diff.changedTags, diff.previousTags].filterMap fun dict => dict

/-- Largest byte length of an id that can be recovered. -/
def maxRecoveredId : Nat := 4096

/-- The retained bytes of a diff are those of its dictionaries. -/
def GraphDiff.Accounted (diff : GraphDiff) : Prop :=
  diff.refVal.utf8ByteSize ≤ maxRecoveredId → Accounts diff.refVal diff.dicts diff.retainedBytes

/-- A diff records the difference of two entity maps. -/
inductive Recorded (before after : ExtTreeMap String HDict) (diff : GraphDiff) : Prop
  | add (row : HDict) (op : diff.op = .add) (shape : diff.old = none ∧ diff.new = some row ∧
        diff.changedTags = none ∧ diff.previousTags = none)
      (identified : IdentifiedBy diff.refVal row)
      (absent : before[diff.refVal]? = none)
      (result : after = before.insert diff.refVal row)
  | update (old changes : HDict) (op : diff.op = .update)
      (shape : diff.old = none ∧ diff.new = none ∧ diff.changedTags = some changes ∧
        diff.previousTags = some (previousTags old changes))
      (found : before[diff.refVal]? = some old)
      (result : after = before.insert diff.refVal (old.merge changes))
  | remove (old : HDict) (op : diff.op = .remove) (shape : diff.old = some old ∧ diff.new = none ∧
        diff.changedTags = none ∧ diff.previousTags = none)
      (identified : IdentifiedBy diff.refVal old)
      (found : before[diff.refVal]? = some old)
      (result : after = before.erase diff.refVal)

/-- A list of diffs records the difference of two entity maps. -/
inductive RecordedAll : ExtTreeMap String HDict → List GraphDiff → ExtTreeMap String HDict → Prop
  | nil {before : ExtTreeMap String HDict} : RecordedAll before [] before
  | snoc {before middle after : ExtTreeMap String HDict}
      {diffs : List GraphDiff} {diff : GraphDiff}
      (recorded : RecordedAll before diffs middle)
      (last : Recorded middle after diff) :
      RecordedAll before (diffs ++ [diff]) after

variable {before : ExtTreeMap String HDict} {diff : GraphDiff} {after : ExtTreeMap String HDict}

theorem RecordedAll.single (recorded : Recorded before after diff) :
    RecordedAll before [diff] after :=
  .snoc .nil recorded

/-- What a diff records does not depend on its span or its place in the log. -/
theorem Recorded.congr (recorded : Recorded before after diff)
    (version : Nat) (span : CommitSpan) (timestamp : Int) :
    Recorded before after
      { diff with version := version, span := span, timestamp := timestamp } := by
  cases recorded with
  | add row op shape identified absent result =>
    exact .add row op shape identified absent result
  | update old changes op shape found result =>
    exact .update old changes op shape found result
  | remove old op shape identified found result =>
    exact .remove old op shape identified found result

variable {diffs : List GraphDiff}

theorem RecordedAll.withSpan (recorded : RecordedAll before diffs after) (span : CommitSpan) :
    RecordedAll before (diffs.map ({ · with span := span })) after := by
  induction recorded with
  | nil => exact .nil
  | snoc _ last ih =>
    rw [List.map_append]
    exact .snoc ih (last.congr _ span _)

/-! ## The values that a patch replaces -/

@[simp] theorem get_previousTags (old changes : HDict) (name : String) :
    (previousTags old changes).get name = (changes.get name).bind fun _ => old.get name := by
  unfold EntityGraph.previousTags HDict.iter
  rw [observe_foldl_toList (HDict.get · name) fun _ slot => (old.get name).or slot]
  · change (changes.get name).elim _ _ = _
    cases changes.get name <;> simp
  · rintro previous ⟨key, value⟩
    by_cases same : key = name
    · subst same
      cases old.get key <;> simp
    · cases old.get key <;> simp [same]

theorem iter_previousTags (old changes : HDict) :
    (previousTags old changes).iter.Perm (changes.iter.filterMap fun tag =>
      (old.get tag.1).map fun value => (tag.1, value)) := by
  have nodup : (changes.iter.filterMap fun tag =>
      (old.get tag.1).map fun value => (tag.1, value)).Nodup := by
    refine (pairwise_toList changes.tags).filterMap _ ?_
    rintro left right different entry given other otherGiven rfl
    obtain ⟨_, _, rfl⟩ := Option.map_eq_some_iff.mp given
    obtain ⟨_, _, same⟩ := Option.map_eq_some_iff.mp otherGiven
    exact different (congrArg Prod.fst same).symm
  refine (List.perm_ext_iff_of_nodup (nodup_toList (previousTags old changes).tags) nodup).mpr ?_
  rintro ⟨name, value⟩
  simp only [← HDict.iter.eq_1, HDict.mem_iter, get_previousTags,
    Option.bind_eq_some_iff, List.mem_filterMap, Prod.exists,
    Option.map_eq_some_iff, Prod.mk.injEq]
  constructor
  · rintro ⟨patched, found, replaced⟩
    exact ⟨name, patched, found, value, replaced, rfl, rfl⟩
  · rintro ⟨_, patched, found, _, replaced, rfl, rfl⟩
    exact ⟨patched, found, replaced⟩

/-! ## Effects of operations -/

/-- What an operation does when it changes a row: the rows after it, the changed
row, its diff for a revision and a byte count, and that count under a limit. -/
structure Effect where
  rows : Rows
  change : IndexChange
  diff : Nat → Nat → GraphDiff
  bytes : Nat → Option Nat

/-- A new row, stored under a taken id. -/
def Effect.add (taken : Rows) (refVal : String) (n : Nat) (row : HDict) : Effect where
  rows := taken.store refVal n row
  change := ⟨n, none, some row⟩
  diff revision bytes := EntityGraph.addDiff revision bytes refVal row
  bytes := diffBytes refVal [row]

/-- A patched row. -/
def Effect.patch (rows : Rows) (refVal : String) (n : Nat) (old changes : HDict) : Effect where
  rows := rows.replace refVal (old.merge changes)
  change := ⟨n, some old, some (old.merge changes)⟩
  diff revision bytes := EntityGraph.updateDiff revision bytes refVal changes
    (previousTags old changes)
  bytes := patchDiffBytes refVal old changes

/-- A dropped row. -/
def Effect.remove (rows : Rows) (refVal : String) (n : Nat) (old : HDict) : Effect where
  rows := rows.drop refVal n
  change := ⟨n, some old, none⟩
  diff revision bytes := EntityGraph.removeDiff revision bytes refVal old
  bytes := diffBytes refVal [old]

/-- The effect of an operation on the rows.  It fails with `none`, and changes
nothing with `some none`. -/
def Rows.operate (rows : Rows) : EntityOperation → Option (Option Effect)
  | .add row =>
    match EntityGraph.extractRefVal row with
    | .error _ => none
    | .ok refVal =>
      if rows.entities.contains refVal then none
      else rows.takeId.map fun (n, taken) =>
        some (.add taken refVal n row)
  | .patch refVal changes =>
    match rows.idMap[refVal]?, rows.entities[refVal]? with
    | some n, some old =>
      if EntityGraph.changesIdentity refVal changes then none
      else if changes.isEmpty then some none
      else some (some (.patch rows refVal n old changes))
    | _, _ => none
  | .remove refVal =>
    match rows.idMap[refVal]?, rows.entities[refVal]? with
    | some n, some old => some (some (.remove rows refVal n old))
    | _, _ => none

/-- An effect is a step of the rows that its diff records. -/
structure Effect.Sound (effect : Effect) (rows : Rows) : Prop where
  step : Rows.Step rows effect.change effect.rows
  recorded : ∀ revision bytes, Recorded rows.entities effect.rows.entities
    (effect.diff revision bytes)
  version : ∀ revision bytes, (effect.diff revision bytes).version = revision
  span : ∀ revision bytes, (effect.diff revision bytes).span = .singleton revision
  accounted : ∀ limit revision bytes, effect.bytes limit = some bytes →
    (effect.diff revision bytes).Accounted

variable {refVal : String}

theorem extractRefVal_eq_ok {entity : HDict}
    (extracted : EntityGraph.extractRefVal entity = .ok refVal) : IdentifiedBy refVal entity := by
  unfold EntityGraph.extractRefVal at extracted
  split at extracted
  · rename_i r found
    cases extracted
    exact ⟨r, found, rfl⟩
  · cases extracted
  · cases extracted

variable {old changes : HDict}

/-- A patch that does not change the identity keeps it. -/
theorem IdentifiedBy.merge (identified : IdentifiedBy refVal old)
    (sameIdentity : EntityGraph.changesIdentity refVal changes = false) :
    IdentifiedBy refVal (old.merge changes) := by
  obtain ⟨r, found, rfl⟩ := identified
  unfold EntityGraph.changesIdentity at sameIdentity
  split at sameIdentity
  · rename_i untouched
    exact ⟨r, by simp [untouched, found, HDict.mergedTag], rfl⟩
  · rename_i id patched
    refine ⟨id, by simp [patched, HDict.mergedTag], ?_⟩
    simpa using sameIdentity
  · cases sameIdentity

variable {n : Nat}

private theorem sound_add {rows taken : Rows} {row : HDict} (identified : IdentifiedBy refVal row)
    (absent : rows.entities[refVal]? = none) (free : rows.takeId = some (n, taken)) :
    (Effect.add taken refVal n row).Sound rows where
  step := .add absent identified free
  recorded := by
    intro revision bytes
    refine .add row rfl ⟨rfl, rfl, rfl, rfl⟩ identified absent ?_
    simp [Effect.add, Rows.store, (Rows.taken_eq free).1, EntityGraph.addDiff]
  version _ _ := rfl
  span _ _ := rfl
  accounted _ _ _ retained _ := accounts_of_diffBytes retained

private theorem sound_patch {rows : Rows} (mapped : rows.idMap[refVal]? = some n)
    (found : rows.entities[refVal]? = some old)
    (identified : IdentifiedBy refVal (old.merge changes)) :
    (Effect.patch rows refVal n old changes).Sound rows where
  step := .replace mapped found identified
  recorded _ _ := .update old changes rfl ⟨rfl, rfl, rfl, rfl⟩ found rfl
  version _ _ := rfl
  span _ _ := rfl
  accounted := by
    intro limit revision bytes retained short
    refine accounts_of_patchDiffBytes ?_ (iter_previousTags old changes) retained
    change refVal.utf8ByteSize ≤ 4096 at short
    change refVal.utf8ByteSize + 384 ≤ usizeMax
    unfold usizeMax
    omega

private theorem sound_remove {rows : Rows} {old : HDict} (mapped : rows.idMap[refVal]? = some n)
    (found : rows.entities[refVal]? = some old) (identified : IdentifiedBy refVal old) :
    (Effect.remove rows refVal n old).Sound rows where
  step := .drop mapped found
  recorded _ _ := .remove old rfl ⟨rfl, rfl, rfl, rfl⟩ identified found rfl
  version _ _ := rfl
  span _ _ := rfl
  accounted _ _ _ retained _ := accounts_of_diffBytes retained

variable {result : Option Effect}

theorem Rows.operate_add_eq_some_iff {rows : Rows} {row : HDict} :
    rows.operate (.add row) = some result ↔
      ∃ refVal n taken, EntityGraph.extractRefVal row = .ok refVal ∧
        rows.entities[refVal]? = none ∧ rows.takeId = some (n, taken) ∧
          result = some (.add taken refVal n row) := by
  simp only [Rows.operate]
  cases extracted : EntityGraph.extractRefVal row with
  | error => simp
  | ok refVal =>
    simp only [ExtTreeMap.contains_eq_isSome_getElem?, Except.ok.injEq]
    cases found : rows.entities[refVal]? with
    | some => simp [found]
    | none => simp [found, eq_comm]

theorem Rows.operate_patch_eq_some_iff {rows : Rows} {changes : HDict} :
    rows.operate (.patch refVal changes) = some result ↔
      ∃ n old, rows.idMap[refVal]? = some n ∧ rows.entities[refVal]? = some old ∧
        EntityGraph.changesIdentity refVal changes = false ∧
        result = if changes.isEmpty then none
          else some (.patch rows refVal n old changes) := by
  simp only [Rows.operate]
  cases rows.idMap[refVal]? with
  | none => simp
  | some =>
    cases rows.entities[refVal]? with
    | none => simp
    | some =>
      cases EntityGraph.changesIdentity refVal changes <;>
        cases changes.isEmpty <;> simp [eq_comm]

theorem Rows.operate_remove_eq_some_iff {rows : Rows} :
    rows.operate (.remove refVal) = some result ↔ ∃ n old, rows.idMap[refVal]? = some n ∧
        rows.entities[refVal]? = some old ∧
        result = some (.remove rows refVal n old) := by
  simp only [Rows.operate]
  cases rows.idMap[refVal]? with
  | none => simp
  | some =>
    cases rows.entities[refVal]? with
    | none => simp
    | some => simp [eq_comm]

variable {effect : Effect}

/-- Effects of operations are sound. -/
theorem Rows.WellFormed.operate
    {rows : Rows} (wellFormed : rows.WellFormed) {operation : EntityOperation} (operated : rows.operate operation = some (some effect)) :
    effect.Sound rows := by
  cases operation with
  | add =>
    obtain ⟨refVal, n, _, extracted, absent, free, same⟩ :=
      Rows.operate_add_eq_some_iff.mp operated
    obtain rfl := Option.some.inj same
    exact sound_add (extractRefVal_eq_ok extracted) absent free
  | patch refVal =>
    obtain ⟨n, old, mapped, found, sameIdentity, same⟩ :=
      Rows.operate_patch_eq_some_iff.mp operated
    split at same
    · cases same
    obtain rfl := Option.some.inj same
    have identified := wellFormed.identified refVal old found
    exact sound_patch mapped found (identified.merge sameIdentity)
  | remove refVal =>
    obtain ⟨n, old, mapped, found, same⟩ := Rows.operate_remove_eq_some_iff.mp operated
    obtain rfl := Option.some.inj same
    exact sound_remove mapped found (wellFormed.identified refVal old found)

/-- A sequence of operations, with the effects of those that change a row. -/
inductive Rows.Operated (rows : Rows) : List EntityOperation → List Effect → Rows → Prop
  | nil : Operated rows [] [] rows
  | quiet {middle : Rows} {operations : List EntityOperation}
      {effects : List Effect} {operation : EntityOperation}
      (before : Operated rows operations effects middle)
      (operated : middle.operate operation = some none) :
      Operated rows (operations ++ [operation]) effects middle
  | effect {middle : Rows} {operations : List EntityOperation}
      {effects : List Effect} {operation : EntityOperation} {effect : Effect}
      (before : Operated rows operations effects middle)
      (operated : middle.operate operation = some (some effect)) :
      Operated rows (operations ++ [operation]) (effects ++ [effect]) effect.rows

variable {effects : List Effect} {after : Rows} {operations : List EntityOperation}

theorem Rows.Operated.wellFormed {rows : Rows} (operated : rows.Operated operations effects after)
    (wellFormed : rows.WellFormed) : after.WellFormed := by
  induction operated with
  | nil => exact wellFormed
  | quiet _ _ ih => exact ih
  | effect _ operated ih =>
    exact (ih.operate operated).step.wellFormed ih

theorem Rows.Operated.steps {rows : Rows} (operated : rows.Operated operations effects after)
    (wellFormed : rows.WellFormed) : rows.Steps (effects.map Effect.change) after := by
  induction operated with
  | nil => exact .nil
  | quiet _ _ ih => exact ih
  | effect before operated ih =>
    rw [List.map_append]
    have middle := before.wellFormed wellFormed
    exact .snoc ih (middle.operate operated).step

/-- Operations without effects leave the rows alone. -/
theorem Rows.Operated.rows_eq {rows : Rows} (operated : rows.Operated operations [] after) :
    after = rows := by
  generalize none : ([] : List Effect) = effects at operated
  induction operated with
  | nil => rfl
  | quiet _ _ ih => exact ih none
  | effect => simp at none

/-- The diffs of a sequence of effects, as a log with a byte limit keeps them. -/
inductive EffectDiffs (limit floor : Nat) : List Effect → List GraphDiff → Prop
  | nil : EffectDiffs limit floor [] []
  | snoc {effects : List Effect} {diffs : List GraphDiff} {effect : Effect} {bytes : Nat}
      (before : EffectDiffs limit floor effects diffs)
      (retained : effect.bytes limit = some bytes) :
      EffectDiffs limit floor (effects ++ [effect])
        (diffs ++ [effect.diff (floor + effects.length + 1) bytes])

variable {floor : Nat} {limit : Nat}

theorem EffectDiffs.length_eq (written : EffectDiffs limit floor effects diffs) :
    diffs.length = effects.length := by
  induction written with
  | nil => rfl
  | snoc _ _ ih => simp [ih]

theorem EffectDiffs.of_snoc (written : EffectDiffs limit floor (effects ++ [effect]) diffs) :
    ∃ earlier bytes, EffectDiffs limit floor effects earlier ∧ effect.bytes limit = some bytes ∧
      diffs = earlier ++ [effect.diff (floor + effects.length + 1) bytes] := by
  generalize all : effects ++ [effect] = listed at written
  cases written with
  | nil => simp at all
  | snoc before retained =>
    obtain ⟨rfl, same⟩ := List.append_inj' all rfl
    obtain rfl := List.singleton_inj.mp same
    exact ⟨_, _, before, retained, rfl⟩

/-- The diffs of a sequence of operations record it. -/
structure DiffsSound (floor : Nat) (before after : ExtTreeMap String HDict)
    (diffs : List GraphDiff) : Prop where
  recorded : RecordedAll before diffs after
  versions : diffs.map GraphDiff.version = List.range' (floor + 1) diffs.length
  spans : ∀ diff ∈ diffs, diff.span = .singleton diff.version
  accounted : ∀ diff ∈ diffs, diff.Accounted

theorem Rows.Operated.diffsSound {rows : Rows} (operated : rows.Operated operations effects after)
    (wellFormed : rows.WellFormed) (written : EffectDiffs limit floor effects diffs) :
    DiffsSound floor rows.entities after.entities diffs := by
  induction operated generalizing diffs with
  | nil =>
    have empty := written.length_eq
    obtain rfl := List.eq_nil_of_length_eq_zero empty
    exact ⟨.nil, rfl, by simp, by simp⟩
  | quiet _ _ ih => exact ih written
  | @effect middle _ effects operation effect before operated ih =>
    obtain ⟨_, _, rest, retained, rfl⟩ := written.of_snoc
    have sound := (before.wellFormed wellFormed).operate operated
    have previous := ih rest
    have length := rest.length_eq
    refine ⟨.snoc previous.recorded (sound.recorded _ _), ?_, ?_, ?_⟩
    · rw [List.map_append, previous.versions, List.length_append, ← List.range'_append_1]
      simp [sound.version, length, Nat.add_right_comm]
    · intro diff member
      rcases List.mem_append.mp member with member | member
      · exact previous.spans diff member
      · obtain rfl := List.mem_singleton.mp member
        rw [sound.span, sound.version]
    · intro diff member
      rcases List.mem_append.mp member with member | member
      · exact previous.accounted diff member
      · obtain rfl := List.mem_singleton.mp member
        exact sound.accounted _ _ _ retained

namespace EntityGraph

variable {N C : Type}

/-- The rows of a graph. -/
def rows (g : EntityGraph N C) : Rows := ⟨g.entities, g.idMap, g.reverseId, g.nextId, g.freeIds⟩

/-- The indexes are those determined by the live rows. -/
structure Indexes (g : EntityGraph N C) (live : Nat → Option HDict) : Prop where
  tags : g.tagIndex.Exact live
  values : g.valueIndex.Exact live
  edges : g.adjacency.Exact live

/-- The derived structures are those determined by the rows. -/
structure Indexed (g : EntityGraph N C) : Prop extends Indexes g g.rows.live where
  rows : g.rows.WellFormed

/-- What a mutation leaves alone. -/
structure Framed (g g' : EntityGraph N C) : Prop where
  namespaceArc : g'.namespaceArc = g.namespaceArc
  activated : g'.activated = g.activated
  catalogGeneration : g'.catalogGeneration = g.catalogGeneration
  incarnation : g'.incarnation = g.incarnation
  astCache : g'.astCache = g.astCache
  cached : g'.queryCache.entries = g.queryCache.entries
  indexGeneration : g'.indexGeneration = g.indexGeneration
  fields : g'.valueIndex.hasIndex = g.valueIndex.hasIndex

theorem Framed.refl (g : EntityGraph N C) : Framed g g := ⟨rfl, rfl, rfl, rfl, rfl, rfl, rfl, rfl⟩

theorem Framed.trans {first second third : EntityGraph N C} (left : Framed first second)
    (right : Framed second third) :
    Framed first third where
  namespaceArc := right.namespaceArc.trans left.namespaceArc
  activated := right.activated.trans left.activated
  catalogGeneration := right.catalogGeneration.trans left.catalogGeneration
  incarnation := right.incarnation.trans left.incarnation
  astCache := right.astCache.trans left.astCache
  cached := right.cached.trans left.cached
  indexGeneration := right.indexGeneration.trans left.indexGeneration
  fields := right.fields.trans left.fields

/-- The effect of a mutation on the log. -/
inductive Logged (g g' : EntityGraph N C) (diffs : List GraphDiff) : Prop
  | unit (now : Int) (accounted : ∀ diff ∈ diffs, diff.Accounted)
      (appended : g'.log = g.log.appendCommittedUnit now diffs)
  | gap (cleared : g'.log = g.log.nativeGap g'.version)

/-- A mutation of the graph. -/
structure Commit (g g' : EntityGraph N C) (changes : List IndexChange)
    (diffs : List GraphDiff) : Prop where
  steps : Rows.Steps g.rows changes g'.rows
  recorded : RecordedAll g.entities diffs g'.entities
  complete : Changelog.DiffUnits g.version [diffs]
  version : g'.version = g.version + diffs.length
  bounded : g'.version ≤ u64Max
  logged : Logged g g' diffs
  framed : Framed g g'
  indexed : g.Indexed → g'.Indexed

/-- One diff of the next revision is a complete unit. -/
theorem diffUnits_singleton (version : diff.version = floor + 1)
    (span : diff.span = .singleton (floor + 1)) : Changelog.DiffUnits floor [[diff]] := by
  refine ⟨by simp, by simp [version], ?_, trivial⟩
  intro entry member
  obtain rfl := List.mem_singleton.mp member
  simp [span, CommitSpan.singleton]

end EntityGraph
end Graph
end Haystack
