import Haystack.Graph.Commit

/-!
# Native operations

Every native operation that succeeds and changes a row has the effect of the
operation on the rows, and is a commit of one diff.
-/

namespace Haystack
namespace Graph

open Std (ExtTreeMap)
open Collections

namespace EntityGraph

variable {N C : Type}

/-- The native call of an operation. -/
def native (g : EntityGraph N C) (now : Int) :
    EntityOperation → Except GraphError (EntityGraph N C)
  | .add row => (g.add now row).map Prod.snd
  | .patch refVal changes => g.update now refVal changes
  | .remove refVal => (g.remove now refVal).map Prod.snd

/-! ## Indexing one row -/

variable {n : Nat} {g : EntityGraph N C} {live : Nat → Option HDict}

theorem Indexes.indexRow (indexes : g.Indexes live) (fresh : live n = none) (row : HDict) :
    ((g.indexTags n row).indexRefs n row).Indexes (Function.update live n (some row)) where
  tags := indexes.tags.add fresh row
  values := indexes.values.addTags fresh row
  edges := indexes.edges.addRefs fresh row

theorem Indexes.removeIndexing (indexes : g.Indexes live)
    {row : HDict} (found : live n = some row) :
    (g.removeIndexing n row).Indexes (Function.update live n none) where
  tags := indexes.tags.remove found
  values := indexes.values.removeTags found
  edges := indexes.edges.remove found

variable {g' : EntityGraph N C}

/-- A step of the rows keeps the indexes, if they follow it. -/
theorem Indexed.step (indexed : g.Indexed) {change : IndexChange}
    (step : Rows.Step g.rows change g'.rows) (followed : g'.Indexes (change.apply g.rows.live)) :
    g'.Indexed := by
  have reached := (step.live_eq indexed.rows).2
  rw [← reached] at followed
  exact ⟨followed, step.wellFormed indexed.rows⟩

theorem hasIndex_addTags (index : ValueIndex) (n : Nat) (row : HDict) :
    (index.addTags n row).hasIndex = index.hasIndex :=
  (ValueIndex.edited_addTags index n row).fields

theorem hasIndex_removeTags (index : ValueIndex) (n : Nat) (row : HDict) :
    (index.removeTags n row).hasIndex = index.hasIndex :=
  (ValueIndex.edited_removeTags index n row).fields

/-! ## The effect of a native operation -/

/-- The log after an effect: one more unit, or a gap. -/
def loggedEffect (log : Changelog) (now : Int) (revision : Nat) (effect : Effect) : Changelog :=
  match effect.bytes log.byteCapacity with
  | some bytes => log.appendCommittedUnit now [effect.diff revision bytes]
  | none => log.nativeGap revision

/-- A native operation performed an effect. -/
structure Performed (g g' : EntityGraph N C) (now : Int) (effect : Effect) : Prop where
  rows : g'.rows = effect.rows
  version : g'.version = g.version + 1
  bounded : g'.version ≤ u64Max
  log : g'.log = loggedEffect g.log now (g.version + 1) effect
  framed : Framed g g'
  indexed : g.Indexed → g'.Indexed

theorem nextRevision_eq_ok {revision : Nat} :
    g.nextRevision = .ok revision ↔ revision = g.version + 1 ∧ g.version + 1 ≤ u64Max := by
  unfold nextRevision
  cases checked : checkedAdd u64Max g.version 1 with
  | none =>
    have exhausted : ¬g.version + 1 ≤ u64Max := by
      intro within
      rw [checkedAdd_eq_some_iff.mpr ⟨rfl, within⟩] at checked
      cases checked
    simp [exhausted]
  | some =>
    obtain ⟨rfl, within⟩ := checkedAdd_eq_some_iff.mp checked
    simp [within, eq_comm]

/-- Taking an id touches nothing but the free ids and the next one. -/
theorem takeId_eq_ok {g taken : EntityGraph N C} :
    g.takeId = .ok (n, taken) ↔ ∃ rows, g.rows.takeId = some (n, rows) ∧
        taken = { g with nextId := rows.nextId, freeIds := rows.freeIds } := by
  unfold takeId Rows.takeId
  cases ids : g.freeIds with
  | cons => simp [rows, ids, and_assoc, eq_comm]
  | nil =>
    by_cases exhausted : g.nextId > maxEntityId
    · simp [rows, ids, exhausted]
    · simp [rows, ids, exhausted, eq_comm]

variable {operation : EntityOperation} {effect : Effect}

/-- Once its row is stored and indexed, an operation only records its diff. -/
theorem performed_record (stored : EntityGraph N C)
    (operated : g.rows.operate operation = some (some effect))
    (stores : stored.rows = effect.rows)
    (version : stored.version = g.version + 1) (within : g.version + 1 ≤ u64Max)
    (log : stored.log = g.log) (framed : Framed g stored)
    (followed : g.Indexed → effect.change.before = g.rows.live effect.change.id →
      stored.Indexes (effect.change.apply g.rows.live))
    (now : Int) :
    Performed g (stored.record now ((effect.bytes g.log.byteCapacity).map
        (effect.diff (g.version + 1)))) now effect where
  rows := stores
  version := version
  bounded := version.trans_le within
  log := by
    unfold record loggedEffect
    cases effect.bytes g.log.byteCapacity <;> simp [log, version]
  framed := ⟨framed.namespaceArc, framed.activated, framed.catalogGeneration,
    framed.incarnation, framed.astCache, framed.cached, framed.indexGeneration,
    framed.fields⟩
  indexed := by
    intro indexed
    have step := (indexed.rows.operate operated).step
    have current := (step.live_eq indexed.rows).1
    rw [← stores] at step
    have stepped : stored.Indexed := indexed.step step (followed indexed current.symm)
    exact ⟨⟨stepped.tags, stepped.values, stepped.edges⟩, stepped.rows⟩

variable {now : Int}

theorem Performed.growCache (performed : Performed g g' now effect) :
    Performed g g'.growCache now effect where
  rows := performed.rows
  version := performed.version
  bounded := performed.bounded
  log := performed.log
  framed := ⟨performed.framed.namespaceArc, performed.framed.activated,
    performed.framed.catalogGeneration, performed.framed.incarnation,
    performed.framed.astCache, performed.framed.cached,
    performed.framed.indexGeneration, performed.framed.fields⟩
  indexed := by
    intro indexed
    have stepped := performed.indexed indexed
    exact ⟨⟨stepped.tags, stepped.values, stepped.edges⟩, stepped.rows⟩

variable {refVal : String}

theorem add_performed {row : HDict} {taken : Rows} (extracted : extractRefVal row = .ok refVal)
    (absent : g.entities[refVal]? = none) (within : g.version + 1 ≤ u64Max)
    (free : g.rows.takeId = some (n, taken)) (now : Int) :
    ∃ g', g.add now row = .ok (refVal, g') ∧ Performed g g' now (.add taken refVal n row) := by
  have operated : g.rows.operate (.add row) = some (some (.add taken refVal n row)) :=
    Rows.operate_add_eq_some_iff.mpr ⟨refVal, n, taken, extracted, absent, free, rfl⟩
  have took := takeId_eq_ok.mpr ⟨taken, free, rfl⟩
  have missing : g.entities.contains refVal = false := by
    rw [ExtTreeMap.contains_eq_isSome_getElem?, absent, Option.isSome_none]
  let claimed : EntityGraph N C := { g with nextId := taken.nextId, freeIds := taken.freeIds }
  let stored := { claimed.storeRow refVal n row with version := g.version + 1 }
  refine ⟨(stored.record now ((diffBytes refVal [row] g.log.byteCapacity).map
    fun bytes => addDiff (g.version + 1) bytes refVal row)).growCache, ?_, ?_⟩
  · unfold add
    rw [extracted]
    simp only [bind, Except.bind, missing, nextRevision_eq_ok.mpr ⟨rfl, within⟩, took]
    rfl
  · refine (performed_record stored operated ?_ rfl within rfl ?_ ?_ now).growCache
    · have others := Rows.taken_eq free
      exact Rows.ext (congrArg (·.insert refVal row) others.1.symm)
        (congrArg (·.insert refVal n) others.2.1.symm)
        (congrArg (·.insert n refVal) others.2.2.symm) rfl rfl
    · exact ⟨rfl, rfl, rfl, rfl, rfl, rfl, rfl, hasIndex_addTags _ n row⟩
    · intro indexed fresh
      obtain ⟨tags, values, edges⟩ := indexed.toIndexes.indexRow fresh.symm row
      exact ⟨tags, values, edges⟩

theorem update_performed {old changes : HDict} (mapped : g.idMap[refVal]? = some n)
    (found : g.entities[refVal]? = some old)
    (sameIdentity : changesIdentity refVal changes = false)
    (nonempty : changes.isEmpty = false) (within : g.version + 1 ≤ u64Max) (now : Int) :
    ∃ g', g.update now refVal changes = .ok g' ∧
      Performed g g' now (.patch g.rows refVal n old changes) := by
  have operated : g.rows.operate (.patch refVal changes) =
      some (some (.patch g.rows refVal n old changes)) :=
    Rows.operate_patch_eq_some_iff.mpr ⟨n, old, mapped, found, sameIdentity, by simp [nonempty]⟩
  let stored :=
    { g.replaceRow refVal n old (old.merge changes) with
      version := g.version + 1 }
  refine ⟨stored.record now ((patchDiffBytes refVal old changes
    g.log.byteCapacity).map fun bytes => updateDiff (g.version + 1) bytes refVal
      changes (previousTags old changes)), ?_, ?_⟩
  · unfold update
    simp only [mapped, found, sameIdentity, nonempty, nextRevision_eq_ok.mpr ⟨rfl, within⟩]
    rfl
  · refine performed_record stored operated ?_ rfl within rfl ?_ ?_ now
    · refine Rows.ext ?_ rfl rfl rfl rfl
      exact insert_erase g.entities refVal (old.merge changes)
    · refine ⟨rfl, rfl, rfl, rfl, rfl, rfl, rfl, ?_⟩
      exact (hasIndex_addTags _ n _).trans (hasIndex_removeTags _ n old)
    · intro indexed current
      have stale : g.rows.live n = some old := current.symm
      have cleared := indexed.toIndexes.removeIndexing stale
      obtain ⟨tags, values, edges⟩ := cleared.indexRow
        (Function.update_self n none g.rows.live) (old.merge changes)
      rw [Function.update_idem] at tags values edges
      exact ⟨tags, values, edges⟩

theorem remove_performed {old : HDict} (mapped : g.idMap[refVal]? = some n)
    (found : g.entities[refVal]? = some old) (within : g.version + 1 ≤ u64Max) (now : Int) :
    ∃ g', g.remove now refVal = .ok (old, g') ∧
      Performed g g' now (.remove g.rows refVal n old) := by
  have operated : g.rows.operate (.remove refVal) = some (some (.remove g.rows refVal n old)) :=
    Rows.operate_remove_eq_some_iff.mpr ⟨n, old, mapped, found, rfl⟩
  let stored := { g.dropRow refVal n old with version := g.version + 1 }
  refine ⟨stored.record now ((diffBytes refVal [old] g.log.byteCapacity).map
    fun bytes => removeDiff (g.version + 1) bytes refVal old), ?_, ?_⟩
  · unfold remove
    simp only [mapped, found, nextRevision_eq_ok.mpr ⟨rfl, within⟩]
    rfl
  · refine performed_record stored operated rfl rfl within rfl ?_ ?_ now
    · exact ⟨rfl, rfl, rfl, rfl, rfl, rfl, rfl, hasIndex_removeTags _ n old⟩
    · intro indexed current
      obtain ⟨tags, values, edges⟩ := indexed.toIndexes.removeIndexing current.symm
      exact ⟨tags, values, edges⟩

/-- An operation with an effect performs it, unless revisions run out. -/
theorem native_performed (operated : g.rows.operate operation = some (some effect))
    (within : g.version + 1 ≤ u64Max) (now : Int) :
    ∃ g', g.native now operation = .ok g' ∧ Performed g g' now effect := by
  cases operation with
  | add =>
    obtain ⟨_, n, _, extracted, absent, free, same⟩ := Rows.operate_add_eq_some_iff.mp operated
    obtain rfl := Option.some.inj same
    obtain ⟨g', added, performed⟩ := add_performed extracted absent within free now
    exact ⟨g', by simp [native, added, Except.map], performed⟩
  | patch =>
    obtain ⟨n, _, mapped, found, sameIdentity, same⟩ := Rows.operate_patch_eq_some_iff.mp operated
    split at same
    · cases same
    rename_i nonempty
    obtain rfl := Option.some.inj same
    exact update_performed mapped found sameIdentity (by simpa using nonempty) within now
  | remove =>
    obtain ⟨n, _, mapped, found, same⟩ := Rows.operate_remove_eq_some_iff.mp operated
    obtain rfl := Option.some.inj same
    obtain ⟨g', removed, performed⟩ := remove_performed mapped found within now
    exact ⟨g', by simp [native, removed, Except.map], performed⟩

/-- The empty patch leaves the graph alone. -/
theorem native_quiet (operated : g.rows.operate operation = some none) (now : Int) :
    g.native now operation = .ok g := by
  cases operation with
  | add =>
    obtain ⟨_, _, _, _, _, _, same⟩ := Rows.operate_add_eq_some_iff.mp operated
    cases same
  | patch refVal =>
    obtain ⟨n, old, mapped, found, sameIdentity, same⟩ :=
      Rows.operate_patch_eq_some_iff.mp operated
    split at same
    · rename_i empty
      have mapped : g.idMap[refVal]? = some n := mapped
      have found : g.entities[refVal]? = some old := found
      simp [native, update, mapped, found, sameIdentity, empty]
    · cases same
  | remove =>
    obtain ⟨_, _, _, _, same⟩ := Rows.operate_remove_eq_some_iff.mp operated
    cases same

/-- A successful operation is defined on the rows. -/
theorem operate_of_native (succeeded : g.native now operation = .ok g') :
    ∃ result, g.rows.operate operation = some result ∧
      (result.isSome = true → g.version + 1 ≤ u64Max) := by
  cases operation with
  | add =>
    obtain ⟨⟨_, _⟩, added, _⟩ := except_map_eq_ok.mp succeeded
    obtain ⟨_, extracted, added⟩ := except_bind_eq_ok.mp added
    split at added
    · cases added
    rename_i absent
    obtain ⟨_, next, added⟩ := except_bind_eq_ok.mp added
    obtain ⟨⟨n, _⟩, took, added⟩ := except_bind_eq_ok.mp added
    obtain ⟨taken, free, _⟩ := takeId_eq_ok.mp took
    refine ⟨_, Rows.operate_add_eq_some_iff.mpr ⟨_, n, taken, extracted, ?_, free, rfl⟩, fun _ =>
        (nextRevision_eq_ok.mp next).2⟩
    simpa [rows] using absent
  | patch =>
    simp only [native, update] at succeeded
    split at succeeded
    · rename_i n old mapped found
      split at succeeded
      · cases succeeded
      rename_i sameIdentity
      refine ⟨_, Rows.operate_patch_eq_some_iff.mpr
        ⟨n, old, mapped, found, by simpa using sameIdentity, rfl⟩, ?_⟩
      split at succeeded
      · rename_i empty
        simp [empty]
      · obtain ⟨_, next, _⟩ := except_bind_eq_ok.mp succeeded
        exact fun _ => (nextRevision_eq_ok.mp next).2
    · cases succeeded
  | remove =>
    obtain ⟨_, removed, _⟩ := except_map_eq_ok.mp succeeded
    simp only [remove] at removed
    split at removed
    · rename_i n old mapped found
      obtain ⟨_, next, _⟩ := except_bind_eq_ok.mp removed
      exact ⟨_, Rows.operate_remove_eq_some_iff.mpr
        ⟨n, old, mapped, found, rfl⟩, fun _ => (nextRevision_eq_ok.mp next).2⟩
    · cases removed

/-- A successful native operation changes nothing or performs its effect. -/
theorem native_eq_ok (succeeded : g.native now operation = .ok g') :
    (g.rows.operate operation = some none ∧ g' = g) ∨
      ∃ effect, g.rows.operate operation = some (some effect) ∧ Performed g g' now effect := by
  obtain ⟨result, operated, within⟩ := operate_of_native succeeded
  cases result with
  | none =>
    rw [native_quiet operated] at succeeded
    exact .inl ⟨operated, (Except.ok.inj succeeded).symm⟩
  | some effect =>
    obtain ⟨_, reached, performed⟩ := native_performed operated (within rfl) now
    rw [reached] at succeeded
    obtain rfl := Except.ok.inj succeeded
    exact .inr ⟨effect, operated, performed⟩

/-- A performed effect is a commit of one diff. -/
theorem Performed.commit (performed : Performed g g' now effect) (sound : effect.Sound g.rows) :
    ∃ diff, Commit g g' [effect.change] [diff] := by
  have version := performed.version
  refine ⟨effect.diff (g.version + 1) ((effect.bytes g.log.byteCapacity).getD 0), ?_⟩
  refine
    { steps := .snoc .nil (performed.rows ▸ sound.step)
      recorded := .single ?_
      complete := diffUnits_singleton (sound.version _ _) (sound.span _ _)
      version := version
      bounded := performed.bounded
      logged := ?_
      framed := performed.framed
      indexed := performed.indexed }
  · have recorded := sound.recorded (g.version + 1) ((effect.bytes g.log.byteCapacity).getD 0)
    rw [← performed.rows] at recorded
    exact recorded
  · have log := performed.log
    unfold loggedEffect at log
    cases retained : effect.bytes g.log.byteCapacity with
    | none =>
      rw [retained] at log
      exact .gap (by rw [log, version])
    | some =>
      rw [retained] at log
      refine .unit now ?_ log
      intro diff member
      obtain rfl := List.mem_singleton.mp member
      exact sound.accounted _ _ _ retained

end EntityGraph
end Graph
end Haystack
