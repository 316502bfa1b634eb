import Haystack.Graph.Invariants

/-!
# Replay

The diffs of a log carry the difference of the entity maps between two points of
a run, in both directions.
-/

namespace Haystack
namespace Graph

open Std (ExtTreeMap)
open Collections
open Haystack.Filter (FilterNode Ontology)

namespace GraphDiff

/-- Apply a diff to the map before it. -/
def replay (map : ExtTreeMap String HDict) (diff : GraphDiff) : ExtTreeMap String HDict :=
  match diff.op with
  | .add => (diff.new.map (map.insert diff.refVal)).getD map
  | .remove => map.erase diff.refVal
  | .update =>
    match map[diff.refVal]?, diff.changedTags with
    | some row, some changes => map.insert diff.refVal (row.merge changes)
    | _, _ => map

/-- Give a changed tag its previous value back, or delete it. -/
def restoreTag (previous row : HDict) (tag : String × Kind) : HDict :=
  match previous.get tag.1 with
  | some value => row.set tag.1 value
  | none => row.removeTag tag.1

/-- The row before a patch. -/
def restoreTags (row changes previous : HDict) : HDict :=
  changes.iter.foldl (restoreTag previous) row

/-- Take a diff back from the map after it. -/
def unreplay (diff : GraphDiff) (map : ExtTreeMap String HDict) : ExtTreeMap String HDict :=
  match diff.op with
  | .add => map.erase diff.refVal
  | .remove => (diff.old.map (map.insert diff.refVal)).getD map
  | .update =>
    match map[diff.refVal]?, diff.changedTags, diff.previousTags with
    | some row, some changes, some previous =>
      map.insert diff.refVal (restoreTags row changes previous)
    | _, _, _ => map

theorem get_restoreTags (row changes previous : HDict) (name : String) :
    (restoreTags row changes previous).get name =
      if (changes.get name).isSome then previous.get name
      else row.get name := by
  unfold restoreTags HDict.iter
  rw [observe_foldl_toList (HDict.get · name) fun _ _ => previous.get name]
  · change (changes.get name).elim _ _ = _
    cases changes.get name <;> rfl
  · rintro row ⟨key, value⟩
    by_cases same : key = name
    · subst same
      cases found : previous.get key <;> simp [restoreTag, found]
    · cases found : previous.get key <;> simp [restoreTag, found, same]

/-- Restoring the previous tags of a patch takes the patch back. -/
theorem restoreTags_merge (old changes : HDict) :
    restoreTags (old.merge changes) changes (EntityGraph.previousTags old changes) = old := by
  apply HDict.ext_get
  intro name
  rw [get_restoreTags, HDict.get_merge, get_previousTags]
  cases changes.get name <;> simp [HDict.mergedTag]

end GraphDiff

open GraphDiff (replay unreplay)

variable {before after : ExtTreeMap String HDict}

/-- A recorded difference is replayed forwards and backwards. -/
theorem Recorded.replay_eq {diff : GraphDiff} (recorded : Recorded before after diff) :
    replay before diff = after ∧ unreplay diff after = before := by
  cases recorded with
  | add row op shape identified absent result =>
    subst result
    refine ⟨by simp [replay, op, shape.2.1], ?_⟩
    simp only [unreplay, op]
    apply ExtTreeMap.ext_getElem?
    intro refVal
    rw [ExtTreeMap.getElem?_erase, ExtTreeMap.getElem?_insert]
    by_cases same : diff.refVal = refVal
    · subst same
      simp [absent]
    · simp [same]
  | update old changes op shape found result =>
    subst result
    refine ⟨by simp [replay, op, shape.2.2.1, found], ?_⟩
    simp only [unreplay, op, shape.2.2, ExtTreeMap.getElem?_insert_self,
      GraphDiff.restoreTags_merge]
    apply ExtTreeMap.ext_getElem?
    intro refVal
    rw [ExtTreeMap.getElem?_insert, ExtTreeMap.getElem?_insert]
    by_cases same : diff.refVal = refVal
    · subst same
      simp [found]
    · simp [same]
  | remove old op shape identified found result =>
    subst result
    refine ⟨by simp [replay, op], ?_⟩
    simp only [unreplay, op, shape.1, Option.map_some, Option.getD_some]
    apply ExtTreeMap.ext_getElem?
    intro refVal
    rw [ExtTreeMap.getElem?_insert, ExtTreeMap.getElem?_erase]
    by_cases same : diff.refVal = refVal
    · subst same
      simp [found]
    · simp [same]

variable {diffs : List GraphDiff}

/-- A recorded sequence is replayed in order, and taken back in reverse order. -/
theorem RecordedAll.replay_eq (recorded : RecordedAll before diffs after) :
    diffs.foldl replay before = after ∧ diffs.foldr unreplay after = before := by
  induction recorded with
  | nil => exact ⟨rfl, rfl⟩
  | snoc _ last ih =>
    obtain ⟨forwards, backwards⟩ := ih
    obtain ⟨applied, taken⟩ := last.replay_eq
    rw [List.foldl_append, forwards]
    simp [applied, taken, backwards]

theorem RecordedAll.append {middle : ExtTreeMap String HDict} {first second : List GraphDiff}
    (left : RecordedAll before first middle) (right : RecordedAll middle second after) :
    RecordedAll before (first ++ second) after := by
  induction right with
  | nil => rwa [List.append_nil]
  | snoc _ last ih =>
    rw [← List.append_assoc]
    exact .snoc ih last

theorem RecordedAll.stamp (recorded : RecordedAll before diffs after) (now : Int) :
    RecordedAll before (Changelog.stamp now diffs) after := by
  induction recorded with
  | nil => exact .nil
  | snoc _ last ih =>
    rw [Changelog.stamp, List.map_append]
    exact .snoc ih (last.congr _ _ now)

/-! ## Between two points of a run -/

namespace EntityGraph

variable {N C : Type} {ontology : Ontology N C} {parseFilter : String → Except String FilterNode}

/-- The diffs between two states of a graph.  The log ends with those that its
floor has not passed. -/
structure Traced (g g' : EntityGraph N C) (diffs : List GraphDiff) : Prop where
  recorded : RecordedAll g.entities diffs g'.entities
  units : ∃ units, diffs = units.flatten ∧ Changelog.DiffUnits g.version units
  version : g'.version = g.version + diffs.length
  retained : ∀ version, g'.log.floorVersion ≤ version → g.version ≤ version →
    g'.log.entries.drop (version - g'.log.floorVersion) = diffs.drop (version - g.version)

variable {g : EntityGraph N C} {units : List (List GraphDiff)}

theorem Traced.refl (retains : Changelog.Retains g.log g.version units) : Traced g g [] := by
  refine ⟨.nil, ⟨[], rfl, trivial⟩, rfl, fun version _ above => ?_⟩
  have head := retains.head
  rw [← retains.entries] at head
  rw [List.drop_nil]
  exact List.drop_eq_nil_of_le (by omega)

variable {g' : EntityGraph N C} {diffs : List GraphDiff} {newer : List GraphDiff}

/-- A complete unit continues the units of a trace. -/
theorem Traced.units_append (traced : Traced g g' diffs)
    (complete : Changelog.DiffUnits g'.version [newer]) :
    ∃ units, diffs ++ newer = units.flatten ∧ Changelog.DiffUnits g.version units := by
  obtain ⟨units, rfl, older⟩ := traced.units
  refine ⟨units ++ [newer], by simp, unitsFrom_append.mpr ⟨older, ?_⟩⟩
  rw [← traced.version]
  exact complete

variable {g'' : EntityGraph N C}

theorem Traced.commit (traced : Traced g g' diffs)
    (retains : Changelog.Retains g'.log g'.version units) {changes : List IndexChange}
    (committed : Commit g' g'' changes newer) : ∃ more, Traced g g'' (diffs ++ more) := by
  have version := traced.version
  have committedVersion := committed.version
  cases committed.logged with
  | gap cleared =>
    have total : g''.version = g.version + (diffs ++ newer).length := by
      rw [List.length_append]
      omega
    refine ⟨newer, traced.recorded.append committed.recorded,
      traced.units_append committed.complete, total, ?_⟩
    -- The floor is now the head, and nothing comes after it.
    intro v floor above
    rw [cleared] at floor ⊢
    change g''.version ≤ v at floor
    have nothing : (diffs ++ newer).drop (v - g.version) = [] := List.drop_eq_nil_of_le (by omega)
    rw [nothing]
    exact List.drop_nil
  | unit now accounted appended =>
    have evicted := retains.appendCommittedUnit committed.complete now
    have floorLater := evicted.floor
    rw [← appended] at floorLater
    have head := retains.head
    rw [← retains.entries] at head
    have entries := retains.entries_appendCommittedUnit committed.complete now
    rw [← appended] at entries
    refine ⟨Changelog.stamp now newer, traced.recorded.append (committed.recorded.stamp now),
      traced.units_append (Changelog.diffUnits_stamp now committed.complete),
      ?_, ?_⟩
    · simp only [List.length_append, Changelog.stamp, List.length_map]
      omega
    · intro v floor above
      have total : g''.log.floorVersion - g'.log.floorVersion +
          (v - g''.log.floorVersion) = v - g'.log.floorVersion := by omega
      rw [entries, List.drop_drop, total, List.drop_append, List.drop_append,
        traced.retained v (floorLater.trans floor) above]
      congr 2
      omega

theorem Traced.moved (traced : Traced g g' diffs)
    (retains : Changelog.Retains g'.log g'.version units)
    (moved : Moved ontology parseFilter g' g'') : ∃ more, Traced g g'' (diffs ++ more) := by
  rcases moved.commit_or_same with
    ⟨_, _, committed⟩ | ⟨rows, version, log, _⟩
  · exact traced.commit retains committed
  · have entities : g''.entities = g'.entities := congrArg Rows.entities rows
    refine ⟨[], ?_⟩
    rw [List.append_nil]
    refine ⟨?_, traced.units, ?_, ?_⟩
    · rw [entities]
      exact traced.recorded
    · rw [version]
      exact traced.version
    · rw [log]
      exact traced.retained

end EntityGraph

namespace Session

open EntityGraph (Traced)

variable {N C : Type} {ontology : Ontology N C} {parseFilter : String → Except String FilterNode}

/-- A run extends a trace. -/
theorem Sound.traced_run {g : EntityGraph N C} {s : Session N C} (sound : s.Sound)
    (traced : Traced g s.graph diffs) (commands : List (Command N C)) :
    ∃ more, Traced g (s.run ontology parseFilter commands).graph (diffs ++ more) := by
  induction commands generalizing s diffs with
  | nil => exact ⟨[], by rwa [List.append_nil]⟩
  | cons command commands ih =>
    obtain ⟨_, retains⟩ := sound.retained
    have moved : EntityGraph.Moved ontology parseFilter s.graph
        (s.step ontology parseFilter command).graph :=
      sound.step_moved command
    obtain ⟨newer, extended⟩ := traced.moved retains moved
    obtain ⟨more, all⟩ := ih (sound.step command) extended
    exact ⟨newer ++ more, by rwa [List.append_assoc] at all⟩

/-- The changes since a version at which the graph stood, and that the floor has
not passed, lead from the map at that version to the current map, and back. -/
theorem changesSince_replay {s : Session N C} (reachable : Reachable ontology parseFilter s)
    (commands : List (Command N C))
    (retained : (s.run ontology parseFilter commands).graph.log.floorVersion ≤ s.graph.version) :
    ∃ diffs, (s.run ontology parseFilter commands).graph.changesSince
          s.graph.version = .ok diffs ∧
        diffs.foldl GraphDiff.replay s.graph.entities =
          (s.run ontology parseFilter commands).graph.entities ∧
        diffs.foldr GraphDiff.unreplay (s.run ontology parseFilter commands).graph.entities =
          s.graph.entities := by
  have sound := reachable.sound
  obtain ⟨_, earlier⟩ := sound.retained
  obtain ⟨diffs, traced⟩ := sound.traced_run (Traced.refl earlier) commands
  rw [List.nil_append] at traced
  have soundAfter : (s.run ontology parseFilter commands).Sound := sound.run commands
  obtain ⟨_, retains⟩ := soundAfter.retained
  refine ⟨diffs, ?_, traced.recorded.replay_eq⟩
  rw [EntityGraph.changesSince, retains.changesSince retained,
    traced.retained _ retained le_rfl, Nat.sub_self, List.drop_zero]

/-- A patch and a removal, replayed from the state after an addition. -/
theorem changesSince_replay_patch :
    let row : HDict := HDict.new.set "id" (.ref ⟨"a", none⟩)
    let noFilter : String → Except String FilterNode := fun _ => .error ""
    let s := run Ontology.blank noFilter (initial 3 3000 1 none) [.add 0 row]
    let s' := s.run Ontology.blank noFilter
      [.update 0 "a" (HDict.new.set "site" .marker), .remove 0 "a"]
    s.graph.version = 1 ∧ s'.graph.version = 3 ∧
      ∃ diffs, s'.graph.changesSince s.graph.version = .ok diffs ∧
        diffs.foldl GraphDiff.replay s.graph.entities = s'.graph.entities ∧
        diffs.foldr GraphDiff.unreplay s'.graph.entities = s.graph.entities :=
  ⟨by decide, by decide, changesSince_replay ⟨_, _, _, _, _, rfl⟩ _ (by decide)⟩

end Session
end Graph
end Haystack
