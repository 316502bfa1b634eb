import Haystack.Graph.Batch
import Haystack.Graph.Query

/-!
# Runs of a graph

A session is a graph together with the plans prepared for it so far.  Commands
are the public operations; one that fails, or panics at the end of a counter,
leaves the session alone.  Every command moves the graph in one of a few ways,
and the invariants of a run are derived from these.
-/

namespace Haystack
namespace Graph

open Std (ExtTreeMap)
open Collections
open Haystack.Filter (FilterNode Ontology Arc)

/-- A graph and the plans prepared for it. -/
structure Session (N C : Type) where
  graph : EntityGraph N C
  plans : List PreparedBatch

/-- The public operations of a graph. -/
inductive Command (N C : Type)
  | add (now : Int) (row : HDict)
  | update (now : Int) (refVal : String) (changes : HDict)
  | remove (now : Int) (refVal : String)
  | indexField (field : String)
  | rebuildValueIndex
  | prepareBatch (allocation : Allocation) (expectedRevision : Nat)
      (operations : List EntityOperation) (limits : BatchLimits)
  | applyPrepared (now : Int) (reserved : Bool) (plan : Nat)
  | compareInitializeCatalog (expected : GraphState) (base : Option (Arc N)) (catalog : Arc C)
  | compareActivateCatalog (expected : GraphState) (old next : Arc C)
  | setNamespace (ns : Arc N) (ptr nsPtr : Nat)
  | compareSetNamespace (expected : Nat) (ns : Arc N) (ptr nsPtr : Nat)
  | readAll (filterExpr : String) (limit : Nat)

namespace EntityGraph

variable {N C : Type} (ontology : Ontology N C) (parseFilter : String → Except String FilterNode)

/-- The graph after a fallible operation: unchanged when it fails. -/
def settle {ε α : Type} (g : EntityGraph N C) : Except ε (α × EntityGraph N C) → EntityGraph N C
  | .ok (_, g') => g'
  | .error _ => g

/-- The graph after a command that does not use the prepared plans. -/
def perform (g : EntityGraph N C) : Command N C → EntityGraph N C
  | .add now row => g.settle (g.add now row)
  | .update now refVal changes =>
    g.settle ((g.update now refVal changes).map (Prod.mk ()))
  | .remove now refVal => g.settle (g.remove now refVal)
  | .indexField field => (g.indexField field).getD g
  | .rebuildValueIndex => g.rebuildValueIndex
  | .compareInitializeCatalog expected base catalog =>
    g.settle (g.compareInitializeCatalog ontology expected base catalog)
  | .compareActivateCatalog expected old next =>
    g.settle (g.compareActivateCatalog ontology expected old next)
  | .setNamespace ns ptr nsPtr => (g.setNamespace ontology ns ptr nsPtr).getD g
  | .compareSetNamespace expected ns ptr nsPtr =>
    ((g.compareSetNamespace ontology expected ns ptr nsPtr).map g.settle).getD g
  | .readAll filterExpr limit =>
    (g.readAll ontology parseFilter filterExpr limit).2
  | .prepareBatch .. => g
  | .applyPrepared .. => g

end EntityGraph

namespace Session

variable {N C : Type} (ontology : Ontology N C) (parseFilter : String → Except String FilterNode)

/-- A new graph with the given log bounds and namespace, and no plans. -/
def initial (capacity bytes : Nat) (incarnation : BitVec 128)
    (base : Option (Arc N)) : Session N C where
  graph :=
    { (EntityGraph.withChangelogLimits capacity bytes incarnation :
        EntityGraph N C) with namespaceArc := base }
  plans := []

/-- One command. -/
def step (s : Session N C) : Command N C → Session N C
  | .prepareBatch allocation expectedRevision operations limits =>
    match s.graph.prepareBatch allocation expectedRevision operations limits with
    | .ok plan => { s with plans := s.plans ++ [plan] }
    | .error _ => s
  | .applyPrepared now reserved index =>
    match s.plans[index]? with
    | some plan =>
      match s.graph.applyPrepared now reserved plan with
      | .ok (_, graph) => { s with graph }
      | .error _ => s
    | none => s
  | command =>
    { s with graph := s.graph.perform ontology parseFilter command }

/-- A sequence of commands. -/
def run (s : Session N C) (commands : List (Command N C)) : Session N C :=
  commands.foldl (step ontology parseFilter) s

/-- A session that a run from a new graph ends in. -/
def Reachable (s : Session N C) : Prop := ∃ capacity bytes incarnation base commands,
    s = run ontology parseFilter (initial capacity bytes incarnation base) commands

end Session

/-! ## Moves -/

namespace EntityGraph

variable {N C : Type} (ontology : Ontology N C) (parseFilter : String → Except String FilterNode)

/-- What a command can do to the graph. -/
inductive Moved (g : EntityGraph N C) : EntityGraph N C → Prop
  | stay : Moved g g
  | grown : Moved g g.growCache
  | commit {g' : EntityGraph N C} (changes : List IndexChange)
      (diffs : List GraphDiff) (committed : Commit g g' changes diffs) :
      Moved g g'
  | reindexed (index : ValueIndex) (generation : Nat)
      (exactAfter : g.Indexed → index.Exact g.rows.live)
      (later : g.indexGeneration ≤ generation)
      (fields : g.indexGeneration = generation → index.hasIndex = g.valueIndex.hasIndex) :
      Moved g { g with valueIndex := index, indexGeneration := generation }
  | republished (ns : Option (Arc N)) (activated : Option (Arc C))
      (derived : ∀ catalog, activated = some catalog →
        ns = some (ontology.catalogNamespace catalog.val)) :
      Moved g { g with
          namespaceArc := ns
          activated := activated
          catalogGeneration := g.catalogGeneration + 1
          queryCache := g.queryCache.clear }
  | queried (filterExpr : String) (limit : Nat) :
      Moved g (g.readAll ontology parseFilter filterExpr limit).2

variable {ontology parseFilter}

/-! ## Commands move the graph -/

variable {g : EntityGraph N C}

/-- The numbered rows are the live ones, each once. -/
theorem Rows.WellFormed.numbered (wellFormed : g.rows.WellFormed) :
    (g.numbered.map Prod.fst).Nodup ∧
      ∀ n row, g.rows.live n = some row ↔ (n, row) ∈ g.numbered := by
  constructor
  · rw [List.Nodup, List.pairwise_map]
    refine (pairwise_toList g.entities).filterMap _ ?_
    rintro ⟨left, leftRow⟩ ⟨right, rightRow⟩ different ⟨n, _⟩ given ⟨m, _⟩ otherGiven rfl
    obtain ⟨_, mapped, same⟩ := Option.map_eq_some_iff.mp given
    obtain ⟨_, otherMapped, otherSame⟩ := Option.map_eq_some_iff.mp otherGiven
    obtain ⟨rfl, _⟩ := Prod.mk.inj same
    obtain ⟨rfl, _⟩ := Prod.mk.inj otherSame
    have owner := (wellFormed.inverse left _).mp mapped
    have otherOwner := (wellFormed.inverse right _).mp otherMapped
    exact different (Option.some.inj (owner.symm.trans otherOwner))
  · intro n row
    rw [wellFormed.live_eq_some_iff]
    simp only [EntityGraph.numbered, List.mem_filterMap, Prod.exists,
      Option.map_eq_some_iff, Prod.mk.injEq,
      ExtTreeMap.mem_toList_iff_getElem?_eq_some]
    constructor
    · rintro ⟨refVal, mapped, found⟩
      exact ⟨refVal, row, found, n, mapped, rfl, rfl⟩
    · rintro ⟨refVal, _, found, _, mapped, rfl, rfl⟩
      exact ⟨refVal, mapped, found⟩

variable {g' : EntityGraph N C}

theorem moved_native (indexed : g.Indexed) {now : Int} {operation : EntityOperation}
    (succeeded : g.native now operation = .ok g') : Moved ontology parseFilter g g' := by
  rcases native_eq_ok succeeded with ⟨_, rfl⟩ | ⟨effect, operated, performed⟩
  · exact .stay
  · obtain ⟨_, committed⟩ := performed.commit (indexed.rows.operate operated)
    exact .commit _ _ committed

theorem moved_indexField {field : String} (registered : g.indexField field = some g') :
    Moved ontology parseFilter g g' := by
  unfold indexField at registered
  split at registered
  · cases registered
    exact .stay
  rename_i unregistered
  obtain ⟨_, next, registered⟩ := Option.bind_eq_some_iff.mp registered
  obtain ⟨rfl, _⟩ := checkedAdd_eq_some_iff.mp next
  cases registered
  refine .reindexed _ _ ?_ (Nat.le_add_right _ _) (by simp)
  intro indexed
  obtain ⟨distinct, liveRows⟩ := Rows.WellFormed.numbered indexed.rows
  exact indexed.values.indexField (by simpa using unregistered) distinct liveRows

theorem hasIndex_rebuild (g : EntityGraph N C) :
    g.rebuildValueIndex.valueIndex.hasIndex = g.valueIndex.hasIndex := by
  have rebuilt (rows : List (Nat × HDict)) (index : ValueIndex) :
      (rows.foldl (fun index row => index.addTags row.1 row.2) index).hasIndex =
        index.hasIndex := by
    induction rows generalizing index with
    | nil => rfl
    | cons row rows ih =>
      rw [List.foldl_cons, ih, hasIndex_addTags]
  unfold rebuildValueIndex
  rw [rebuilt]
  funext field
  simp [ValueIndex.hasIndex_eq, ValueIndex.getElem?_clear]

theorem moved_rebuildValueIndex (g : EntityGraph N C) :
    Moved ontology parseFilter g g.rebuildValueIndex := by
  refine .reindexed _ _ ?_ le_rfl fun _ => hasIndex_rebuild g
  intro indexed
  obtain ⟨distinct, liveRows⟩ := Rows.WellFormed.numbered indexed.rows
  exact ValueIndex.exact_rebuild g.valueIndex distinct liveRows

variable {generation : Nat}

theorem moved_publishCatalog {next : Arc C}
    (published : g.publishCatalog ontology next = .ok (generation, g')) :
    Moved ontology parseFilter g g' := by
  unfold publishCatalog at published
  split at published
  · cases published
  · rename_i checked
    obtain ⟨rfl, _⟩ := checkedAdd_eq_some_iff.mp checked
    cases published
    exact .republished _ _ fun catalog same => by
      obtain rfl := Option.some.inj same
      rfl

theorem moved_setNamespace {ns : Arc N} {ptr nsPtr : Nat}
    (replaced : g.setNamespace ontology ns ptr nsPtr = some g') :
    Moved ontology parseFilter g g' := by
  obtain ⟨_, checked, replaced⟩ := Option.bind_eq_some_iff.mp replaced
  obtain ⟨rfl, _⟩ := checkedAdd_eq_some_iff.mp checked
  cases managed : g.activated with
  | some =>
    simp only [managed, Option.some.injEq] at replaced
    subst replaced
    exact .republished _ _ fun catalog same => by
      obtain rfl := Option.some.inj same
      rfl
  | none =>
    simp only [managed, Option.some.injEq] at replaced
    subst replaced
    rw [← managed]
    refine .republished _ _ fun catalog same => ?_
    rw [managed] at same
    cases same

variable {expected : GraphState}

theorem moved_compareInitializeCatalog {base : Option (Arc N)} {catalog : Arc C}
    (published : g.compareInitializeCatalog ontology expected base catalog =
      .ok (generation, g')) :
    Moved ontology parseFilter g g' := by
  unfold compareInitializeCatalog at published
  split at published
  · cases published
  · exact moved_publishCatalog published

theorem moved_compareActivateCatalog {old next : Arc C}
    (published : g.compareActivateCatalog ontology expected old next = .ok (generation, g')) :
    Moved ontology parseFilter g g' := by
  unfold compareActivateCatalog at published
  split at published
  · cases published
  · exact moved_publishCatalog published

/-- A command that may fail moves the graph when it does so on success. -/
theorem moved_settle {ε α : Type} {result : Except ε (α × EntityGraph N C)}
    (success : ∀ value g', result = .ok (value, g') → Moved ontology parseFilter g g') :
    Moved ontology parseFilter g (g.settle result) := by
  cases result with
  | error => exact .stay
  | ok value => exact success value.1 value.2 rfl

/-- A command that may panic moves the graph when it does so otherwise. -/
theorem moved_getD {result : Option (EntityGraph N C)}
    (success : ∀ g', result = some g' → Moved ontology parseFilter g g') :
    Moved ontology parseFilter g (result.getD g) := by
  cases result with
  | none => exact .stay
  | some g' => exact success g' rfl

theorem moved_perform (indexed : g.Indexed) (command : Command N C) :
    Moved ontology parseFilter g (g.perform ontology parseFilter command) := by
  cases command with
  | add now row =>
    refine moved_settle fun refVal g' added => ?_
    have succeeded : g.native now (.add row) = .ok g' :=
      except_map_eq_ok.mpr ⟨(refVal, g'), added, rfl⟩
    exact moved_native indexed succeeded
  | update now refVal changes =>
    refine moved_settle fun _ g' updated => ?_
    obtain ⟨_, succeeded, same⟩ := except_map_eq_ok.mp updated
    obtain ⟨_, rfl⟩ := Prod.mk.inj same
    have native : g.native now (.patch refVal changes) = .ok _ := succeeded
    exact moved_native indexed native
  | remove now refVal =>
    refine moved_settle fun row g' removed => ?_
    have succeeded : g.native now (.remove refVal) = .ok g' :=
      except_map_eq_ok.mpr ⟨(row, g'), removed, rfl⟩
    exact moved_native indexed succeeded
  | indexField =>
    exact moved_getD fun g' registered => moved_indexField registered
  | rebuildValueIndex => exact moved_rebuildValueIndex g
  | prepareBatch | applyPrepared => exact .stay
  | compareInitializeCatalog =>
    exact moved_settle fun _ g' published =>
      moved_compareInitializeCatalog published
  | compareActivateCatalog =>
    exact moved_settle fun _ g' published =>
      moved_compareActivateCatalog published
  | setNamespace =>
    exact moved_getD fun g' replaced => moved_setNamespace replaced
  | compareSetNamespace =>
    refine moved_getD fun g' settled => ?_
    obtain ⟨_, compared, rfl⟩ := Option.map_eq_some_iff.mp settled
    refine moved_settle fun _ after succeeded => ?_
    subst succeeded
    unfold compareSetNamespace at compared
    split at compared
    · cases compared
    · obtain ⟨_, replaced, same⟩ := Option.map_eq_some_iff.mp compared
      cases same
      exact moved_setNamespace replaced
  | readAll filterExpr limit => exact .queried filterExpr limit

/-- A query touches the caches alone. -/
theorem readAll_frame (ontology : Ontology N C) (parseFilter : String → Except String FilterNode)
    (g : EntityGraph N C) (filterExpr : String) (limit : Nat) :
    ∃ queryCache astCache, (g.readAll ontology parseFilter filterExpr limit).2 =
      { g with queryCache := queryCache, astCache := astCache } := by
  unfold readAll
  cases g.queryCache.get filterExpr g.version with
  | some => exact ⟨_, _, rfl⟩
  | none =>
    unfold parsed
    cases g.astCache[filterExpr]? with
    | some =>
      simp only
      split
      · exact ⟨_, _, rfl⟩
      · split <;> exact ⟨_, _, rfl⟩
    | none =>
      cases parseFilter filterExpr with
      | error => exact ⟨_, _, rfl⟩
      | ok =>
        simp only
        split
        · exact ⟨_, _, rfl⟩
        · split <;> exact ⟨_, _, rfl⟩

/-! ## What every move keeps -/

theorem Moved.indexed (moved : Moved ontology parseFilter g g') (indexed : g.Indexed) :
    g'.Indexed := by
  cases moved with
  | stay => exact indexed
  | grown => exact ⟨⟨indexed.tags, indexed.values, indexed.edges⟩, indexed.rows⟩
  | commit changes diffs committed => exact committed.indexed indexed
  | reindexed index generation exactAfter =>
    exact ⟨⟨indexed.tags, exactAfter indexed, indexed.edges⟩, indexed.rows⟩
  | republished =>
    exact ⟨⟨indexed.tags, indexed.values, indexed.edges⟩, indexed.rows⟩
  | queried filterExpr limit =>
    obtain ⟨_, _, same⟩ :=  readAll_frame ontology parseFilter g filterExpr limit
    rw [same]
    exact ⟨⟨indexed.tags, indexed.values, indexed.edges⟩, indexed.rows⟩

variable {changes : List IndexChange} {diffs : List GraphDiff}

theorem Commit.retained (committed : Commit g g' changes diffs) {units : List (List GraphDiff)}
    (retains : Changelog.Retains g.log g.version units) :
    ∃ newer, Changelog.Retains g'.log g'.version newer := by
  rw [committed.version]
  cases committed.logged with
  | unit now accounted appended =>
    rw [appended]
    exact ⟨_, (retains.appendCommittedUnit committed.complete now).retains⟩
  | gap cleared =>
    rw [cleared, committed.version]
    exact ⟨[], Changelog.retains_nativeGap _ _⟩

variable (moved : Moved ontology parseFilter g g')

include moved

/-- Apart from commits, moves leave the revision and the log alone. -/
theorem Moved.commit_or_same :
    (∃ changes diffs, Commit g g' changes diffs) ∨
      g'.rows = g.rows ∧ g'.version = g.version ∧ g'.log = g.log ∧
        g'.tagIndex = g.tagIndex ∧ g'.adjacency = g.adjacency := by
  cases moved with
  | commit changes diffs committed => exact .inl ⟨changes, diffs, committed⟩
  | queried filterExpr limit =>
    obtain ⟨_, _, same⟩ := readAll_frame ontology parseFilter g filterExpr limit
    rw [same]
    exact .inr ⟨rfl, rfl, rfl, rfl, rfl⟩
  | _ => exact .inr ⟨rfl, rfl, rfl, rfl, rfl⟩

theorem Moved.bounded (bounded : g.version ≤ u64Max) : g'.version ≤ u64Max := by
  rcases moved.commit_or_same with
    ⟨_, _, committed⟩ | ⟨_, version, _⟩
  · exact committed.bounded
  · rwa [version]

theorem Moved.retained (retained : ∃ units, Changelog.Retains g.log g.version units) :
    ∃ units, Changelog.Retains g'.log g'.version units := by
  obtain ⟨units, retains⟩ := retained
  rcases moved.commit_or_same with
    ⟨_, _, committed⟩ | ⟨_, version, log, _⟩
  · exact committed.retained retains
  · exact ⟨units, by rwa [version, log]⟩

omit moved

/-- A later state of a graph.  At the same revision and index generation, it
stands where the earlier state did. -/
structure Later (g g' : EntityGraph N C) : Prop where
  version : g.version ≤ g'.version
  generation : g.indexGeneration ≤ g'.indexGeneration
  standing : g.version = g'.version → g.indexGeneration = g'.indexGeneration → Standing g g'

theorem Later.refl (g : EntityGraph N C) : Later g g := ⟨le_rfl, le_rfl, fun _ _ => .refl g⟩

variable {first second third : EntityGraph N C}

theorem Later.trans (left : Later first second) (right : Later second third) :
    Later first third := by
  refine ⟨left.version.trans right.version, left.generation.trans right.generation, ?_⟩
  intro sameVersion sameGeneration
  have earlier := left.standing
    (le_antisymm left.version (right.version.trans_eq sameVersion.symm))
    (le_antisymm left.generation (right.generation.trans_eq sameGeneration.symm))
  have later := right.standing
    (le_antisymm right.version (sameVersion.symm.trans_le left.version))
    (le_antisymm right.generation (sameGeneration.symm.trans_le left.generation))
  exact earlier.trans later

/-- A commit takes a new revision. -/
theorem Commit.later (committed : Commit g g' changes diffs) : Later g g' := by
  have version := committed.version
  have positive := List.length_pos_iff.mpr committed.complete.1
  refine ⟨by omega, committed.framed.indexGeneration.ge, ?_⟩
  omega

theorem Moved.later (moved : Moved ontology parseFilter g g') : Later g g' := by
  cases moved with
  | stay => exact .refl g
  | grown => exact ⟨le_rfl, le_rfl, fun _ _ => ⟨rfl, rfl, rfl, rfl, rfl, rfl⟩⟩
  | commit changes diffs committed => exact committed.later
  | reindexed index generation exactAfter later fields =>
    exact ⟨le_rfl, later, fun _ same =>
      ⟨rfl, rfl, rfl, rfl, rfl, fields same⟩⟩
  | republished =>
    exact ⟨le_rfl, le_rfl, fun _ _ => ⟨rfl, rfl, rfl, rfl, rfl, rfl⟩⟩
  | queried filterExpr limit =>
    obtain ⟨_, _, same⟩ := readAll_frame ontology parseFilter g filterExpr limit
    rw [same]
    exact ⟨le_rfl, le_rfl, fun _ _ => ⟨rfl, rfl, rfl, rfl, rfl, rfl⟩⟩

/-- A graph is at or after another one, and has its rows at the same revision. -/
structure Since (g g' : EntityGraph N C) : Prop where
  version : g.version ≤ g'.version
  rows : g.version = g'.version → g'.rows = g.rows

theorem Since.refl (g : EntityGraph N C) : Since g g := ⟨le_rfl, fun _ => rfl⟩

theorem Since.trans (left : Since first second) (right : Since second third) :
    Since first third := by
  have versions := left.version.trans right.version
  refine ⟨versions, fun same => ?_⟩
  rw [right.rows (le_antisymm right.version (same.symm.trans_le left.version)),
    left.rows (le_antisymm left.version (right.version.trans_eq same.symm))]

theorem Moved.since (moved : Moved ontology parseFilter g g') : Since g g' := by
  rcases moved.commit_or_same with
    ⟨_, _, committed⟩ | ⟨rows, version, _⟩
  · have version := committed.version
    have positive := List.length_pos_iff.mpr committed.complete.1
    exact ⟨by omega, fun same => by omega⟩
  · exact ⟨version.ge, fun _ => rows⟩

/-- A move does not change the instance of the graph. -/
theorem Moved.incarnation (moved : Moved ontology parseFilter g g') :
    g'.incarnation = g.incarnation := by
  cases moved with
  | commit changes diffs committed => exact committed.framed.incarnation
  | queried filterExpr limit =>
    obtain ⟨_, _, same⟩ := readAll_frame ontology parseFilter g filterExpr limit
    rw [same]
  | _ => rfl

end EntityGraph

namespace EntityGraph

variable {N C : Type}

/-- The standard fields are registered without values. -/
theorem exact_autoIndex : autoIndex.Exact fun _ => none := by
  have cleared : autoIndex.clear = autoIndex := by
    unfold autoIndex
    congr 1
  exact ValueIndex.exact_clear autoIndex

theorem indexed_initial
    (capacity bytes : Nat) (incarnation : BitVec 128) (base : Option (Arc N)) :
    (Session.initial capacity bytes incarnation base : Session N C).graph.Indexed where
  tags := TagBitmapIndex.exact_new
  values := exact_autoIndex
  edges := RefAdjacency.exact_new
  rows := by
    refine ⟨?_, ?_, ?_, ?_, ?_, List.nodup_nil, Nat.zero_le _⟩
    all_goals simp [EntityGraph.rows, Session.initial, withChangelogLimits, withChangelogCapacity]

end EntityGraph

/-! ## Sound sessions -/

namespace Session

open EntityGraph (Moved Later PreparedFrom)

variable {N C : Type} {ontology : Ontology N C} {parseFilter : String → Except String FilterNode}

/-- A plan was prepared for an earlier state of the graph. -/
def PlanValid (g : EntityGraph N C) (plan : PreparedBatch) : Prop :=
  ∃ source operations effects written rows,
    PreparedFrom source operations plan effects written rows ∧ source.Indexed ∧ Later source g

/-- The invariant of a run. -/
structure Sound (s : Session N C) : Prop where
  indexed : s.graph.Indexed
  bounded : s.graph.version ≤ u64Max
  retained : ∃ units, Changelog.Retains s.graph.log s.graph.version units
  plans : ∀ plan ∈ s.plans, PlanValid s.graph plan

variable {g g' : EntityGraph N C} {plan : PreparedBatch}

theorem PlanValid.later (valid : PlanValid g plan) (later : Later g g') : PlanValid g' plan := by
  obtain ⟨source, operations, effects, written, rows, prepared, indexed, earlier⟩ := valid
  exact ⟨source, operations, effects, written, rows, prepared, indexed, earlier.trans later⟩

/-- Publishing a valid plan moves the graph. -/
theorem PlanValid.moved (valid : PlanValid g plan)
    {now : Int} {reserved : Bool} {span : Option CommitSpan}
    (applied : g.applyPrepared now reserved plan = .ok (span, g')) :
    Moved ontology parseFilter g g' := by
  obtain ⟨_, _, _, written, _, prepared, indexed, later⟩ := valid
  have current := EntityGraph.current_of_applyPrepared applied
  rw [prepared.state, prepared.indexGeneration] at current
  have standing := later.standing (congrArg GraphState.revision current.1).symm current.2.symm
  by_cases nonempty : written = []
  · subst nonempty
    obtain rfl := EntityGraph.applyPrepared_unchanged prepared standing applied
    exact .grown
  · have published := EntityGraph.applyPrepared_published prepared standing applied
    exact .commit _ _ (published.commit prepared standing indexed nonempty)

variable {s : Session N C}

theorem Sound.moved {s' : Session N C} (sound : s.Sound)
    (moved : Moved ontology parseFilter s.graph s'.graph)
    (plans : ∀ plan ∈ s'.plans, plan ∈ s.plans ∨ PlanValid s'.graph plan) :
    s'.Sound where
  indexed := moved.indexed sound.indexed
  bounded := moved.bounded sound.bounded
  retained := moved.retained sound.retained
  plans := by
    intro plan member
    rcases plans plan member with earlier | valid
    · exact (sound.plans plan earlier).later moved.later
    · exact valid

/-- Every command moves the graph of a sound session. -/
theorem Sound.step_moved (sound : s.Sound) (command : Command N C) :
    Moved ontology parseFilter s.graph (s.step ontology parseFilter command).graph := by
  have performed : Moved ontology parseFilter s.graph
      (s.graph.perform ontology parseFilter command) :=
    EntityGraph.moved_perform sound.indexed command
  cases command with
  | prepareBatch =>
    simp only [Session.step]
    split <;> exact .stay
  | applyPrepared =>
    simp only [Session.step]
    split
    · rename_i plan found
      split
      · rename_i applied
        exact (sound.plans plan (List.mem_of_getElem? found)).moved applied
      · exact .stay
    · exact .stay
  | _ => exact performed

/-- A command adds at most a plan for the current graph. -/
theorem Sound.step_plans (sound : s.Sound) (command : Command N C) :
    ∀ plan ∈ (s.step ontology parseFilter command).plans, plan ∈ s.plans ∨
      PlanValid (s.step ontology parseFilter command).graph plan := by
  cases command with
  | prepareBatch allocation expectedRevision operations =>
    simp only [Session.step]
    split
    · rename_i plan prepared
      intro other member
      rcases List.mem_append.mp member with earlier | new
      · exact .inl earlier
      · obtain rfl := List.mem_singleton.mp new
        obtain ⟨effects, written, rows, source⟩ :=
          EntityGraph.prepareBatch_preparedFrom sound.bounded prepared
        exact .inr ⟨s.graph, operations, effects, written, rows, source, sound.indexed, .refl _⟩
    · exact fun _ => .inl
  | applyPrepared =>
    simp only [Session.step]
    split
    · split <;> exact fun _ => .inl
    · exact fun _ => .inl
  | _ => exact fun _ => .inl

/-- A command keeps a session sound. -/
theorem Sound.step (sound : s.Sound) (command : Command N C) :
    (s.step ontology parseFilter command).Sound :=
  sound.moved (sound.step_moved command) (sound.step_plans command)

/-- A run keeps a session sound. -/
theorem Sound.run (sound : s.Sound) (commands : List (Command N C)) :
    (s.run ontology parseFilter commands).Sound := by
  induction commands generalizing s with
  | nil => exact sound
  | cons command commands ih =>
    exact ih (sound.step command)

theorem sound_initial (capacity bytes : Nat) (incarnation : BitVec 128) (base : Option (Arc N)) :
    (initial capacity bytes incarnation base : Session N C).Sound where
  indexed := EntityGraph.indexed_initial capacity bytes incarnation base
  bounded := Nat.zero_le _
  retained := ⟨[], ⟨⟨rfl, trivial, rfl, rfl⟩, Nat.zero_le _, Nat.zero_le _⟩⟩
  plans := by
    intro plan member
    cases member

/-- What holds of a new graph and is kept by every move of a sound session holds
of every reachable graph. -/
theorem Reachable.keeps {Invariant : EntityGraph N C → Prop}
    (initially : ∀ capacity bytes incarnation base,
      Invariant (initial capacity bytes incarnation base : Session N C).graph)
    (keeps : ∀ (s : Session N C) (g' : EntityGraph N C), s.Sound →
      Moved ontology parseFilter s.graph g' → Invariant s.graph → Invariant g')
    (reachable : Reachable ontology parseFilter s) : Invariant s.graph := by
  obtain ⟨capacity, bytes, incarnation, base, commands, rfl⟩ := reachable
  have sound : (initial capacity bytes incarnation base : Session N C).Sound :=
    sound_initial capacity bytes incarnation base
  have holds := initially capacity bytes incarnation base
  revert sound holds
  generalize (initial capacity bytes incarnation base : Session N C) = s
  intro sound holds
  induction commands generalizing s with
  | nil => exact holds
  | cons command commands ih =>
    exact ih _ (sound.step command) (keeps s _ sound (sound.step_moved command) holds)

theorem Reachable.sound (reachable : Reachable ontology parseFilter s) : s.Sound := by
  obtain ⟨capacity, bytes, incarnation, base, commands, rfl⟩ := reachable
  exact (sound_initial capacity bytes incarnation base).run commands

variable (ontology parseFilter) in
theorem Sound.later_run {s : Session N C} (sound : s.Sound) (commands : List (Command N C)) :
    Later s.graph (s.run ontology parseFilter commands).graph := by
  induction commands generalizing s with
  | nil => exact .refl s.graph
  | cons command commands ih =>
    exact (sound.step_moved command).later.trans (ih (sound.step command))

/-- A plan that is published after a run finds the rows it was prepared for and
performs its operations on them.  If it writes, no plan of the same revision is
published in any continuation. -/
theorem plan_serializable (capacity bytes : Nat) (incarnation : BitVec 128)
    (base : Option (Arc N)) (commands between more : List (Command N C)) :
    let s := run ontology parseFilter (initial capacity bytes incarnation base) commands
    let later := s.run ontology parseFilter between
    s.graph.version ≤ later.graph.version ∧ ∀ allocation revision operations limits plan,
      s.graph.prepareBatch allocation revision operations limits = .ok plan →
      ∀ now reserved span g', later.graph.applyPrepared now reserved plan = .ok (span, g') →
        later.graph.rows = s.graph.rows ∧
        (∃ effects, s.graph.rows.Operated operations effects g'.rows) ∧
        (g'.version ≠ s.graph.version → ∀ other now reserved,
          other.state.revision = plan.state.revision →
          (run ontology parseFilter ⟨g', later.plans⟩ more).graph.applyPrepared now reserved
            other = .error .conflict) := by
  intro s later
  have sound : s.Sound := (sound_initial capacity bytes incarnation base).run commands
  have grows := sound.later_run ontology parseFilter between
  refine ⟨grows.version, ?_⟩
  intro allocation revision operations limits plan prepared now reserved span g' applied
  obtain ⟨effects, written, rows, source⟩ :=
    EntityGraph.prepareBatch_preparedFrom sound.bounded prepared
  have current := EntityGraph.current_of_applyPrepared applied
  rw [source.state, source.indexGeneration] at current
  have standing := grows.standing (congrArg GraphState.revision current.1).symm current.2.symm
  have published := EntityGraph.applyPrepared_published source standing applied
  refine ⟨standing.rows, ⟨effects, published.rows.symm ▸ source.operated⟩, ?_⟩
  intro wrote other now reserved same
  have valid : PlanValid later.graph plan :=
    ⟨s.graph, operations, effects, written, rows, source, sound.indexed, grows⟩
  have moved : Moved ontology parseFilter later.graph g' := valid.moved applied
  have after : Sound ⟨g', later.plans⟩ := (sound.run between).moved moved fun _ => .inl
  have last := (after.later_run ontology parseFilter more).version
  unfold EntityGraph.applyPrepared
  refine if_pos (.inl fun stands => ?_)
  have reached := congrArg GraphState.revision stands
  rw [same, source.state] at reached
  exact wrote (le_antisymm (last.trans_eq reached) (grows.version.trans moved.later.version))

end Session
end Graph
end Haystack
