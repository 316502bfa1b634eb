import Haystack.Xeto.Activation

/-!
# What an activation has checked

A validation makes progress over the records of one graph state.  Entity writes
take a new revision, so a graph that still has that revision has those records,
and what was checked in the chunks holds of the records at the publication.
-/

namespace Haystack
namespace Xeto

open Std (ExtTreeMap)
open Haystack.Collections
open Haystack.Filter (FilterNode Ontology Arc)
open Haystack.Graph (EntityGraph GraphState Session)
open Haystack.Graph.EntityGraph (Moved Since)

/-! ## Associations -/

/-- A catalog among some associates a record with a declaration: by a structural
spec in one of its libraries, or by a marker. -/
def Associated (catalogs : List Catalog) (row : HDict) (qname : String) : Prop :=
  (∃ spec library catalog, row.get "spec" = some (.ref spec) ∧ spec.val = qname ∧
    libraryOf qname = some library ∧ catalog ∈ catalogs ∧
    library ∈ catalog.libraries) ∨
  ∃ marker catalog, catalog ∈ catalogs ∧
    catalog.markerBindings[marker]? = some qname ∧ row.has marker = true

theorem mem_nameSet {names : List String} {name : String} :
    name ∈ nameSet names ↔ name ∈ names := by
  have folded : ∀ set : ExtTreeMap String Unit,
      name ∈ names.foldl (fun set name => set.insert name ()) set ↔
        name ∈ set ∨ name ∈ names := by
    induction names with
    | nil => simp
    | cons first rest ih =>
      intro set
      rw [List.foldl_cons, ih, ExtTreeMap.mem_insert, List.mem_cons, compare_eq_iff_eq]
      constructor
      · rintro ((rfl | earlier) | later)
        · exact .inr (.inl rfl)
        · exact .inl earlier
        · exact .inr (.inr later)
      · rintro (earlier | rfl | later)
        · exact .inl (.inr earlier)
        · exact .inl (.inl rfl)
        · exact .inr later
  unfold nameSet
  rw [List.mem_map]
  constructor
  · rintro ⟨⟨_, _⟩, member, rfl⟩
    have found := ExtTreeMap.mem_toList_iff_getElem?_eq_some.mp member
    have present := (folded ∅).mp (ExtTreeMap.mem_iff_isSome_getElem?.mpr
      (Option.isSome_of_eq_some found))
    exact present.resolve_left ExtTreeMap.not_mem_empty
  · intro member
    have present := (folded ∅).mpr (.inr member)
    obtain ⟨_, found⟩ := Option.isSome_iff_exists.mp
      (ExtTreeMap.mem_iff_isSome_getElem?.mp present)
    exact ⟨(name, _), ExtTreeMap.mem_toList_iff_getElem?_eq_some.mpr found, rfl⟩

variable {qname : String} {row : HDict} {catalogs : List Catalog}

theorem mem_associatedSpec :
    qname ∈ associatedSpec (catalogs.flatMap fun catalog => catalog.libraries) row ↔
      ∃ spec library catalog, row.get "spec" = some (.ref spec) ∧
        spec.val = qname ∧ libraryOf qname = some library ∧
        catalog ∈ catalogs ∧ library ∈ catalog.libraries := by
  have selects : ∀ name : Option String,
      (name.any (catalogs.flatMap fun catalog => catalog.libraries).contains =
        true) ↔ ∃ library catalog, name = some library ∧ catalog ∈ catalogs ∧
          library ∈ catalog.libraries := by
    intro name
    cases name with
    | none => simp
    | some library =>
      rw [Option.any_some, List.contains_iff_mem, List.mem_flatMap]
      constructor
      · rintro ⟨catalog, among, declared⟩
        exact ⟨library, catalog, rfl, among, declared⟩
      · rintro ⟨_, catalog, ⟨⟩, among, declared⟩
        exact ⟨catalog, among, declared⟩
  unfold associatedSpec
  split
  next spec found =>
    simp only [found, Option.some.injEq, Kind.ref.injEq]
    split
    next selected =>
      obtain ⟨library, catalog, named, declared⟩ := (selects _).mp selected
      rw [List.mem_singleton]
      constructor
      · rintro rfl
        exact ⟨spec, library, catalog, rfl, rfl, named, declared⟩
      · rintro ⟨_, _, _, rfl, rfl, _⟩
        rfl
    next unselected =>
      simp only [List.not_mem_nil, false_iff]
      rintro ⟨_, library, catalog, rfl, rfl, named, declared⟩
      exact unselected ((selects _).mpr ⟨library, catalog, named, declared⟩)
  next other =>
    simp only [List.not_mem_nil, false_iff]
    rintro ⟨spec, _, _, found, _⟩
    exact other spec found

theorem mem_associations : qname ∈ associations catalogs row ↔ Associated catalogs row qname := by
  unfold associations Associated
  rw [mem_nameSet, List.mem_append, mem_associatedSpec]
  refine or_congr_right ?_
  simp only [associatedMarkers, List.mem_map, List.mem_filter, List.mem_flatMap,
    Prod.exists, exists_eq_right, ExtTreeMap.mem_toList_iff_getElem?_eq_some]
  constructor
  · rintro ⟨marker, ⟨catalog, among, bound⟩, present⟩
    exact ⟨marker, catalog, among, bound, present⟩
  · rintro ⟨marker, catalog, among, bound, present⟩
    exact ⟨marker, ⟨catalog, among, bound⟩, present⟩

/-! ## Chunks -/

/-- A record fits the declarations it is associated with, among the given
records. -/
def Admits (candidate previous : Catalog) (entities : ExtTreeMap String HDict)
    (row : HDict) : Prop :=
  ∀ qname, Associated [candidate, previous] row qname →
    (candidate.declaration qname).isSome = true ∧
      candidate.fitEntity (fun reference => entities[reference.val]?) qname row = .ok ()

variable {candidate : Catalog} {record : HRef → Option HDict}

theorem validateAssociation_eq_ok {id : String} :
    validateAssociation candidate record id row qname = .ok () ↔
      (candidate.declaration qname).isSome = true ∧
        candidate.fitEntity record qname row = .ok () := by
  unfold validateAssociation
  cases declared : candidate.declaration qname with
  | none => simp
  | some =>
    cases fitted : candidate.fitEntity record qname row with
    | error cause | ok => simp

variable {previous : Catalog} {entities : ExtTreeMap String HDict}

theorem validateRecord_eq_ok {entity : String × HDict} : validateRecord candidate previous
        (fun reference => entities[reference.val]?) entity = .ok () ↔
      Admits candidate previous entities entity.2 := by
  unfold validateRecord Admits
  rw [forM_eq_ok]
  simp [mem_associations, validateAssociation_eq_ok]

variable {limit : Nat}

/-- A chunk that succeeds has checked its records, and ends at the last of them
if there are more. -/
theorem validateRecords_eq_ok {last result : Option String} {rest : List (String × HDict)}
    (validated : validateRecords candidate previous record limit last rest = .ok result) :
    (∀ entity ∈ rest.take limit, validateRecord candidate previous record entity = .ok ()) ∧
    result = if rest.length ≤ limit then none
      else ((rest.take limit).getLast?.map Prod.fst).or last := by
  induction rest generalizing limit last with
  | nil =>
    cases limit <;>
    · obtain rfl := Except.ok.inj validated
      simp
  | cons entity rest ih =>
    cases limit with
    | zero =>
      obtain rfl := Except.ok.inj validated
      simp
    | succ limit =>
      obtain ⟨_, first, others⟩ := except_bind_eq_ok.mp validated
      obtain ⟨passed, ended⟩ := ih others
      refine ⟨?_, ?_⟩
      · rw [List.take_succ_cons, List.forall_mem_cons]
        exact ⟨first, passed⟩
      · rw [ended, List.take_succ_cons, List.length_cons, List.getLast?_cons]
        by_cases inside : rest.length ≤ limit
        · simp
        · have beyond : ¬ rest.length + 1 ≤ limit + 1 := by omega
          rw [if_neg inside, if_neg beyond]
          cases (rest.take limit).getLast? <;> rfl

/-! ## Progress -/

/-- The visited ids are those before the position of a validation, and their
records fit. -/
structure Progress (candidate previous : Catalog) (entities : ExtTreeMap String HDict)
    (after : Option String)
    (visited : List String) : Prop where
  split : visited ++ (entriesAfter after entities.toList).map Prod.fst =
    entities.toList.map Prod.fst
  admitted : ∀ id row, entities[id]? = some row → id ∈ visited →
    Admits candidate previous entities row

theorem Progress.start (candidate previous : Catalog) (entities : ExtTreeMap String HDict) :
    Progress candidate previous entities none [] where
  split := by simp
  admitted := by simp

variable {after : Option String}

/-- The records of a chunk fit. -/
theorem Progress.admits {visited : List String}
    (progress : Progress candidate previous entities after visited)
    (passed : ∀ entity ∈ (entriesAfter after entities.toList).take limit,
      validateRecord candidate previous (fun reference => entities[reference.val]?)
        entity = .ok ()) :
    ∀ id row, entities[id]? = some row →
      id ∈ visited ++ ((entriesAfter after entities.toList).take limit).map Prod.fst →
      Admits candidate previous entities row := by
  intro id row found member
  rcases List.mem_append.mp member with earlier | chunk
  · exact progress.admitted id row found earlier
  · obtain ⟨⟨_, _⟩, among, rfl⟩ := List.mem_map.mp chunk
    have entry := (List.mem_filter.mp (List.mem_of_mem_take among)).1
    rw [ExtTreeMap.mem_toList_iff_getElem?_eq_some.mp entry] at found
    obtain rfl := Option.some.inj found
    exact validateRecord_eq_ok.mp (passed _ among)

/-- A chunk that leaves records moves the position behind its own. -/
theorem Progress.continue {visited : List String}
    (progress : Progress candidate previous entities after visited) {last : String}
    (validated : validateRecords candidate previous
      (fun reference => entities[reference.val]?) limit none
      (entriesAfter after entities.toList) = .ok (some last)) :
    Progress candidate previous entities (some last)
      (visited ++ ((entriesAfter after entities.toList).take limit).map Prod.fst) := by
  obtain ⟨passed, ended⟩ := validateRecords_eq_ok validated
  refine ⟨?_, progress.admits passed⟩
  split at ended
  next => cases ended
  next =>
    rw [Option.or_none] at ended
    obtain ⟨entity, final, rfl⟩ := Option.map_eq_some_iff.mp ended.symm
    obtain ⟨front, chunk⟩ := List.getLast?_eq_some_iff.mp final
    have rest : entriesAfter after entities.toList =
        front ++ entity :: (entriesAfter after entities.toList).drop limit := by
      conv_lhs => rw [← List.take_append_drop limit (entriesAfter after _)]
      rw [chunk, List.append_assoc]
      rfl
    rw [entriesAfter_eq_of_split (ordered_toList entities) rest, List.append_assoc,
      ← List.map_append, List.take_append_drop]
    exact progress.split

/-- The last chunk completes the validation. -/
theorem Progress.complete {visited : List String}
    (progress : Progress candidate previous entities after visited) (positive : 0 < limit)
    (validated : validateRecords candidate previous
      (fun reference => entities[reference.val]?) limit none
      (entriesAfter after entities.toList) = .ok none) :
    visited ++ ((entriesAfter after entities.toList).take limit).map Prod.fst =
        entities.toList.map Prod.fst ∧
      ∀ (id : String) row, entities[id]? = some row → Admits candidate previous entities row := by
  obtain ⟨passed, ended⟩ := validateRecords_eq_ok validated
  have inside : (entriesAfter after entities.toList).length ≤ limit := by
    by_contra beyond
    rw [if_neg beyond, Option.or_none, eq_comm, Option.map_eq_none_iff,
      List.getLast?_eq_none_iff] at ended
    have short := congrArg List.length ended
    rw [List.length_take, List.length_nil] at short
    omega
  have all : visited ++ ((entriesAfter after entities.toList).take limit).map Prod.fst =
        entities.toList.map Prod.fst := by
    rw [List.take_of_length_le inside]
    exact progress.split
  refine ⟨all, fun id row found => progress.admits passed id row found ?_⟩
  rw [all]
  exact List.mem_map.mpr ⟨(id, row), ExtTreeMap.mem_toList_iff_getElem?_eq_some.mpr found, rfl⟩

/-! ## Operations -/

section

variable {N C E : Type} {ontology : Ontology N C}
variable {parseFilter : String → Except String FilterNode} {activator : Activator N C}

/-- What holds of an operation while the graph is as given.  The records it has
checked are those of an earlier graph of the same revision. -/
def Stage.Sound (activator : Activator N C) (g : EntityGraph N C) (expected : Arc C)
    (maxRevalidations : Nat)
    (visited : List String) : Stage N C E → Prop
  | .opening _ candidate restarts =>
    candidate.ptr ≠ expected.ptr ∧ restarts ≤ maxRevalidations
  | .validating _ candidate restarts observed after =>
    candidate.ptr ≠ expected.ptr ∧ restarts ≤ maxRevalidations ∧
    match observed with
    | none => after = none ∧ visited = []
    | some observed => ∃ earlier : EntityGraph N C, Since earlier g ∧
        earlier.version = observed.revision ∧
        Progress (activator.strict candidate.val)
          (activator.strict expected.val) earlier.entities after visited
  | .publishing _ candidate restarts validated =>
    candidate.ptr ≠ expected.ptr ∧ restarts ≤ maxRevalidations ∧
    ∃ earlier : EntityGraph N C, Since earlier g ∧ earlier.version = validated.revision ∧
      ∀ (id : String) row, earlier.entities[id]? = some row →
        Admits (activator.strict candidate.val)
          (activator.strict expected.val) earlier.entities row
  | _ => True

def Operation.Sound (activator : Activator N C) (g : EntityGraph N C)
    (operation : Operation N C E) : Prop :=
  operation.stage.Sound activator g operation.expected operation.maxRevalidations
    operation.visited

/-- The operation has not returned a candidate. -/
def Operation.Unfinished (operation : Operation N C E) : Prop :=
  ∀ result, operation.stage ≠ .returned (.ok result)

/-- A step of an operation keeps what holds of it, and returns no candidate. -/
structure Operation.Keeps (activator : Activator N C) (g : EntityGraph N C)
    (operation after : Operation N C E) : Prop where
  sound : after.Sound activator g
  unfinished : operation.Unfinished → after.Unfinished

variable {candidate expected : Arc C} {origin : GraphState} {g : EntityGraph N C}
variable {operation : Operation N C E}

theorem Operation.Sound.keeps (sound : operation.Sound activator g) :
    operation.Keeps activator g operation :=
  ⟨sound, id⟩

theorem Operation.Keeps.fail (operation : Operation N C E) (failure : ActivationError E) :
    operation.Keeps activator g (operation.fail failure) :=
  ⟨trivial, fun _ => nofun⟩

theorem Operation.Keeps.restart
    {restarts : Nat} (fresh : candidate.ptr ≠ operation.expected.ptr) :
    operation.Keeps activator g (operation.restart origin candidate restarts) := by
  unfold Operation.restart
  split
  next => exact .fail operation .conflict
  next few => exact ⟨⟨fresh, Nat.le_of_not_lt few⟩, fun _ => nofun⟩

namespace Operation.Sound

variable (sound : operation.Sound activator g)

include sound

/-- Nothing the operation relies on is lost when the graph moves. -/
theorem later {g' : EntityGraph N C} (since : Since g g') : operation.Sound activator g' := by
  unfold Operation.Sound at *
  cases stage : operation.stage with
  | validating origin candidate restarts observed =>
    rw [stage] at sound
    obtain ⟨fresh, bounded, seen⟩ := sound
    refine ⟨fresh, bounded, ?_⟩
    cases observed with
    | none => exact seen
    | some =>
      obtain ⟨earlier, before, version, progress⟩ := seen
      exact ⟨earlier, before.trans since, version, progress⟩
  | publishing =>
    rw [stage] at sound
    obtain ⟨fresh, bounded, earlier, before, version, admitted⟩ := sound
    exact ⟨fresh, bounded, earlier, before.trans since, version, admitted⟩
  | _ =>
    rw [stage] at sound
    exact sound

theorem capture : operation.Keeps activator g (operation.capture g) := by
  unfold Operation.capture
  split
  next =>
    split
    next => exact .fail operation _
    next => exact ⟨trivial, fun _ => nofun⟩
  next => exact sound.keeps

theorem prepare (ptr nsPtr : Nat) (admission : Option (ActivationError E)) :
    operation.Keeps activator g (operation.prepare activator ptr nsPtr admission) := by
  unfold Operation.prepare
  split
  next =>
    split
    next => exact sound.keeps
    next fresh =>
      split
      next => exact .fail operation _
      next => exact ⟨⟨fresh, Nat.zero_le _⟩, fun _ => nofun⟩
  next => exact sound.keeps

theorem work : operation.Keeps activator g operation.work := by
  unfold Operation.work
  split
  next origin candidate restarts stage =>
    unfold Operation.Sound at sound
    rw [stage] at sound
    exact ⟨⟨sound.1, sound.2, rfl, rfl⟩, fun _ => nofun⟩
  next => exact sound.keeps

theorem stop (cause : E) : operation.Keeps activator g (operation.stop cause) := by
  unfold Operation.stop
  split
  next => exact sound.keeps
  next => exact .fail operation _

/-- The chunks so far are progress over the records of the current graph, if it
is still the observed one. -/
theorem progress {origin : GraphState} {candidate : Arc C} {restarts : Nat}
    {observed : Option GraphState} {after : Option String}
    (stage : operation.stage = .validating origin candidate restarts observed after)
    (same : ¬ (observed.any fun observed => observed ≠ g.state) = true) :
    Progress (activator.strict candidate.val)
      (activator.strict operation.expected.val) g.entities after
      operation.visited := by
  unfold Operation.Sound at sound
  rw [stage] at sound
  obtain ⟨_, _, seen⟩ := sound
  cases observed with
  | none =>
    obtain ⟨rfl, visited⟩ := seen
    rw [visited]
    exact .start _ _ _
  | some observed =>
    obtain ⟨earlier, since, version, progress⟩ := seen
    have current : observed = g.state := by simpa using same
    have rows := since.rows (by rw [version, current]; rfl)
    have entities : g.entities = earlier.entities := congrArg Graph.Rows.entities rows
    rw [entities]
    exact progress

omit sound

theorem validate {restarts : Nat} (fresh : candidate.ptr ≠ operation.expected.ptr)
    (bounded : restarts ≤ operation.maxRevalidations)
    (progress : Progress (activator.strict candidate.val)
      (activator.strict operation.expected.val) g.entities after
      operation.visited)
    (origin : GraphState) :
    operation.Keeps activator g
      (operation.validate activator g origin candidate restarts after) := by
  have limit : max (max operation.chunkRecords 1) 1 = max operation.chunkRecords 1 := by omega
  unfold Operation.validate validateChunk
  rw [limit]
  split
  next => exact .fail operation _
  next last validated =>
    exact ⟨⟨fresh, bounded, g, .refl g, rfl, progress.continue validated⟩, fun _ => nofun⟩
  next validated =>
    have positive : 0 < max operation.chunkRecords 1 := by omega
    exact ⟨⟨fresh, bounded, g, .refl g, rfl, (progress.complete positive validated).2⟩,
      fun _ => nofun⟩

theorem chunk (sound : operation.Sound activator g) (stopped : Option E) :
    operation.Keeps activator g (operation.chunk activator g stopped) := by
  unfold Operation.chunk
  split
  next origin candidate restarts observed after stage =>
    have basis := sound
    unfold Operation.Sound at basis
    rw [stage] at basis
    obtain ⟨fresh, bounded, _⟩ := basis
    split
    next => exact .fail operation _
    next =>
      split
      next => exact .restart fresh
      next same =>
        split
        next => exact .fail operation _
        next =>
          exact validate fresh bounded (sound.progress stage same) origin
  next => exact sound.keeps

end Operation.Sound

/-! ## Publication -/

/-- What a publication that succeeds does and has checked. -/
structure Replaced (activator : Activator N C) (g g' : EntityGraph N C)
    (expected candidate : Arc C) : Prop where
  current : ∃ current, g.activated = some current ∧ current.ptrEq expected = true
  admitted : ∀ (id : String) row, g.get id = some row →
    Admits (activator.strict candidate.val) (activator.strict expected.val) g.entities row
  activated : g'.activated = some candidate
  generation : g'.catalogGeneration = g.catalogGeneration + 1
  entities : g'.entities = g.entities

theorem checkCurrent_eq_ok
    (checked : (checkCurrent g expected : Except (ActivationError E) Unit) = .ok ()) :
    ∃ current, g.activated = some current ∧ current.ptrEq expected = true := by
  unfold checkCurrent at checked
  split at checked
  next => cases checked
  next current found =>
    split at checked
    next same => exact ⟨current, found, same⟩
    next => cases checked

theorem checkObserved_eq_ok
    (checked : (checkObserved g origin expected : Except (ActivationError E) Unit) = .ok ()) :
    ∃ current, g.activated = some current ∧ current.ptrEq expected = true := by
  unfold checkObserved at checked
  split at checked
  next => exact checkCurrent_eq_ok checked
  next => cases checked

variable {g' : EntityGraph N C}

/-- A replacement took the next generation. -/
theorem compareActivateCatalog_inv {validated : GraphState} {generation : Nat}
    (replaced : g.compareActivateCatalog ontology validated expected candidate =
      .ok (generation, g')) :
    g'.activated = some candidate ∧ g'.catalogGeneration = g.catalogGeneration + 1 ∧
      g'.entities = g.entities := by
  unfold EntityGraph.compareActivateCatalog at replaced
  split at replaced
  next => cases replaced
  next =>
    unfold EntityGraph.publishCatalog at replaced
    split at replaced
    next => cases replaced
    next checked =>
      obtain ⟨rfl, _⟩ := checkedAdd_eq_some_iff.mp checked
      cases replaced
      exact ⟨rfl, rfl, rfl⟩

/-- What a publication does: it replaces the observation and returns the
candidate, or it leaves the graph alone and returns no candidate. -/
inductive Publishes (ontology : Ontology N C) (parseFilter : String → Except String FilterNode)
    (activator : Activator N C) (g : EntityGraph N C)
    (operation : Operation N C E) :
    Option E → EntityGraph N C × Operation N C E → Prop
  | kept (stopped : Option E) (after : Operation N C E) (keeps : operation.Keeps activator g after) :
      Publishes ontology parseFilter activator g operation stopped (g, after)
  | replaced (g' : EntityGraph N C) (candidate : Arc C) (moved : Moved ontology parseFilter g g')
      (replaced : Replaced activator g g' operation.expected candidate) :
      Publishes ontology parseFilter activator g operation none
        (g', { operation with stage := .returned (.ok (candidate, g'.state)) })

theorem Operation.Sound.publish (sound : operation.Sound activator g) (stopped : Option E) :
    Publishes ontology parseFilter activator g operation stopped
      (operation.publish ontology g stopped) := by
  unfold Operation.publish
  split
  next origin candidate restarts validated stage =>
    have basis := sound
    unfold Operation.Sound at basis
    rw [stage] at basis
    obtain ⟨fresh, _, earlier, since, version, admitted⟩ := basis
    split
    next => exact .kept _ _ (.fail _ _)
    next checked =>
      split
      next => exact .kept _ _ (.restart fresh)
      next same =>
        have same : g.state = validated := by simpa using same
        have entities : g.entities = earlier.entities :=
          congrArg Graph.Rows.entities (since.rows (by rw [version, ← same]; rfl))
        split
        next => exact .kept _ _ (.fail _ _)
        next =>
          unfold Operation.replace
          split
          next => exact .kept _ _ (.fail _ _)
          next g' published =>
            obtain ⟨activated, generation, unchanged⟩ := compareActivateCatalog_inv published
            refine .replaced g' candidate (EntityGraph.moved_compareActivateCatalog published)
              ⟨checkObserved_eq_ok checked, fun id row found => ?_, activated,
                generation, unchanged⟩
            rw [entities]
            refine admitted id row ?_
            rw [← entities]
            exact found
  next => exact .kept _ _ sound.keeps

/-! ## The system -/

structure State.Sound (activator : Activator N C) (s : State N C E) : Prop where
  session : s.session.Sound
  operations : ∀ operation ∈ s.operations, operation.Sound activator s.session.graph

namespace State.Sound

variable {s : State N C E}

theorem initial (session : Session N C) (sound : session.Sound) :
    (State.initial session : State N C E).Sound activator :=
  ⟨sound, nofun⟩

theorem update (sound : s.Sound activator) (operation : Nat)
    {change : Operation N C E → Operation N C E}
    (keeps : ∀ before : Operation N C E, before.Sound activator s.session.graph →
      before.Keeps activator s.session.graph (change before)) :
    (s.update operation change).Sound activator := by
  unfold State.update
  split
  next before found =>
    refine ⟨sound.session, fun after member => ?_⟩
    rcases List.mem_or_eq_of_mem_set member with earlier | rfl
    · exact sound.operations after earlier
    · exact (keeps before (sound.operations before (List.mem_of_getElem? found))).sound
  next => exact sound

theorem publish (parseFilter : String → Except String FilterNode)
    (sound : s.Sound activator) (operation : Nat) (stopped : Option E) :
    (s.publish ontology operation stopped).Sound activator := by
  unfold State.publish
  split
  next before found =>
    have basis := sound.operations before (List.mem_of_getElem? found)
    have published : Publishes ontology parseFilter activator s.session.graph
        before stopped (before.publish ontology s.session.graph stopped) :=
      basis.publish stopped
    generalize before.publish ontology s.session.graph stopped = result at published
    cases published with
    | kept _ after kept =>
      refine ⟨sound.session, fun other member => ?_⟩
      rcases List.mem_or_eq_of_mem_set member with earlier | rfl
      · exact sound.operations other earlier
      · exact kept.sound
    | replaced g' candidate moved =>
      have session : Session.Sound { s.session with graph := g' } :=
        sound.session.moved moved fun plan member => .inl member
      refine ⟨session, fun other member => ?_⟩
      rcases List.mem_or_eq_of_mem_set member with earlier | rfl
      · exact (sound.operations other earlier).later moved.since
      · trivial
  next => exact sound

theorem step (sound : s.Sound activator) (event : Event N C E) :
    (s.step ontology parseFilter activator event).Sound activator := by
  cases event with
  | write command =>
    refine ⟨sound.session.step command, fun operation member => ?_⟩
    exact (sound.operations operation member).later (sound.session.step_moved command).since
  | activate =>
    refine ⟨sound.session, fun operation member => ?_⟩
    rcases List.mem_append.mp member with earlier | new
    · exact sound.operations operation earlier
    · rw [List.mem_singleton.mp new]
      trivial
  | capture operation => exact sound.update operation fun _ basis => basis.capture
  | prepare operation ptr nsPtr admission =>
    exact sound.update operation fun _ basis =>
      basis.prepare ptr nsPtr admission
  | work operation => exact sound.update operation fun _ basis => basis.work
  | chunk operation stopped =>
    exact sound.update operation fun _ basis => basis.chunk stopped
  | publish operation stopped => exact sound.publish parseFilter operation stopped
  | stop operation cause =>
    exact sound.update operation fun _ basis => basis.stop cause

theorem run (sound : s.Sound activator) (events : List (Event N C E)) :
    (s.run ontology parseFilter activator events).Sound activator := by
  induction events generalizing s with
  | nil => exact sound
  | cons event events ih =>
    exact ih (sound.step event)

end State.Sound

/-! ## Returns -/

variable {s : State N C E} {index : Nat}

/-- Other operations do not change, and the one that is changed is replaced. -/
theorem State.getElem?_update {operation : Operation N C E}
    (found : s.operations[index]? = some operation) (other : Nat)
    (change : Operation N C E → Operation N C E) :
    (s.update other change).operations[index]? =
      some (if other = index then change operation else operation) := by
  unfold State.update
  have inside := (List.getElem?_eq_some_iff.mp found).1
  by_cases same : other = index
  · subst same
    rw [found, if_pos rfl]
    exact List.getElem?_set_self inside
  · rw [if_neg same]
    split
    next => exact (List.getElem?_set_ne same).trans found
    next => exact found

theorem State.update_session (s : State N C E) (operation : Nat)
    (change : Operation N C E → Operation N C E) :
    (s.update operation change).session = s.session := by
  unfold State.update
  split <;> rfl

variable {stopped : Option E}

theorem State.publish_eq {after : Operation N C E} (found : s.operations[index]? = some operation)
    (published : operation.publish ontology s.session.graph stopped = (g', after)) :
    s.publish ontology index stopped = { s with
        session := { s.session with graph := g' }
        operations := s.operations.set index after } := by
  simp [State.publish, found, published]

variable {event : Event N C E}

/-- An operation returns its candidate in the step that replaces the
observation. -/
theorem State.Sound.returned (sound : s.Sound activator) {after : Operation N C E} {result : Arc C × GraphState}
    (found : s.operations[index]? = some operation) (unfinished : operation.Unfinished)
    (changed : (s.step ontology parseFilter activator event).operations[index]? = some after)
    (returned : after.stage = .returned (.ok result)) :
    event = .publish index none ∧
      let g' := (s.step ontology parseFilter activator event).session.graph
      result.2 = g'.state ∧
        Replaced activator s.session.graph g' operation.expected result.1 := by
  have basis := sound.operations operation (List.mem_of_getElem? found)
  -- A change that never returns a candidate contradicts the return.
  have excluded : ∀ (other : Nat) (change : Operation N C E → Operation N C E),
      operation.Keeps activator s.session.graph (change operation) →
      (s.update other change).operations[index]? = some after → False := by
    intro other change keeps changed
    rw [getElem?_update found] at changed
    obtain rfl := Option.some.inj changed
    split at returned
    next => exact keeps.unfinished unfinished result returned
    next => exact unfinished result returned
  cases event with
  | write =>
    have same := found.symm.trans changed
    obtain rfl := Option.some.inj same
    exact absurd returned (unfinished result)
  | activate =>
    have same : s.operations[index]? = some after := by
      have inside := (List.getElem?_eq_some_iff.mp found).1
      rw [← changed]
      exact (List.getElem?_append_left inside).symm
    rw [found] at same
    obtain rfl := Option.some.inj same
    exact absurd returned (unfinished result)
  | capture other => exact (excluded other _ basis.capture changed).elim
  | prepare other ptr nsPtr admission =>
    exact (excluded other _ (basis.prepare ptr nsPtr admission) changed).elim
  | work other => exact (excluded other _ basis.work changed).elim
  | chunk other stopped =>
    exact (excluded other _ (basis.chunk stopped) changed).elim
  | stop other cause =>
    exact (excluded other _ (basis.stop cause) changed).elim
  | publish other stopped =>
    change (s.publish ontology other stopped).operations[index]? = some after at changed
    change _ ∧ result.2 = (s.publish ontology other stopped).session.graph.state ∧
      Replaced activator _ (s.publish ontology other stopped).session.graph _ _
    cases holder : s.operations[other]? with
    | none =>
      simp only [State.publish, holder] at changed
      obtain rfl := Option.some.inj (found.symm.trans changed)
      exact absurd returned (unfinished result)
    | some before =>
      have publishes : Publishes ontology parseFilter activator s.session.graph before stopped
          (before.publish ontology s.session.graph stopped) :=
        (sound.operations before (List.mem_of_getElem? holder)).publish stopped
      cases outcome : before.publish ontology s.session.graph stopped with
      | mk =>
      rw [outcome] at publishes
      rw [State.publish_eq holder outcome] at changed ⊢
      by_cases same : other = index
      · subst same
        obtain rfl := Option.some.inj (holder.symm.trans found)
        have inside := (List.getElem?_eq_some_iff.mp found).1
        obtain rfl := Option.some.inj ((List.getElem?_set_self inside).symm.trans changed)
        cases publishes with
        | kept _ _ keeps => exact absurd returned (keeps.unfinished unfinished result)
        | replaced _ candidate moved replaced =>
          cases returned
          exact ⟨rfl, rfl, replaced⟩
      · have unchanged := (List.getElem?_set_ne same).symm.trans changed
        obtain rfl := Option.some.inj (found.symm.trans unchanged)
        exact absurd returned (unfinished result)

/-- Without a write, the graph changes only when an operation returns its
candidate. -/
theorem State.Sound.untouched (sound : s.Sound activator)
    (unwritten : ∀ command, event ≠ .write command) :
    (s.step ontology parseFilter activator event).session = s.session ∨
      ∃ (index : Nat) (operation after : Operation N C E) (result : Arc C × GraphState),
        s.operations[index]? = some operation ∧ operation.Unfinished ∧
        (s.step ontology parseFilter activator event).operations[index]? =
          some after ∧ after.stage = .returned (.ok result) := by
  cases event with
  | write command => exact absurd rfl (unwritten command)
  | activate => exact .inl rfl
  | publish other stopped =>
    change (s.publish ontology other stopped).session = s.session ∨
      ∃ (index : Nat) (operation after : Operation N C E) (result : Arc C × GraphState),
        s.operations[index]? = some operation ∧ operation.Unfinished ∧
        (s.publish ontology other stopped).operations[index]? = some after ∧
        after.stage = .returned (.ok result)
    cases holder : s.operations[other]? with
    | none =>
      left
      simp [State.publish, holder]
    | some before =>
      have publishes : Publishes ontology parseFilter activator s.session.graph before stopped
          (before.publish ontology s.session.graph stopped) :=
        (sound.operations before (List.mem_of_getElem? holder)).publish stopped
      cases outcome : before.publish ontology s.session.graph stopped with
      | mk g' =>
      rw [outcome] at publishes
      rw [State.publish_eq holder outcome]
      cases publishes with
      | kept => exact .inl rfl
      | replaced _ candidate moved replaced =>
        have inside := (List.getElem?_eq_some_iff.mp holder).1
        refine .inr ⟨other, before, _, _, holder, fun result finished => ?_,
          List.getElem?_set_self inside, rfl⟩
        -- A finished operation publishes nothing.
        have kept : before.publish ontology s.session.graph none = (s.session.graph, before) := by
          simp [Operation.publish, finished]
        have same : s.session.graph = g' := congrArg Prod.fst (kept.symm.trans outcome)
        have generation := replaced.generation
        rw [← same] at generation
        simp at generation
  | _ => exact .inl (State.update_session _ _ _)

/-- The chunks of an attempt visit the ids of the validated state in order. -/
theorem Operation.Sound.visited {origin' validated : GraphState} {candidate' : Arc C}
    {restarts restarts' : Nat} {observed : Option GraphState} (sound : operation.Sound activator g)
    (before : operation.stage = .validating origin candidate restarts observed after)
    (ended : (operation.chunk activator g stopped).stage =
      .publishing origin' candidate' restarts' validated) :
    validated = g.state ∧ (operation.chunk activator g stopped).visited =
      g.entities.toList.map Prod.fst := by
  have limit : max (max operation.chunkRecords 1) 1 = max operation.chunkRecords 1 := by omega
  unfold Operation.chunk at ended ⊢
  rw [before] at ended ⊢
  dsimp only at ended ⊢
  split at ended
  next => cases ended
  next =>
    split at ended
    next =>
      unfold Operation.restart at ended
      split at ended <;> cases ended
    next same =>
      split at ended
      next => cases ended
      next =>
        rw [if_neg same]
        have progress := sound.progress before same
        unfold Operation.validate validateChunk at ended ⊢
        rw [limit] at ended ⊢
        split at ended
        next => cases ended
        next => cases ended
        next validates =>
          have positive : 0 < max operation.chunkRecords 1 := by omega
          cases ended
          exact ⟨rfl, (progress.complete positive validates).1⟩

/-! ## Activation -/

/-- The number of validations an operation has restarted. -/
def Stage.restarts : Stage N C E → Nat
  | .opening _ _ restarts => restarts
  | .validating _ _ restarts _ _ => restarts
  | .publishing _ _ restarts _ => restarts
  | _ => 0

end

end Xeto
end Haystack
