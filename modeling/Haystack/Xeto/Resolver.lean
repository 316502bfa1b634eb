import Haystack.Collections.Worklist

/-!
# Name resolution and load order of libraries

The resolver keeps its libraries in hash maps, which are iterated in any order.
Whether the libraries can be ordered by their dependencies is independent of it.
The last scope of a name is not: it takes the first library that declares it.
-/

namespace Haystack
namespace Xeto

open Std (ExtTreeMap)
open Collections
open Relation (ReflTransGen TransGen)

inductive XetoError
  | resolve (message : String)
  | load (message : String)
  deriving DecidableEq

/-- The spec names and the dependencies of every library. -/
structure XetoResolver where
  libSpecs : ExtTreeMap String (List String)
  libDepends : ExtTreeMap String (List String)

namespace XetoResolver

def new : XetoResolver := ⟨∅, ∅⟩

def addLib (r : XetoResolver) (name : String) (specs depends : List String) : XetoResolver :=
  ⟨r.libSpecs.insert name specs, r.libDepends.insert name depends⟩

/-- An order in which the libraries are iterated. -/
def Iteration (r : XetoResolver) : Type := { order : List String // order.Perm r.libSpecs.keys }

def depends (r : XetoResolver) (lib : String) : List String := (r.libDepends[lib]?).getD []

def declares (r : XetoResolver) (name lib : String) : Bool := (r.libSpecs[lib]?).any (name ∈ ·)

def qualified (lib name : String) : String := lib ++ "::" ++ name

/-! ## Names -/

def isQualified (name : String) : Bool := "::".toList <:+: name.toList

/-- The library of a name in the scopes that are not iterated. -/
def scope (r : XetoResolver) (name context : String) : Option String :=
  if r.declares name context then some context
  else
    match (r.depends context).find? (r.declares name) with
    | some dep => some dep
    | none => if r.declares name "sys" then some "sys" else none

/-- The last scope skips the libraries that have been tried. -/
def isFallback (r : XetoResolver) (name context lib : String) : Bool :=
  lib ≠ context && lib ≠ "sys" && r.declares name lib

def resolve (r : XetoResolver) (order : r.Iteration) (name context : String) : Option String :=
  if isQualified name then some name
  else
    match r.scope name context with
    | some lib => some (qualified lib name)
    | none => (order.1.find? (r.isFallback name context)).map (qualified · name)

/-- At most one library declares the name in the last scope, if that is reached. -/
def Unambiguous (r : XetoResolver) (name context : String) : Prop :=
  isQualified name = true ∨ (r.scope name context).isSome = true ∨
    ∀ left ∈ r.libSpecs.keys, ∀ right ∈ r.libSpecs.keys, r.isFallback name context left = true →
      r.isFallback name context right = true → left = right

variable {r : XetoResolver} {name context : String}

/-- At most one item that qualifies is found in every order. -/
theorem find?_eq_of_perm {keep : String → Bool} {first second libs : List String}
    (unique : ∀ left ∈ libs, ∀ right ∈ libs, keep left = true → keep right = true → left = right)
    (firstPerm : first.Perm libs) (secondPerm : second.Perm libs) :
    first.find? keep = second.find? keep := by
  cases found : second.find? keep with
  | none =>
    rw [List.find?_eq_none] at found ⊢
    exact fun lib member => found lib (secondPerm.mem_iff.mpr (firstPerm.mem_iff.mp member))
  | some lib =>
    have kept := List.find?_some found
    have member := secondPerm.mem_iff.mp (List.mem_of_find?_eq_some found)
    have some := List.find?_isSome.mpr ⟨lib, firstPerm.mem_iff.mpr member, kept⟩
    obtain ⟨other, found⟩ := Option.isSome_iff_exists.mp some
    rw [found, unique other (firstPerm.mem_iff.mp (List.mem_of_find?_eq_some found)) lib member
      (List.find?_some found) kept]

theorem resolve_eq_of_unambiguous (unambiguous : r.Unambiguous name context)
    (first second : r.Iteration) :
    r.resolve first name context = r.resolve second name context := by
  unfold resolve
  rcases unambiguous with named | found | unique
  · rw [if_pos named, if_pos named]
  · obtain ⟨_, found⟩ := Option.isSome_iff_exists.mp found
    rw [found]
  · rw [find?_eq_of_perm unique first.2 second.2]

theorem qualified_injective {left right : String}
    (same : qualified left name = qualified right name) : left = right := by
  have texts := congrArg String.toList same
  simp only [qualified, String.toList_append, List.append_cancel_right_eq] at texts
  exact String.toList_inj.mp texts

/-- An order that comes to a library first resolves a name of the last scope to it. -/
theorem exists_resolve_eq {lib : String} (simple : ¬isQualified name = true)
    (unscoped : r.scope name context = none) (member : lib ∈ r.libSpecs.keys)
    (fallback : r.isFallback name context lib = true) :
    ∃ order : r.Iteration, r.resolve order name context = some (qualified lib name) := by
  refine ⟨⟨lib :: r.libSpecs.keys.erase lib, (List.perm_cons_erase member).symm⟩, ?_⟩
  unfold resolve
  rw [if_neg simple, unscoped, List.find?_cons_of_pos fallback]
  rfl

theorem unambiguous_of_resolve_eq (agree : ∀ first second : r.Iteration,
      r.resolve first name context = r.resolve second name context) :
    r.Unambiguous name context := by
  by_cases named : isQualified name = true
  · exact .inl named
  · cases found : r.scope name context with
    | some => exact .inr (.inl (by simp [found]))
    | none =>
      refine .inr (.inr fun left leftMember right rightMember leftKept rightKept => ?_)
      obtain ⟨first, toLeft⟩ := exists_resolve_eq named found leftMember leftKept
      obtain ⟨second, toRight⟩ := exists_resolve_eq named found rightMember rightKept
      exact qualified_injective (Option.some.inj (toLeft ▸ toRight ▸ agree first second))

end XetoResolver

/-! ## Loading -/

/-- A declaration with its references: its base and the types of its slots. -/
structure SpecDef where
  name : String
  isAugmentation : Bool
  base : Option String
  slots : List (Option String)
  deriving DecidableEq

structure XetoFile where
  depends : List String
  specs : List SpecDef

namespace XetoFile

/-- The known libraries and the one that is loaded. -/
def resolver (file : XetoFile) (known : XetoResolver) (lib : String) : XetoResolver :=
  known.addLib lib (file.specs.map SpecDef.name) file.depends

def references (file : XetoFile) : List String :=
  file.specs.flatMap fun spec => (spec.base :: spec.slots).reduceOption

end XetoFile

/-- A reference that is not resolved stays as it is. -/
def bindReference (r : XetoResolver) (order : r.Iteration) (lib : String)
    (reference : Option String) : Option String :=
  reference.map fun name => (r.resolve order name lib).getD name

def loadFromAst (file : XetoFile) (known : XetoResolver) (lib : String)
    (order : (file.resolver known lib).Iteration) : Except XetoError (List SpecDef) :=
  match file.depends.find? (· ∉ known.libDepends) with
  | some dep => .error (.load
      ("library '" ++ lib ++ "' depends on '" ++ dep ++ "' which is not loaded"))
  | none =>
    match file.specs.find? SpecDef.isAugmentation with
    | some augmentation => .error (.load
        ("augmentation '+" ++ augmentation.name ++ "' requires a selected admission profile"))
    | none => .ok (file.specs.map fun spec =>
        { spec with
          base := bindReference (file.resolver known lib) order lib spec.base
          slots := spec.slots.map (bindReference (file.resolver known lib) order lib) })

theorem loadFromAst_eq_of_unambiguous {file : XetoFile} {known : XetoResolver} {lib : String}
    (unambiguous : ∀ name ∈ file.references, (file.resolver known lib).Unambiguous name lib)
    (first second : (file.resolver known lib).Iteration) :
    loadFromAst file known lib first = loadFromAst file known lib second := by
  have bound : ∀ spec ∈ file.specs, ∀ reference ∈ spec.base :: spec.slots,
      bindReference (file.resolver known lib) first lib reference =
        bindReference (file.resolver known lib) second lib reference := by
    intro spec declared reference member
    refine Option.map_congr fun name named => ?_
    obtain rfl := named
    have used : name ∈ file.references :=
      List.mem_flatMap.mpr ⟨spec, declared, List.reduceOption_mem_iff.mpr member⟩
    rw [XetoResolver.resolve_eq_of_unambiguous (unambiguous name used) first second]
  have specs := List.map_congr_left fun spec declared =>
    congrArg₂ (fun base slots => { spec with base, slots })
      (bound spec declared _ List.mem_cons_self)
      (List.map_congr_left fun slot member => bound spec declared slot (.tail _ member))
  unfold loadFromAst
  rw [specs]

/-- The iteration order matters exactly to the names that several libraries declare in
the last scope; a file without such names binds its references in one way. -/
theorem resolve_deterministic_iff (known : XetoResolver) (lib : String) :
    (∀ name, (∀ first second : known.Iteration,
        known.resolve first name lib = known.resolve second name lib) ↔
      known.Unambiguous name lib) ∧
    ∀ file : XetoFile,
      (∀ name ∈ file.references, (file.resolver known lib).Unambiguous name lib) →
      ∀ first second, loadFromAst file known lib first = loadFromAst file known lib second :=
  ⟨fun _ => ⟨XetoResolver.unambiguous_of_resolve_eq,
      fun unambiguous => XetoResolver.resolve_eq_of_unambiguous unambiguous⟩,
    fun _ unambiguous => loadFromAst_eq_of_unambiguous unambiguous⟩

/-- Two libraries that declare one name, and a file that uses it without naming them. -/
theorem loads_differently : ∃ (known : XetoResolver) (file : XetoFile)
      (first second : (file.resolver known "c").Iteration),
      (file.resolver known "c").resolve first "T" "c" = some "a::T" ∧
      (file.resolver known "c").resolve second "T" "c" = some "b::T" ∧
      loadFromAst file known "c" first ≠ loadFromAst file known "c" second := by
  refine ⟨(XetoResolver.new.addLib "a" ["T"] []).addLib "b" ["T"] [],
    ⟨[], [⟨"U", false, some "T", []⟩]⟩, ⟨["a", "b", "c"], ?_⟩, ⟨["b", "a", "c"], ?_⟩, ?_, ?_, ?_⟩
  all_goals decide +kernel

/-! ## Load order -/

namespace XetoResolver

def circular (lib : String) : XetoError :=
  .resolve ("circular dependency detected involving '" ++ lib ++ "'")

structure Walk where
  visited : Finset String
  inProgress : Finset String
  result : List String

/-- The recursion is bounded by fuel; running out of it is the failure `none`. -/
def topoVisit (r : XetoResolver) : Nat → String → Walk → Except (Option XetoError) Walk
  | 0, _, _ => .error none
  | fuel + 1, lib, walk =>
    if lib ∈ walk.inProgress then .error (some (circular lib))
    else if lib ∈ walk.visited then .ok walk
    else do
      let walk ← (r.depends lib).foldlM (fun walk dep => r.topoVisit fuel dep walk)
        { walk with inProgress := insert lib walk.inProgress }
      .ok ⟨insert lib walk.visited, walk.inProgress.erase lib, walk.result ++ [lib]⟩

def visitUnvisited (r : XetoResolver) (walk : Walk) (lib : String) :
    Except (Option XetoError) Walk :=
  if lib ∈ walk.visited then .ok walk else r.topoVisit (r.libDepends.size + 1) lib walk

def dependencyOrder (r : XetoResolver) (order : r.Iteration) :
    Except (Option XetoError) (List String) :=
  (order.1.foldlM r.visitUnvisited ⟨∅, ∅, []⟩).map Walk.result

/-- The dependencies of a library, of theirs, and so on. -/
abbrev Reaches (r : XetoResolver) : String → String → Prop := ReflTransGen (Succeeds r.depends)

abbrev Cyclic (r : XetoResolver) (lib : String) : Prop := TransGen (Succeeds r.depends) lib lib

structure Walk.Sound (r : XetoResolver) (walk : Walk) : Prop where
  visited : ∀ lib, lib ∈ walk.visited ↔ lib ∈ walk.result
  fresh : ∀ lib ∈ walk.inProgress, lib ∉ walk.result
  nodup : walk.result.Nodup
  ordered : InOrder r.depends walk.result

/-- What visiting some libraries does. -/
def Outcome (r : XetoResolver) (libs : List String) (walk : Walk) :
    Except (Option XetoError) Walk → Prop
  | .ok after => after.Sound r ∧ after.inProgress = walk.inProgress ∧
      (∀ lib ∈ walk.result, lib ∈ after.result) ∧ (∀ lib ∈ libs, lib ∈ after.result) ∧
      ∀ lib ∈ after.result, lib ∈ walk.result ∨ ∃ start ∈ libs, r.Reaches start lib
  | .error failure => ∃ lib, failure = some (circular lib) ∧ r.Cyclic lib ∧
      ∃ start ∈ libs, r.Reaches start lib

variable {r : XetoResolver} {lib : String} {libs : List String} {walk middle : Walk}

theorem Outcome.cons {out : Except (Option XetoError) Walk}
    (first : r.Outcome [lib] walk (.ok middle)) (rest : r.Outcome libs middle out) :
    r.Outcome (lib :: libs) walk out := by
  obtain ⟨-, sameFirst, keptFirst, doneFirst, fromFirst⟩ := first
  cases out with
  | error =>
    obtain ⟨found, same, cycle, start, member, reaches⟩ := rest
    exact ⟨found, same, cycle, start, .tail _ member, reaches⟩
  | ok =>
    obtain ⟨sound, sameRest, keptRest, doneRest, fromRest⟩ := rest
    refine ⟨sound, sameRest.trans sameFirst, fun x member => keptRest x (keptFirst x member),
      List.forall_mem_cons.mpr ⟨keptRest lib (doneFirst lib List.mem_cons_self), doneRest⟩,
      fun x member => ?_⟩
    rcases fromRest x member with earlier | ⟨start, member, reaches⟩
    · rcases fromFirst x earlier with known | ⟨start, member, reaches⟩
      · exact .inl known
      · obtain rfl := List.mem_singleton.mp member
        exact .inr ⟨start, List.mem_cons_self, reaches⟩
    · exact .inr ⟨start, .tail _ member, reaches⟩

/-- A loop of visits does what each of them does. -/
theorem outcome_foldlM {visit : Walk → String → Except (Option XetoError) Walk}
    (sound : walk.Sound r)
    (each : ∀ lib ∈ libs, ∀ before : Walk, before.Sound r →
      before.inProgress = walk.inProgress → r.Outcome [lib] before (visit before lib)) :
    r.Outcome libs walk (libs.foldlM visit walk) := by
  induction libs generalizing walk with
  | nil => exact ⟨sound, rfl, fun _ member => member, nofun, fun _ member => .inl member⟩
  | cons lib libs ih =>
    have first := each lib List.mem_cons_self walk sound rfl
    rw [List.foldlM_cons]
    cases visited : visit walk lib with
    | error =>
      rw [visited] at first
      obtain ⟨found, same, cycle, start, member, reaches⟩ := first
      obtain rfl := List.mem_singleton.mp member
      exact ⟨found, same, cycle, start, List.mem_cons_self, reaches⟩
    | ok =>
      rw [visited] at first
      refine first.cons (ih first.1 fun next member before kept same => ?_)
      exact each next (.tail _ member) before kept (same.trans first.2.1)

theorem outcome_of_visited (sound : walk.Sound r) (done : lib ∈ walk.visited) :
    r.Outcome [lib] walk (.ok walk) :=
  ⟨sound, rfl, fun _ member => member,
    List.forall_mem_singleton.mpr ((sound.visited lib).mp done), fun _ member => .inl member⟩

theorem mem_libDepends {dep : String} (member : dep ∈ r.depends lib) :
    lib ∈ r.libDepends.keys := by
  rw [ExtTreeMap.mem_keys, ExtTreeMap.mem_iff_isSome_getElem?]
  unfold depends at member
  cases found : r.libDepends[lib]? with
  | none => simp [found] at member
  | some => rfl

theorem Walk.Sound.enter (sound : walk.Sound r) (fresh : lib ∉ walk.visited) :
    Walk.Sound r { walk with inProgress := insert lib walk.inProgress } where
  visited := sound.visited
  fresh := by
    intro x member known
    rcases Finset.mem_insert.mp member with rfl | member
    · exact fresh ((sound.visited x).mpr known)
    · exact sound.fresh x member known
  nodup := sound.nodup
  ordered := sound.ordered

theorem Walk.Sound.leave (sound : walk.Sound r) (entered : lib ∈ walk.inProgress)
    (done : ∀ dep ∈ r.depends lib, dep ∈ walk.result) :
    Walk.Sound r
      ⟨insert lib walk.visited, walk.inProgress.erase lib, walk.result ++ [lib]⟩ where
  visited x := by simp [sound.visited, or_comm]
  fresh x member := by
    have := sound.fresh x (Finset.mem_of_mem_erase member)
    simp [this, Finset.ne_of_mem_erase member]
  nodup := List.concat_eq_append ▸ sound.nodup.concat (sound.fresh lib entered)
  ordered := sound.ordered.concat done

/-- After its dependencies a library is done. -/
theorem Outcome.leave {after : Walk}
    (visits : r.Outcome (r.depends lib) { walk with inProgress := insert lib walk.inProgress }
      (.ok after))
    (first : lib ∉ walk.inProgress) :
    r.Outcome [lib] walk
      (.ok ⟨insert lib after.visited, after.inProgress.erase lib, after.result ++ [lib]⟩) := by
  obtain ⟨sound, same, grown, reached, source⟩ := visits
  have entered : lib ∈ after.inProgress := same ▸ Finset.mem_insert_self _ _
  refine ⟨sound.leave entered reached, by simp [same, Finset.erase_insert first],
    fun x member => List.mem_append_left _ (grown x member), by simp, fun x member => ?_⟩
  rcases List.mem_append.mp member with member | last
  · rcases source x member with known | ⟨start, member, reaches⟩
    · exact .inl known
    · exact .inr ⟨lib, List.mem_cons_self, .head member reaches⟩
  · obtain rfl := List.mem_singleton.mp last
    exact .inr ⟨x, List.mem_cons_self, .refl⟩

/-- Every library in progress has dependencies that lead to the visited one, so the
fuel that is left covers the other libraries. -/
theorem outcome_topoVisit {fuel : Nat} (sound : walk.Sound r)
    (path : ∀ x ∈ walk.inProgress, x ∈ r.libDepends.keys ∧ TransGen (Succeeds r.depends) x lib)
    (enough : r.libDepends.size < fuel + walk.inProgress.card) :
    r.Outcome [lib] walk (r.topoVisit fuel lib walk) := by
  induction fuel generalizing lib walk with
  | zero =>
    have small := Finset.card_le_card (t := r.libDepends.keys.toFinset)
      fun x member => List.mem_toFinset.mpr (path x member).1
    have keys := List.toFinset_card_le r.libDepends.keys
    rw [ExtTreeMap.length_keys] at keys
    omega
  | succ fuel ih =>
    rw [topoVisit]
    split_ifs with repeated done
    · exact ⟨lib, rfl, (path lib repeated).2, lib, List.mem_cons_self, .refl⟩
    · exact outcome_of_visited sound done
    · let entered : Walk := { walk with inProgress := insert lib walk.inProgress }
      have visits : r.Outcome (r.depends lib) entered
          ((r.depends lib).foldlM (fun walk dep => r.topoVisit fuel dep walk) entered) := by
        refine outcome_foldlM (sound.enter done) fun dep member before kept same => ih kept ?_ ?_
        · intro x entered
          rw [same] at entered
          rcases Finset.mem_insert.mp entered with rfl | entered
          · exact ⟨mem_libDepends member, .single member⟩
          · exact ⟨(path x entered).1, (path x entered).2.tail member⟩
        · rw [same, Finset.card_insert_of_notMem repeated]
          omega
      cases visited : (r.depends lib).foldlM (fun walk dep => r.topoVisit fuel dep walk) entered with
      | error =>
        rw [visited] at visits
        obtain ⟨found, same, cycle, _, member, reaches⟩ := visits
        exact ⟨found, same, cycle, lib, List.mem_cons_self, .head member reaches⟩
      | ok =>
        rw [visited] at visits
        exact visits.leave repeated

theorem outcome_dependencyOrder (order : r.Iteration) :
    r.Outcome order.1 ⟨∅, ∅, []⟩ (order.1.foldlM r.visitUnvisited ⟨∅, ∅, []⟩) := by
  refine outcome_foldlM ⟨by simp, by simp, List.nodup_nil, .nil⟩ fun lib _ before sound same => ?_
  unfold visitUnvisited
  split_ifs with done
  · exact outcome_of_visited sound done
  · exact outcome_topoVisit sound (by simp [same]) (by omega)

/-- The libraries can be ordered exactly when no reachable library depends on itself.
The order then lists the reachable libraries, each once and after its dependencies;
otherwise the failure names a library of a cycle. -/
theorem dependencyOrder_spec (r : XetoResolver) (order : r.Iteration) :
    ((∃ result, r.dependencyOrder order = .ok result) ↔
      ∀ start ∈ r.libSpecs, ∀ lib, r.Reaches start lib → ¬r.Cyclic lib) ∧
    (∀ result, r.dependencyOrder order = .ok result → result.Nodup ∧
      (∀ lib, lib ∈ result ↔ ∃ start ∈ r.libSpecs, r.Reaches start lib) ∧
      InOrder r.depends result) ∧
    ∀ failure, r.dependencyOrder order = .error failure →
      ∃ lib, failure = some (circular lib) ∧ r.Cyclic lib ∧
        ∃ start ∈ r.libSpecs, r.Reaches start lib := by
  have outcome := outcome_dependencyOrder order
  have registered : ∀ lib, lib ∈ order.1 ↔ lib ∈ r.libSpecs := by
    intro lib
    rw [order.2.mem_iff, ExtTreeMap.mem_keys]
  unfold dependencyOrder
  cases walked : order.1.foldlM r.visitUnvisited ⟨∅, ∅, []⟩ with
  | error =>
    rw [walked] at outcome
    obtain ⟨lib, same, cycle, start, member, reaches⟩ := outcome
    have member := (registered start).mp member
    refine ⟨⟨nofun, fun acyclic => absurd cycle (acyclic start member lib reaches)⟩, nofun, ?_⟩
    rintro _ ⟨⟩
    exact ⟨lib, same, cycle, start, member, reaches⟩
  | ok walk =>
    rw [walked] at outcome
    obtain ⟨sound, -, -, reached, source⟩ := outcome
    have listed : ∀ lib, lib ∈ walk.result ↔ ∃ start ∈ r.libSpecs, r.Reaches start lib := by
      intro lib
      constructor
      · intro member
        rcases source lib member with none | ⟨start, member, reaches⟩
        · cases none
        · exact ⟨start, (registered start).mp member, reaches⟩
      · rintro ⟨start, member, reaches⟩
        exact sound.ordered.mem_of_reaches (reached start ((registered start).mpr member)) reaches
    refine ⟨⟨fun _ start member lib reaches => ?_, fun _ => ⟨_, rfl⟩⟩, ?_, nofun⟩
    · exact sound.ordered.acyclic ((listed lib).mpr ⟨start, member, reaches⟩)
    · rintro _ ⟨⟩
      exact ⟨sound.nodup, listed, sound.ordered⟩

end XetoResolver
end Xeto
end Haystack
