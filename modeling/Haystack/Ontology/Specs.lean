import Haystack.Collections.Loop
import Haystack.Collections.Map

/-!
# Specs

The specs of a namespace, the names each library has of them, and the specs that
selecting a catalog lays over them.
-/

namespace Haystack
namespace Ontology

open Std (ExtTreeMap)

/-- A Xeto spec.  What it says apart from its name and library is its content. -/
structure Spec where
  qname : String
  lib : String
  content : String
  deriving DecidableEq

structure Lib where
  name : String
  depends : List String

/-- How a library was loaded. -/
inductive LibSource
  | bundled
  | trio (source : String)
  | xeto (source : String)
  | directory (path : String)
  deriving DecidableEq

/-- The specs of a namespace, with their names by library.  A selected catalog
displaces specs, which `shadowed` keeps. -/
structure DefNamespace (Catalog : Type) where
  libs : ExtTreeMap String Lib
  specs : ExtTreeMap String Spec
  selected : Option Catalog
  shadowed : ExtTreeMap String (Option Spec)
  specLibs : ExtTreeMap String (List String)
  libSources : ExtTreeMap String LibSource

namespace DefNamespace

variable {Catalog : Type} (declarations : Catalog → List Spec)
variable (load : String → String → DefNamespace Catalog → Except String (Lib × List Spec))
variable (ns : DefNamespace Catalog)

def new : DefNamespace Catalog := ⟨∅, ∅, none, ∅, ∅, ∅⟩

def names (lib : String) : List String := ns.specLibs[lib]?.getD []

def registerSpec (spec : Spec) : DefNamespace Catalog :=
  { ns with
    specs := ns.specs.insert spec.qname spec
    specLibs := ns.specLibs.insert spec.lib (ns.names spec.lib ++ [spec.qname]) }

/-- Replace the names of a library, without an empty list. -/
def setNames (specLibs : ExtTreeMap String (List String)) (lib : String) (kept : List String) :
    ExtTreeMap String (List String) :=
  if kept.isEmpty then specLibs.erase lib else specLibs.insert lib kept

def unindexSpec (qname : String) : DefNamespace Catalog :=
  match ns.specs[qname]? with
  | none => ns
  | some spec =>
    { ns with
      specs := ns.specs.erase qname
      specLibs := setNames ns.specLibs spec.lib ((ns.names spec.lib).filter (· ≠ qname)) }

/-- Put back what a selected spec displaced. -/
def restoreSpec (displaced : String × Option Spec) : DefNamespace Catalog :=
  match displaced.2 with
  | some spec => (ns.unindexSpec displaced.1).registerSpec spec
  | none => ns.unindexSpec displaced.1

/-- The namespace without its selected catalog. -/
def deselect : DefNamespace Catalog :=
  if ns.selected.isSome then
    { ns.shadowed.toList.foldl restoreSpec ns with selected := none, shadowed := ∅ }
  else ns

/-- Register a spec of a selected catalog. -/
def selectSpec (spec : Spec) : DefNamespace Catalog :=
  let unindexed := ns.unindexSpec spec.qname
  { unindexed with shadowed := ns.shadowed.insert spec.qname ns.specs[spec.qname]? }.registerSpec
    spec

def withCatalog (catalog : Catalog) : DefNamespace Catalog :=
  { (declarations catalog).foldl selectSpec ns.deselect with selected := some catalog }

/-- Load a library from its text.  Returns the names of its specs. -/
def loadXetoStr (source libName : String) :
    Except String (DefNamespace Catalog × List String) := do
  let (lib, specs) ← load source libName ns
  .ok ({ specs.foldl registerSpec ns with
    libs := ns.libs.insert lib.name lib
    libSources := ns.libSources.insert libName (.xeto source) }, specs.map Spec.qname)

def unloadLib (libName : String) : Except String (DefNamespace Catalog) :=
  match ns.libs.toList.find? fun entry =>
      entry.1 ≠ libName && entry.2.depends.contains libName with
  | some entry => .error ("cannot unload '" ++ libName ++ "': library '" ++ entry.1 ++
      "' depends on it")
  | none =>
    if ns.libSources[libName]? = some .bundled then
      .error ("cannot unload bundled library '" ++ libName ++ "'")
    else .ok { ns with
      specLibs := ns.specLibs.erase libName
      specs := (ns.names libName).foldl (fun specs qname => specs.erase qname) ns.specs
      libs := ns.libs.erase libName
      libSources := ns.libSources.erase libName }

/-! ### What a step does to a name and to a library -/

@[simp] theorem specs_unindexSpec (qname : String) :
    (ns.unindexSpec qname).specs = ns.specs.erase qname := by
  unfold unindexSpec
  split
  · apply ExtTreeMap.ext_getElem?
    intro other
    rw [ExtTreeMap.getElem?_erase]
    split <;> grind
  · rfl

theorem getElem?_setNames
    (specLibs : ExtTreeMap String (List String)) (lib other : String) (kept : List String) :
    (setNames specLibs lib kept)[other]?.getD [] =
      if lib = other then kept else specLibs[other]?.getD [] := by
  unfold setNames
  cases kept with
  | nil => by_cases same : lib = other <;> simp [ExtTreeMap.getElem?_erase, same]
  | cons => by_cases same : lib = other <;> simp [ExtTreeMap.getElem?_insert, same]

theorem names_unindexSpec (qname lib : String) :
    (ns.unindexSpec qname).names lib =
      if ns.specs[qname]?.map Spec.lib = some lib then (ns.names lib).filter (· ≠ qname)
      else ns.names lib := by
  unfold unindexSpec
  cases ns.specs[qname]? with
  | none => rfl
  | some spec =>
    refine (getElem?_setNames _ _ _ _).trans ?_
    by_cases same : spec.lib = lib <;> simp [names, same]

theorem names_registerSpec (spec : Spec) (lib : String) :
    (ns.registerSpec spec).names lib =
      if spec.lib = lib then ns.names lib ++ [spec.qname] else ns.names lib := by
  rw [registerSpec, names, ExtTreeMap.getElem?_insert]
  by_cases same : spec.lib = lib <;> simp [same, names]

@[simp] theorem shadowed_unindexSpec (qname : String) :
    (ns.unindexSpec qname).shadowed = ns.shadowed := by
  unfold unindexSpec
  split <;> rfl

/-- A library lists exactly the names of its specs, and each of them only once if
this is asked. -/
structure Listed (once : Prop) : Prop where
  named : ∀ (qname : String) (spec : Spec), ns.specs[qname]? = some spec → spec.qname = qname
  kept : ∀ (qname : String) (spec : Spec),
    ns.shadowed[qname]? = some (some spec) → spec.qname = qname
  listed : ∀ lib (qname : String), qname ∈ ns.names lib ↔ ns.specs[qname]?.map Spec.lib = some lib
  nodup : once → ∀ lib, (ns.names lib).Nodup

variable {ns} {once : Prop}

variable (listed : ns.Listed once)

include listed

theorem Listed.unindexSpec (qname : String) :
    (ns.unindexSpec qname).Listed once where
  named other spec found := by
    rw [specs_unindexSpec, ExtTreeMap.getElem?_erase] at found
    split at found
    · cases found
    · exact listed.named other spec found
  kept := by simpa using listed.kept
  listed lib other := by
    have old := listed.listed lib other
    rw [names_unindexSpec, specs_unindexSpec, ExtTreeMap.getElem?_erase]
    by_cases same : other = qname
    · split <;> simp_all
    · split <;> simp [old, same, Ne.symm same]
  nodup asked lib := by
    rw [names_unindexSpec]
    split
    · exact (listed.nodup asked lib).filter _
    · exact listed.nodup asked lib

theorem Listed.registerSpec {spec : Spec} (fresh : ns.specs[spec.qname]? = none) :
    (ns.registerSpec spec).Listed once where
  named qname other found := by
    rw [DefNamespace.registerSpec, ExtTreeMap.getElem?_insert] at found
    split at found
    · simp_all
    · exact listed.named qname other found
  kept := listed.kept
  listed lib qname := by
    have old := listed.listed lib qname
    rw [names_registerSpec, DefNamespace.registerSpec, ExtTreeMap.getElem?_insert]
    by_cases same : qname = spec.qname
    · split <;> simp_all
    · split <;> simp [old, same, Ne.symm same]
  nodup asked lib := by
    have unlisted : spec.qname ∉ ns.names lib := by simp [listed.listed, fresh]
    rw [names_registerSpec]
    split
    · exact List.concat_eq_append ▸ (listed.nodup asked lib).concat unlisted
    · exact listed.nodup asked lib

theorem Listed.restoreSpec {displaced : String × Option Spec}
    (named : ∀ spec, displaced.2 = some spec → spec.qname = displaced.1) :
    (ns.restoreSpec displaced).Listed once := by
  unfold DefNamespace.restoreSpec
  split
  · rename_i spec original
    exact (listed.unindexSpec displaced.1).registerSpec (by simp [named spec original])
  · exact listed.unindexSpec displaced.1

theorem Listed.selectSpec (spec : Spec) : (ns.selectSpec spec).Listed once := by
  have unindexed := listed.unindexSpec spec.qname
  have shadowed : Listed { ns.unindexSpec spec.qname with
      shadowed := ns.shadowed.insert spec.qname ns.specs[spec.qname]? } once := by
    refine { unindexed with kept := ?_ }
    intro qname other found
    rw [ExtTreeMap.getElem?_insert] at found
    split at found
    · rename_i same
      exact listed.named qname other (by simpa [← Std.LawfulEqCmp.eq_of_compare same] using found)
    · exact listed.kept qname other found
  exact shadowed.registerSpec (by simp)

/-- A namespace keeps its lists when a catalog is deselected. -/
theorem Listed.deselect : ns.deselect.Listed once := by
  unfold DefNamespace.deselect
  split
  · have restored : (ns.shadowed.toList.foldl DefNamespace.restoreSpec ns).Listed once := by
      refine List.foldlRecOn (motive := (Listed · once)) _ _ listed ?_
      intro _ kept displaced member
      apply kept.restoreSpec
      intro spec original
      apply listed.kept
      rwa [← original, ← ExtTreeMap.mem_toList_iff_getElem?_eq_some]
    exact { restored with kept := by simp }
  · exact listed

theorem Listed.withCatalog (catalog : Catalog) :
    (ns.withCatalog declarations catalog).Listed once := by
  have selected : ((declarations catalog).foldl DefNamespace.selectSpec ns.deselect).Listed once :=
    List.foldlRecOn (motive := (Listed · once)) _ _ listed.deselect
      fun _ kept spec _ => kept.selectSpec spec
  exact { selected with }

omit listed

/-! ### Selecting catalogs in turn -/

/-- Restoring puts back the displaced specs. -/
theorem specs_foldl_restoreSpec {displaced : List (String × Option Spec)}
    (named : ∀ entry ∈ displaced, ∀ spec, entry.2 = some spec → spec.qname = entry.1)
    (ns : DefNamespace Catalog) (qname : String) :
    (displaced.foldl restoreSpec ns).specs[qname]? =
      (displaced.filter (·.1 = qname)).foldl (fun _ entry => entry.2) ns.specs[qname]? := by
  induction displaced generalizing ns with
  | nil => rfl
  | cons entry displaced ih =>
    obtain ⟨first, others⟩ := List.forall_mem_cons.mp named
    have here : (ns.restoreSpec entry).specs[qname]? =
        if entry.1 = qname then entry.2 else ns.specs[qname]? := by
      unfold restoreSpec
      cases original : entry.2 with
      | none => simp [ExtTreeMap.getElem?_erase]
      | some spec =>
        simp only [registerSpec, specs_unindexSpec, first spec original, Collections.insert_erase]
        simp [ExtTreeMap.getElem?_insert]
    rw [List.foldl_cons, ih others, here]
    by_cases same : entry.1 = qname <;> simp [same]

/-- These specs are left without the selected catalog. -/
structure Rests (once : Prop) (base : ExtTreeMap String Spec) (ns : DefNamespace Catalog) :
    Prop where
  listed : ns.Listed once
  unshadowed : ns.deselect.shadowed = ∅
  specs : ns.deselect.specs = base

variable {declarations} {base : ExtTreeMap String Spec}

/-- Selecting leaves the same specs, which determine the selected ones. -/
theorem Rests.withCatalog (rests : Rests once base ns) {catalog : Catalog}
    (distinct : ((declarations catalog).map Spec.qname).Nodup) :
    let selected := ns.withCatalog declarations catalog
    Rests once base selected ∧ ∀ qname : String,
      (selected.specs[qname]?, selected.shadowed[qname]?) =
        ((declarations catalog).filter (·.qname = qname)).foldl
          (fun seen spec => (some spec, some seen.1)) (base[qname]?, none) := by
  have one (qname : String) (state : DefNamespace Catalog) (spec : Spec) :
      ((state.selectSpec spec).specs[qname]?, (state.selectSpec spec).shadowed[qname]?) =
        if spec.qname = qname then (some spec, some state.specs[qname]?)
        else (state.specs[qname]?, state.shadowed[qname]?) := by
    by_cases same : spec.qname = qname <;>
      simp [selectSpec, registerSpec, ExtTreeMap.getElem?_insert, ExtTreeMap.getElem?_erase, same]
  have all (qname : String) := Collections.observe_foldl
    (fun ns : DefNamespace Catalog => (ns.specs[qname]?, ns.shadowed[qname]?)) Spec.qname
    (fun spec seen => (some spec, some seen.1)) (one qname) ns.deselect (declarations catalog)
  simp only [rests.unshadowed, rests.specs] at all
  have listed := rests.listed.withCatalog declarations catalog
  refine ⟨⟨listed, rfl, ExtTreeMap.ext_getElem? fun qname => ?_⟩, all⟩
  refine (specs_foldl_restoreSpec ?_ _ qname).trans ?_
  · rintro ⟨other, _⟩ member spec rfl
    exact listed.kept other spec (ExtTreeMap.mem_toList_iff_getElem?_eq_some.mp member)
  · rw [Collections.filter_toList_key]
    have here := all qname
    match declared : (declarations catalog).filter (·.qname = qname) with
    | [] =>
      rw [declared, Prod.mk.injEq] at here
      simp [DefNamespace.withCatalog, here.1, here.2]
    | [spec] =>
      rw [declared, Prod.mk.injEq] at here
      simp [DefNamespace.withCatalog, here.2]
    | spec :: other :: _ =>
      have once := List.nodup_iff_count_le_one.mp distinct qname
      rw [List.count, List.countP_map, List.countP_eq_length_filter] at once
      change ((declarations catalog).filter (·.qname = qname)).length ≤ 1 at once
      simp [declared] at once

/-- No spec with one of these names is registered, and the names differ. -/
def Fresh (ns : DefNamespace Catalog) (specs : List Spec) : Prop :=
  (specs.map Spec.qname).Nodup ∧ ∀ spec ∈ specs, ns.specs[spec.qname]? = none

variable (declarations)

/-- The namespaces after calls that register new names only. -/
inductive Reachable : DefNamespace Catalog → Prop
  | new : Reachable new
  | registerSpec {ns : DefNamespace Catalog} (reachable : Reachable ns) {spec : Spec}
      (fresh : ns.Fresh [spec]) :
      Reachable (ns.registerSpec spec)
  | loadXetoStr {ns : DefNamespace Catalog} (reachable : Reachable ns) {source libName : String}
      (fresh : ∀ lib specs, load source libName ns = .ok (lib, specs) → ns.Fresh specs)
      {left : DefNamespace Catalog} {qnames : List String}
      (loaded : ns.loadXetoStr load source libName = .ok (left, qnames)) :
      Reachable left
  | withCatalog {ns : DefNamespace Catalog} (reachable : Reachable ns) (catalog : Catalog) :
      Reachable (ns.withCatalog declarations catalog)
  | unloadLib {ns : DefNamespace Catalog} (reachable : Reachable ns) {libName : String}
      {left : DefNamespace Catalog} (unloaded : ns.unloadLib libName = .ok left) :
      Reachable left

variable {declarations load}

theorem getElem?_foldl_erase (specs : ExtTreeMap String Spec) (qnames : List String)
    (qname : String) :
    (qnames.foldl (fun specs qname => specs.erase qname) specs)[qname]? =
      if qname ∈ qnames then none else specs[qname]? := by
  induction qnames generalizing specs with
  | nil => simp
  | cons name names ih =>
    rw [List.foldl_cons, ih, ExtTreeMap.getElem?_erase]
    by_cases same : qname = name
    · simp [same]
    · simp [same, Ne.symm same]

/-- Unloading removes exactly the specs of the library. -/
theorem Listed.unloadLib (listed : ns.Listed once) {libName : String} {left : DefNamespace Catalog}
    (unloaded : ns.unloadLib libName = .ok left) :
    left.Listed once ∧ ∀ qname : String,
      left.specs[qname]? = ns.specs[qname]?.filter (·.lib ≠ libName) := by
  unfold DefNamespace.unloadLib at unloaded
  split at unloaded
  · cases unloaded
  · split at unloaded
    · cases unloaded
    · obtain rfl := Except.ok.inj unloaded
      have specs (qname : String) :
          ((ns.names libName).foldl (fun specs qname => specs.erase qname) ns.specs)[qname]? =
            ns.specs[qname]?.filter (·.lib ≠ libName) := by
        rw [getElem?_foldl_erase]
        have member := listed.listed libName qname
        cases found : ns.specs[qname]? with
        | none => simp
        | some spec => by_cases same : spec.lib = libName <;> simp_all [Option.filter]
      refine ⟨⟨?_, listed.kept, ?_, ?_⟩, specs⟩
      · intro qname spec found
        rw [specs, Option.filter_eq_some_iff] at found
        exact listed.named qname spec found.1
      · intro lib qname
        have old := listed.listed lib qname
        rw [specs]
        simp only [names, ExtTreeMap.getElem?_erase] at old ⊢
        by_cases same : libName = lib
        · cases ns.specs[qname]? <;> simp_all [Option.filter]
        · grind
      · intro asked lib
        have old := listed.nodup asked lib
        simp only [names, ExtTreeMap.getElem?_erase] at old ⊢
        split
        · exact List.nodup_nil
        · exact old

end DefNamespace
end Ontology
end Haystack
