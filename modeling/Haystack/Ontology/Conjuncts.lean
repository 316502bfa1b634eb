import Mathlib

/-!
# Conjuncts

The index of the compound tag names of a namespace, which are also found by a
spelling of their names without case and hyphens.
-/

namespace Haystack
namespace Ontology

open Std (ExtTreeMap)

/-- The component tags of conjuncts.  A spelling has the one conjunct with it, or
nothing where more than one has it. -/
structure ConjunctIndex where
  parts : ExtTreeMap String (List String)
  normalized : ExtTreeMap String (Option String)

namespace ConjunctIndex

variable (lowercase : Char → List Char)

def new : ConjunctIndex := ⟨∅, ∅⟩

def normalize (name : String) : String :=
  String.ofList ((name.toList.filter (· ≠ '-')).flatMap lowercase)

/-- What a spelling has once a conjunct with it is registered. -/
def noted (conjunct : String) : Option (Option String) → Option String
  | none => some conjunct
  | some entry => if entry ≠ some conjunct then none else entry

def register (index : ConjunctIndex) (call : String × List String) : ConjunctIndex :=
  let key := normalize lowercase call.1
  { parts := index.parts.insert call.1 call.2
    normalized := index.normalized.insert key (noted call.1 index.normalized[key]?) }

def registerAll (calls : List (String × List String)) : ConjunctIndex :=
  calls.foldl (register lowercase) new

def resolveNormalized (index : ConjunctIndex) (name : String) : Option String :=
  index.normalized[normalize lowercase name]?.join

/-- The registered conjuncts with a spelling. -/
def spelled (calls : List (String × List String)) (key : String) : Set String :=
  {conjunct | conjunct ∈ calls.map Prod.fst ∧ normalize lowercase conjunct = key}

/-- What an entry says of the conjuncts with its spelling. -/
def Describes (found : Set String) : Option (Option String) → Prop
  | none => found = ∅
  | some none => found.Nontrivial
  | some (some conjunct) => found = {conjunct}

theorem Describes.noted
    {found : Set String} {entry : Option (Option String)} (describes : Describes found entry)
    (conjunct : String) : Describes (insert conjunct found) (some (noted conjunct entry)) := by
  match entry with
  | none =>
    change insert conjunct found = {conjunct}
    rw [show found = ∅ from describes, insert_empty_eq]
  | some none => exact Set.Nontrivial.mono describes (Set.subset_insert conjunct found)
  | some (some other) =>
    obtain rfl : found = {other} := describes
    by_cases same : other = conjunct
    · simp [ConjunctIndex.noted, same, Describes]
    · simp only [ConjunctIndex.noted, ne_eq, Option.some.injEq, same]
      exact Set.nontrivial_pair (Ne.symm same)

theorem spelled_concat (calls : List (String × List String)) (call : String × List String)
    (key : String) :
    spelled lowercase (calls ++ [call]) key =
      if normalize lowercase call.1 = key then insert call.1 (spelled lowercase calls key)
      else spelled lowercase calls key := by
  ext conjunct
  split <;> simp only [spelled, List.map_append, List.mem_append, List.map_cons, List.map_nil,
    List.mem_singleton, Set.mem_ofPred_eq, Set.mem_insert_iff] <;> grind

/-- The entry of a spelling describes the registered conjuncts with it. -/
theorem describes_registerAll (calls : List (String × List String)) (key : String) :
    Describes (spelled lowercase calls key) (registerAll lowercase calls).normalized[key]? := by
  induction calls using List.reverseRecOn with
  | nil =>
    simp [registerAll, new, Describes, spelled]
  | append_singleton calls call ih =>
    have last : registerAll lowercase (calls ++ [call]) =
        register lowercase (registerAll lowercase calls) call := by
      rw [registerAll, List.foldl_append]
      rfl
    rw [spelled_concat, last]
    simp only [register, ExtTreeMap.getElem?_insert]
    by_cases same : normalize lowercase call.1 = key
    · simpa [same] using ih.noted call.1
    · simpa [same] using ih

theorem resolveNormalized_eq_some_iff (calls : List (String × List String))
    (name conjunct : String) :
    resolveNormalized lowercase (registerAll lowercase calls) name = some conjunct ↔
      spelled lowercase calls (normalize lowercase name) = {conjunct} := by
  have describes := describes_registerAll lowercase calls (normalize lowercase name)
  unfold resolveNormalized
  match entry : (registerAll lowercase calls).normalized[normalize lowercase name]? with
  | none =>
    rw [entry] at describes
    simp [show spelled _ _ _ = ∅ from describes]
  | some none =>
    rw [entry] at describes
    simpa using fun single => Set.not_nontrivial_singleton (single ▸ describes)
  | some (some other) =>
    rw [entry] at describes
    simp [show spelled _ _ _ = {other} from describes]

/-- A name is resolved to the only registered conjunct with its spelling, whatever
the order and the repetitions of the registrations. -/
theorem resolveNormalized_registerAll (calls : List (String × List String)) (name : String) :
    (∀ conjunct, resolveNormalized lowercase (registerAll lowercase calls) name = some conjunct ↔
      conjunct ∈ calls.map Prod.fst ∧
        normalize lowercase conjunct = normalize lowercase name ∧
        ∀ other ∈ calls.map Prod.fst, normalize lowercase other = normalize lowercase name →
          other = conjunct) ∧
    ∀ again : List (String × List String),
      (∀ conjunct, conjunct ∈ again.map Prod.fst ↔ conjunct ∈ calls.map Prod.fst) →
      resolveNormalized lowercase (registerAll lowercase again) name =
        resolveNormalized lowercase (registerAll lowercase calls) name := by
  constructor
  · intro conjunct
    rw [resolveNormalized_eq_some_iff, Set.eq_singleton_iff_unique_mem]
    simp [spelled, and_assoc]
  · intro again same
    ext conjunct
    rw [resolveNormalized_eq_some_iff, resolveNormalized_eq_some_iff]
    simp [spelled, same]

end ConjunctIndex
end Ontology
end Haystack
