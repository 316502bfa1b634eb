import Haystack.Collections.Worklist
import Haystack.Filter.Fitting

/-!
# Evaluation over a store

A query context serves a store when it resolves references to its rows and lists
the rows that refer to a target.  A row has one value for a ref tag, so the
inverse traversal pushes it at most once and always finishes within its bound.
Evaluation then depends on the rows alone: two contexts that serve the same store
give the same answers, in whatever order they list rows.
-/

namespace Haystack
namespace Filter

open Std (ExtTreeMap)
open Collections
open Relation (ReflTransGen)

/-- A stored row refers to a target through a tag. -/
def RefersTo (store : ExtTreeMap String HDict) (tag target : String) (row : HDict) : Prop :=
  tag ≠ "id" ∧ ∃ (refVal : String) (r : HRef), store[refVal]? = some row ∧
    row.get tag = some (.ref r) ∧ r.val = target

/-- A resolver lists the rows that refer to a target, each once. -/
structure ListsSources (store : ExtTreeMap String HDict)
    (reverse : HRef → String → List HDict) : Prop where
  nodup : ∀ target tag, (reverse target tag).Nodup
  mem_iff : ∀ target tag row, row ∈ reverse target tag ↔ RefersTo store tag target.val row
  byValue : ∀ left right tag, left.val = right.val → reverse left tag = reverse right tag

/-- A context answers for the rows of a store. -/
structure Serves (ctx : QueryContext) (store : ExtTreeMap String HDict) : Prop where
  forward : ctx.forward = fun r => store[r.val]?
  inverse : ∃ reverse, ctx.inverse = some reverse ∧ ListsSources store reverse
  bound : ctx.bound = store.size + 2

/-- The `id` tag of every row is a reference to its key. -/
def Identified (store : ExtTreeMap String HDict) : Prop :=
  ∀ (refVal : String) (row : HDict), store[refVal]? = some row →
    ∃ r : HRef, row.id = some r ∧ r.val = refVal

/-! ## The inverse traversal -/

/-- The ids of the sources of a target, last one first. -/
def sourceIds (reverse : HRef → String → List HDict) (tag target : String) : List String :=
  (((reverse ⟨target, none⟩ tag).filterMap HDict.id).map HRef.val).reverse

theorem map_pushSources (visited : List String) (queue : List HRef) (sources : List HDict) :
    (pushSources visited queue sources).map HRef.val =
      (((sources.filterMap HDict.id).map HRef.val).reverse.filter
        (· ∉ visited)) ++ queue.map HRef.val := by
  unfold pushSources
  induction sources generalizing queue with
  | nil => rfl
  | cons source sources ih =>
    rw [List.foldl_cons, ih]
    cases found : source.id with
    | none =>
      rw [List.filterMap_cons_none found]
      split
      · rename_i r tagged
        rw [HDict.id_eq_some_iff.mpr tagged] at found
        cases found
      · rfl
    | some r =>
      rw [List.filterMap_cons_some found]
      by_cases seen : r.val ∈ visited <;> simp [HDict.id_eq_some_iff.mp found, seen]

/-- The transitive loop collects the sources of the targets that it visits. -/
theorem mem_traverseInverseLoop {tag : String} {reverse : HRef → String → List HDict}
    (byValue : ∀ left right tag, left.val = right.val → reverse left tag = reverse right tag)
    (row : HDict) (fuel : Nat) (queue : List HRef) (visited : List String)
    (results : List HDict) :
    row ∈ traverseInverseLoop tag true reverse fuel queue visited results ↔
      row ∈ results ∨ ∃ target ∈ search (sourceIds reverse tag) fuel (queue.map HRef.val)
          visited, target ∉ visited ∧ row ∈ reverse ⟨target, none⟩ tag := by
  induction fuel generalizing queue visited results with
  | zero =>
    simp only [traverseInverseLoop, iff_self_or, forall_exists_index]
    rintro target ⟨seen, unseen, _⟩
    exact absurd seen unseen
  | succ fuel ih =>
    cases queue with
    | nil =>
      simp only [traverseInverseLoop, iff_self_or, forall_exists_index]
      rintro target ⟨seen, unseen, _⟩
      exact absurd seen unseen
    | cons target queue =>
      rw [traverseInverseLoop, List.map_cons, search]
      simp only [List.contains_iff_mem]
      split
      · exact ih queue visited results
      rename_i unvisited
      rw [if_pos trivial, ih, map_pushSources, byValue target ⟨target.val, none⟩ tag rfl]
      have first : target.val ∈ search (sourceIds reverse tag) fuel
          ((sourceIds reverse tag target.val).filter
            (· ∉ target.val :: visited) ++ queue.map HRef.val)
          (target.val :: visited) :=
        mem_search_of_visited List.mem_cons_self
      rw [List.mem_append, or_assoc]
      refine or_congr_right ⟨?_, ?_⟩
      · rintro (source | ⟨other, reached, unseen, source⟩)
        · exact ⟨target.val, first, unvisited, source⟩
        · exact ⟨other, reached, fun seen => unseen (List.mem_cons_of_mem _ seen), source⟩
      · rintro ⟨other, reached, unseen, source⟩
        by_cases same : other = target.val
        · exact .inl (same ▸ source)
        · exact .inr ⟨other, reached, by simp [same, unseen], source⟩

section Store

variable {store : ExtTreeMap String HDict} {reverse : HRef → String → List HDict}

/-- A row refers to one target through a tag. -/
def targetOf (store : ExtTreeMap String HDict) (tag refVal : String) : Option String :=
  match store[refVal]?.bind (HDict.get · tag) with
  | some (.ref r) => some r.val
  | _ => none

variable (lists : ListsSources store reverse)

include lists

variable (identified : Identified store)

include identified

theorem ListsSources.mem_sourceIds {tag target refVal : String} :
    refVal ∈ sourceIds reverse tag target ↔
      ∃ row, store[refVal]? = some row ∧ RefersTo store tag target row := by
  simp only [sourceIds, List.mem_reverse, List.mem_map, List.mem_filterMap]
  constructor
  · rintro ⟨r, ⟨row, listed, tagged⟩, rfl⟩
    have refers := (lists.mem_iff _ tag row).mp listed
    obtain ⟨_, key, _, found, _⟩ := refers
    obtain ⟨_, otherTagged, rfl⟩ := identified key row found
    obtain rfl := Option.some.inj (tagged.symm.trans otherTagged)
    exact ⟨row, found, (lists.mem_iff _ tag row).mp listed⟩
  · rintro ⟨row, found, refers⟩
    obtain ⟨r, tagged, same⟩ := identified refVal row found
    exact ⟨r, ⟨row, (lists.mem_iff ⟨target, none⟩ tag row).mpr refers, tagged⟩, same⟩

/-- The sources of a store form a forest: a row refers to one target. -/
theorem ListsSources.forest (tag : String) :
    Forest (sourceIds reverse tag) (store.toList.map Prod.fst).toFinset where
  parent := by
    refine ⟨targetOf store tag, fun target refVal member => ?_⟩
    obtain ⟨row, found, _, _, r, _, value, rfl⟩ := (lists.mem_sourceIds identified).mp member
    simp [targetOf, found, value]
  nodup target := by
    have distinct : (reverse ⟨target, none⟩ tag).Pairwise fun left right =>
        ∀ l, left.id = some l → ∀ r, right.id = some r → l.val ≠ r.val := by
      refine List.Pairwise.imp_of_mem ?_ (lists.nodup ⟨target, none⟩ tag)
      intro left right leftListed rightListed different l leftId r rightId same
      obtain ⟨_, leftKey, _, leftFound, _⟩ := (lists.mem_iff _ tag left).mp leftListed
      obtain ⟨_, rightKey, _, rightFound, _⟩ := (lists.mem_iff _ tag right).mp rightListed
      obtain ⟨_, tagged, rfl⟩ := identified leftKey left leftFound
      obtain ⟨_, otherTagged, rfl⟩ := identified rightKey right rightFound
      obtain rfl := Option.some.inj (leftId.symm.trans tagged)
      obtain rfl := Option.some.inj (rightId.symm.trans otherTagged)
      rw [same] at leftFound
      exact different (Option.some.inj (leftFound.symm.trans rightFound))
    rw [sourceIds, List.nodup_reverse, List.Nodup, List.pairwise_map]
    exact distinct.filterMap HDict.id
      fun _ _ differ l given r otherGiven => differ l given r otherGiven
  inside target refVal member := by
    obtain ⟨row, found, _⟩ := (lists.mem_sourceIds identified).mp member
    rw [List.mem_toFinset, List.mem_map]
    exact ⟨(refVal, row), ExtTreeMap.mem_toList_iff_getElem?_eq_some.mpr found, rfl⟩

/-- The entities that reach a row are the sources of the targets that lie below
it. -/
theorem ListsSources.mem_traverseRefsInverse
    {bound : Nat} (enough : bound = store.size + 2) (entity row : HDict)
    (tag : String) (transitive : Bool) :
    row ∈ traverseRefsInverse entity tag transitive reverse bound ↔
      ∃ start, entity.id = some start ∧ ∃ target, (if transitive then
          ReflTransGen (fun target refVal => ∃ row, store[refVal]? = some row ∧
            RefersTo store tag target row) start.val target
        else target = start.val) ∧ RefersTo store tag target row := by
  unfold traverseRefsInverse
  split
  · rename_i start tagged
    simp only [HDict.id_eq_some_iff.mpr tagged, Option.some.injEq, exists_eq_left']
    cases transitive with
    | false =>
      subst enough
      simp [traverseInverseLoop, lists.mem_iff]
    | true =>
      have few : (store.toList.map Prod.fst).toFinset.card + 1 ≤ bound := by
        have counted := List.toFinset_card_le (store.toList.map Prod.fst)
        rw [List.length_map, ExtTreeMap.length_toList] at counted
        omega
      rw [mem_traverseInverseLoop lists.byValue]
      simp [lists.mem_iff, (lists.forest identified tag).mem_search few, lists.mem_sourceIds
        identified]
  · rename_i untagged
    simp only [List.not_mem_nil, false_iff, not_exists, not_and]
    intro start tagged
    exact absurd (HDict.id_eq_some_iff.mp tagged) (untagged start)

end Store

/-! ## Evaluation depends on the rows -/

section Congruence

variable {Namespace Catalog : Type} (ontology : Ontology Namespace Catalog)
variable {store : ExtTreeMap String HDict} {left right : QueryContext}

/-- Two lists of reached entities agree on what they contain. -/
def SameRows (left right : Option (List HDict)) : Prop :=
  match left, right with
  | none, none => True
  | some left, some right => ∀ row, row ∈ left ↔ row ∈ right
  | _, _ => False

variable (identified : Identified store)

include identified

variable (leftServes : Serves left store)

include leftServes

variable (rightServes : Serves right store)

include rightServes

theorem slotReaches_congr (ns : Namespace) (entity : HDict) (via inverse : Option String) :
    SameRows (slotReaches ontology ns left entity via inverse)
      (slotReaches ontology ns right entity via inverse) := by
  cases via with
  | some =>
    simp only [slotReaches, traverseRefs, leftServes.forward,
      rightServes.forward, leftServes.bound, rightServes.bound]
    exact fun row => Iff.rfl
  | none =>
    cases inverse with
    | none => exact fun row => Iff.rfl
    | some inverse =>
      obtain ⟨_, leftInverse, leftLists⟩ := leftServes.inverse
      obtain ⟨_, rightInverse, rightLists⟩ := rightServes.inverse
      simp only [slotReaches]
      cases resolveInverseVia inverse (ontology.specs ns) with
      | none => trivial
      | some =>
        simp only [leftInverse, rightInverse]
        intro row
        rw [leftLists.mem_traverseRefsInverse identified leftServes.bound,
          rightLists.mem_traverseRefsInverse identified rightServes.bound]

theorem checkQuerySlot_congr (ns : Namespace) (entity : HDict) (spec : Spec) (slot : Slot) :
    checkQuerySlot ontology ns left entity spec slot =
      checkQuerySlot ontology ns right entity spec slot := by
  have same := slotReaches_congr ontology identified leftServes rightServes ns
    entity (strMeta slot "via") (strMeta slot "inverse")
  unfold checkQuerySlot
  simp only
  split
  · rfl
  cases leftReached : slotReaches ontology ns left entity
      (strMeta slot "via") (strMeta slot "inverse") with
  | none =>
    cases rightReached : slotReaches ontology ns right entity
        (strMeta slot "via") (strMeta slot "inverse") with
    | none => rfl
    | some => simp [leftReached, rightReached, SameRows] at same
  | some leftRows =>
    cases rightReached : slotReaches ontology ns right entity
        (strMeta slot "via") (strMeta slot "inverse") with
    | none => simp [leftReached, rightReached, SameRows] at same
    | some rightRows =>
      have members : ∀ row, row ∈ leftRows ↔ row ∈ rightRows := by
        rwa [leftReached, rightReached] at same
      have nonempty (keep : HDict → Bool) : (leftRows.filter keep).isEmpty =
            (rightRows.filter keep).isEmpty := by
        rw [Bool.eq_iff_iff]
        simp [members]
      have all := nonempty fun _ => true
      simp only [List.filter_true] at all
      cases strMeta slot "of" with
      | none => simp only [all]
      | some => simp only [nonempty]

/-- Contexts that serve the same store evaluate filters alike. -/
theorem matchesWithNs_congr (ns : Option Namespace) (entity : HDict) (ast : FilterNode) :
    matchesWithNs ontology left ns entity ast = matchesWithNs ontology right ns entity ast := by
  have forward : left.forward = right.forward := leftServes.forward.trans rightServes.forward.symm
  induction ast with
  | has path | missing path | cmp path op val => simp only [matchesWithNs, resolvePath, forward]
  | and first second firstHypothesis secondHypothesis
  | or first second firstHypothesis secondHypothesis =>
    simp [matchesWithNs, firstHypothesis, secondHypothesis]
  | specMatch spec =>
    cases ns with
    | none => rfl
    | some ns =>
      have slots (spec : Spec) : checkQuerySlots ontology ns left entity spec =
            checkQuerySlots ontology ns right entity spec := by
        unfold checkQuerySlots
        congr 1
        funext slot
        exact checkQuerySlot_congr ontology identified leftServes rightServes ns entity spec slot
      simp [matchesWithNs, fitsSpecTermWith, forward, slots]

end Congruence
end Filter
end Haystack
