import Mathlib

/-!
# Folds over keyed maps

An update loop visits a list of events, and each event rewrites what the state
holds for one key.  What it holds for a key after the loop is then the fold of
the events of that key alone.  When the events are the entries of a tree map,
every key is rewritten at most once.
-/

namespace Haystack
namespace Collections

open Std (ExtTreeMap TransOrd LawfulEqOrd)

variable {κ : Type u} {ν : Type v} {ε : Type w} {ω : Type x} {σ : Type y} {τ : Type z}
variable [DecidableEq κ]

variable {k : κ}

/-- What a loop does to one key is the fold of the events of that key. -/
theorem observe_foldl {step : σ → ε → σ} (observe : σ → τ) (key : ε → κ) (update : ε → τ → τ)
    (stepSpec : ∀ state event, observe (step state event) =
      if key event = k then update event (observe state) else observe state)
    (state : σ) (events : List ε) :
    observe (events.foldl step state) = (events.filter (key · = k)).foldl
        (fun seen event => update event seen) (observe state) := by
  induction events generalizing state with
  | nil => rfl
  | cons event events ih =>
    rw [List.foldl_cons, ih, stepSpec]
    by_cases same : key event = k <;> simp [same]

variable [Ord κ] [TransOrd κ] [LawfulEqOrd κ]

omit [DecidableEq κ] [LawfulEqOrd κ] in
@[simp] theorem toList_empty : (∅ : ExtTreeMap κ ν).toList = [] :=
  ExtTreeMap.toList_eq_nil_iff.mpr rfl

omit [DecidableEq κ] in
/-- Insertion replaces the entry of its key. -/
theorem insert_erase (map : ExtTreeMap κ ν) (k : κ) (value : ν) :
    (map.erase k).insert k value = map.insert k value := by
  apply ExtTreeMap.ext_getElem?
  intro other
  simp only [ExtTreeMap.getElem?_insert, ExtTreeMap.getElem?_erase]
  split <;> rfl

omit [DecidableEq κ] in
/-- Entries of a map have distinct keys. -/
theorem pairwise_toList (map : ExtTreeMap κ ν) :
    map.toList.Pairwise fun left right => left.1 ≠ right.1 := by
  refine map.distinct_keys_toList.imp ?_
  intro left right different same
  exact different (by rw [same]; exact Std.ReflCmp.compare_self)

omit [DecidableEq κ] in
theorem nodup_toList (map : ExtTreeMap κ ν) : map.toList.Nodup :=
  (pairwise_toList map).imp fun different same => different (by rw [same])

variable {map : ExtTreeMap κ ν}

/-- Inserting an absent key adds its entry. -/
theorem toList_insert_perm (absent : map[k]? = none) (value : ν) :
    (map.insert k value).toList.Perm ((k, value) :: map.toList) := by
  have fresh : (k, value) ∉ map.toList := by
    intro member
    rw [ExtTreeMap.mem_toList_iff_getElem?_eq_some, absent] at member
    cases member
  refine (List.perm_ext_iff_of_nodup (nodup_toList _)
    (List.nodup_cons.mpr ⟨fresh, nodup_toList _⟩)).mpr ?_
  rintro ⟨other, stored⟩
  rw [ExtTreeMap.mem_toList_iff_getElem?_eq_some, ExtTreeMap.getElem?_insert]
  by_cases same : k = other
  · subst same
    simp [absent, eq_comm]
  · simp [same, Ne.symm same]

/-- Erasing a key takes its entry out. -/
theorem toList_erase_perm {value : ν} (found : map[k]? = some value) :
    map.toList.Perm ((k, value) :: (map.erase k).toList) := by
  have restored : (map.erase k).insert k value = map := by
    apply ExtTreeMap.ext_getElem?
    intro other
    rw [ExtTreeMap.getElem?_insert, ExtTreeMap.getElem?_erase]
    by_cases same : k = other
    · subst same
      simp [found]
    · simp [same]
  have absent : (map.erase k)[k]? = none := by simp
  have perm := toList_insert_perm absent value
  rwa [restored] at perm

/-- A map has at most one entry for a key, the one its lookup returns. -/
theorem filter_toList_key (map : ExtTreeMap κ ν) (k : κ) :
    map.toList.filter (·.1 = k) = (map[k]?.map (Prod.mk k)).toList := by
  have nodup := nodup_toList map
  cases found : map[k]? with
  | none =>
    simp only [Option.map_none, Option.toList_none, List.filter_eq_nil_iff]
    rintro ⟨other, value⟩ member same
    have lookup := ExtTreeMap.mem_toList_iff_getElem?_eq_some.mp member
    simp only [decide_eq_true_eq] at same
    subst same
    simp [lookup] at found
  | some =>
    apply List.perm_singleton.mp
    refine (List.perm_ext_iff_of_nodup (nodup.filter _) (List.nodup_singleton _)).mpr ?_
    rintro ⟨other, otherValue⟩
    simp only [List.mem_filter, decide_eq_true_eq, List.mem_singleton,
      ExtTreeMap.mem_toList_iff_getElem?_eq_some, Prod.mk.injEq]
    constructor
    · rintro ⟨lookup, rfl⟩
      exact ⟨rfl, Option.some.inj (lookup.symm.trans found)⟩
    · rintro ⟨rfl, rfl⟩
      exact ⟨found, rfl⟩

/-- A loop over the entries of a map touches a key once, with the entry of that
key, and not at all when the key is absent. -/
theorem observe_foldl_toList {step : σ → κ × ω → σ} (observe : σ → τ) (update : κ × ω → τ → τ)
    (stepSpec : ∀ state event, observe (step state event) =
      if event.1 = k then update event (observe state) else observe state)
    (state : σ) (entries : ExtTreeMap κ ω) :
    observe (entries.toList.foldl step state) = (entries[k]?).elim (observe state)
        fun value => update (k, value) (observe state) := by
  rw [observe_foldl observe Prod.fst update stepSpec, filter_toList_key]
  cases entries[k]? <;> rfl

/-- Keep the entries that satisfy a predicate. -/
def retain (keep : κ → ν → Bool) (map : ExtTreeMap κ ν) : ExtTreeMap κ ν := map.toList.foldl
    (fun map entry => if keep entry.1 entry.2 then map else map.erase entry.1)
    map

@[simp] theorem getElem?_retain (keep : κ → ν → Bool) (map : ExtTreeMap κ ν) (k : κ) :
    (retain keep map)[k]? = map[k]?.filter (keep k) := by
  unfold retain
  rw [observe_foldl_toList (·[k]?) fun entry slot => if keep entry.1 entry.2 then slot else none]
  · cases map[k]? <;> simp [Option.filter]
  · intro map entry
    cases kept : keep entry.1 entry.2 <;> by_cases same : entry.1 = k <;>
      simp [ExtTreeMap.getElem?_erase]

omit [DecidableEq κ] in
/-- A map whose keys another one has is not larger. -/
theorem size_le_size {ω : Type*} {small : ExtTreeMap κ ν} {large : ExtTreeMap κ ω}
    (included : ∀ k ∈ small, k ∈ large) : small.size ≤ large.size := by
  rw [← ExtTreeMap.length_keys, ← ExtTreeMap.length_keys]
  apply List.Subperm.length_le
  apply ExtTreeMap.nodup_keys.subperm
  intro k member
  rw [ExtTreeMap.mem_keys] at member ⊢
  exact included k member

variable {start result : ExtTreeMap κ ν}

variable {κ : Type u} {ν : Type v} [Ord κ]

/-- A key lies after a bound, if there is one. -/
def isAfter (bound : Option κ) (key : κ) : Bool := bound.all fun lower => compare lower key == .lt

/-- The entries after a bound. -/
def entriesAfter (bound : Option κ) (entries : List (κ × ν)) : List (κ × ν) :=
  entries.filter fun entry => isAfter bound entry.1

@[simp] theorem entriesAfter_none (entries : List (κ × ν)) :
    entriesAfter none entries = entries := by
  simp [entriesAfter, isAfter]

/-- Keys that increase along a list. -/
def Ordered (entries : List (κ × ν)) : Prop :=
  entries.Pairwise fun left right => compare left.1 right.1 = .lt

theorem ordered_toList [TransOrd κ] (map : ExtTreeMap κ ν) : Ordered map.toList :=
  ExtTreeMap.ordered_keys_toList

variable [TransOrd κ] {bound : Option κ}

theorem isAfter_trans {middle key : κ} (first : isAfter bound middle = true)
    (second : compare middle key = .lt) : isAfter bound key = true := by
  cases bound with
  | none => rfl
  | some =>
    simp only [isAfter, Option.all_some, beq_iff_eq] at first ⊢
    exact Std.TransCmp.lt_trans first second

/-- A scan that resumes after the last key it has seen goes on with the next
entry. -/
theorem entriesAfter_eq_of_split {entries front back : List (κ × ν)} {last : κ × ν}
    (ordered : Ordered entries) (split : entriesAfter bound entries = front ++ last :: back) :
    entriesAfter (some last.1) entries = back := by
  have member : last ∈ entriesAfter bound entries := by
    rw [split]
    simp
  have reached : isAfter bound last.1 = true := (List.mem_filter.mp member).2
  have nested : entriesAfter (some last.1) entries =
      entriesAfter (some last.1) (entriesAfter bound entries) := by
    unfold entriesAfter
    rw [List.filter_filter]
    refine List.filter_congr fun entry _ => ?_
    cases later : isAfter (some last.1) entry.1 with
    | false => rfl
    | true =>
      simp only [isAfter, Option.all_some, beq_iff_eq] at later
      rw [isAfter_trans reached later]
      rfl
  have sorted : Ordered (front ++ last :: back) := by
    rw [← split]
    exact ordered.sublist List.filter_sublist
  obtain ⟨_, tail, across⟩ := List.pairwise_append.mp sorted
  have following := (List.pairwise_cons.mp tail).1
  rw [nested, split, entriesAfter, List.filter_append, List.filter_cons]
  have earlier : front.filter (fun entry => isAfter (some last.1) entry.1) = [] := by
    rw [List.filter_eq_nil_iff]
    intro entry among after
    simp only [isAfter, Option.all_some, beq_iff_eq] at after
    have before := across entry among last List.mem_cons_self
    rw [Std.OrientedCmp.gt_of_lt after] at before
    cases before
  have itself : isAfter (some last.1) last.1 = false := by
    simp [isAfter]
  have later : back.filter (fun entry => isAfter (some last.1) entry.1) = back := by
    rw [List.filter_eq_self]
    intro entry among
    simp only [isAfter, Option.all_some, beq_iff_eq]
    exact following entry among
  rw [earlier, itself, later]
  rfl

end Collections
end Haystack
