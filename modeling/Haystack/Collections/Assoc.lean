import Mathlib.Data.List.Nodup

/-!
# Sorted association lists

Finite maps as lists of entries in the order of their keys.  Inserting keeps the
order, and a list that is already in order is what inserting its entries one by
one builds.
-/

namespace Haystack
namespace Collections
namespace Assoc

open Std

variable {κ : Type u} {ν : Type v} {ω : Type w} [Ord κ]

/-- The value of the first entry with a key. -/
def lookup (key : κ) : List (κ × ν) → Option ν
  | [] => none
  | (other, value) :: rest =>
    match compare key other with
    | .eq => some value
    | _ => lookup key rest

/-- Insert or overwrite a key. -/
def insert (key : κ) (value : ν) : List (κ × ν) → List (κ × ν)
  | [] => [(key, value)]
  | (other, old) :: rest =>
    match compare key other with
    | .lt => (key, value) :: (other, old) :: rest
    | .eq => (key, value) :: rest
    | .gt => (other, old) :: insert key value rest

/-- Insert entries one by one. -/
def ofList (entries : List (κ × ν)) : List (κ × ν) :=
  entries.foldl (fun map entry => insert entry.1 entry.2 map) []

/-- Every key is below the keys after it. -/
def Sorted (entries : List (κ × ν)) : Prop :=
  entries.Pairwise fun left right => compare left.1 right.1 = .lt

instance (entries : List (κ × ν)) : Decidable (Sorted entries) :=
  inferInstanceAs (Decidable (entries.Pairwise _))

@[simp] theorem sorted_nil : Sorted ([] : List (κ × ν)) := List.Pairwise.nil

theorem sorted_iff_keys (entries : List (κ × ν)) :
    Sorted entries ↔ (entries.map Prod.fst).Pairwise fun left right =>
        compare left right = .lt := by
  rw [List.pairwise_map]
  rfl

/-- The order of the entries depends on their keys only. -/
theorem sorted_congr_keys {left : List (κ × ν)} {right : List (κ × ω)}
    (keys : left.map Prod.fst = right.map Prod.fst) : Sorted left ↔ Sorted right := by
  rw [sorted_iff_keys, sorted_iff_keys, keys]

@[simp] theorem lookup_nil (key : κ) : lookup key ([] : List (κ × ν)) = none := rfl

variable {value : ν} {key : κ} {map : List (κ × ν)} {entry : κ × ν}

/-- A key that is inserted is the only new one. -/
theorem mem_insert (member : entry ∈ insert key value map) :
    entry = (key, value) ∨ entry ∈ map := by
  induction map with
  | nil =>
    simpa [insert] using member
  | cons first rest ih =>
    rw [insert] at member
    cases order : compare key first.1 with
    | lt =>
      rw [order] at member
      simpa using member
    | eq =>
      rw [order] at member
      rcases List.mem_cons.mp member with rfl | later
      · exact .inl rfl
      · exact .inr (List.mem_cons_of_mem _ later)
    | gt =>
      rw [order] at member
      rcases List.mem_cons.mp member with rfl | later
      · exact .inr List.mem_cons_self
      · rcases ih later with same | earlier
        · exact .inl same
        · exact .inr (List.mem_cons_of_mem _ earlier)

/-- A key below all others goes first. -/
theorem insert_of_forall_gt (below : ∀ entry ∈ map, compare key entry.1 = .lt) :
    insert key value map = (key, value) :: map := by
  cases map with
  | nil => rfl
  | cons first =>
    rw [insert, below first List.mem_cons_self]

/-- What is in a map that entries were inserted into is one of them or was in it
before. -/
theorem mem_foldl_insert {entries : List (κ × ν)}
    (member : entry ∈ entries.foldl (fun map entry => insert entry.1 entry.2 map) map) :
    entry ∈ entries ∨ entry ∈ map := by
  induction entries generalizing map with
  | nil => exact .inr member
  | cons first rest ih =>
    rcases ih member with later | earlier
    · exact .inl (List.mem_cons_of_mem _ later)
    · rcases mem_insert earlier with rfl | earlier
      · exact .inl List.mem_cons_self
      · exact .inr earlier

theorem Sorted.nodup_keys [LawfulEqOrd κ] (sorted : Sorted map) : (map.map Prod.fst).Nodup := by
  rw [List.nodup_iff_pairwise_ne, List.pairwise_map]
  refine sorted.imp fun {left right} below same => ?_
  rw [same, ReflOrd.compare_self] at below
  cases below

section Lookup

variable [LawfulEqOrd κ] [DecidableEq κ]

/-- The first entry is found under its key, and any other key is looked up in the
rest. -/
theorem lookup_cons (key other : κ) (value : ν) (rest : List (κ × ν)) :
    lookup key ((other, value) :: rest) =
      if other = key then some value else lookup key rest := by
  rw [lookup]
  by_cases same : other = key
  · subst same
    simp
  · have different : compare key other ≠ .eq := fun equal =>
      same (LawfulEqOrd.compare_eq_iff_eq.mp equal).symm
    rw [if_neg same]
    split
    · exact absurd ‹_› different
    · rfl

variable {key : κ} {map : List (κ × ν)}

/-- A key without an entry is not found. -/
theorem lookup_eq_none (absent : key ∉ map.map Prod.fst) : lookup key map = none := by
  induction map with
  | nil => rfl
  | cons first rest ih =>
    rw [List.map_cons, List.mem_cons, not_or] at absent
    rw [lookup_cons, if_neg (Ne.symm absent.1), ih absent.2]

/-- A value that is found is that of an entry. -/
theorem mem_of_lookup_eq_some (found : lookup key map = some value) : (key, value) ∈ map := by
  induction map with
  | nil => cases found
  | cons first rest ih =>
    obtain ⟨_, _⟩ := first
    rw [lookup_cons] at found
    split at found
    · next same =>
      cases found
      rw [same]
      exact List.mem_cons_self
    · exact List.mem_cons_of_mem _ (ih found)

/-- An inserted key is found, and every other key is looked up as before. -/
theorem lookup_insert (key other : κ) (value : ν) (map : List (κ × ν)) :
    lookup key (insert other value map) =
      if other = key then some value else lookup key map := by
  induction map with
  | nil => simp [insert, lookup_cons]
  | cons first rest ih =>
    obtain ⟨present, _⟩ := first
    rw [insert]
    cases order : compare other present with
    | lt => simp [lookup_cons]
    | eq =>
      obtain rfl := LawfulEqOrd.compare_eq_iff_eq.mp order
      simp only [lookup_cons]
      split <;> rfl
    | gt =>
      have different : present ≠ other := by
        rintro rfl
        simp at order
      simp only [lookup_cons, ih]
      by_cases same : other = key
      · subst same
        simp [different]
      · simp [same]

variable {entries : List (κ × ν)}

/-- A key that is not inserted is looked up as before. -/
theorem lookup_foldl_insert (map : List (κ × ν)) (absent : key ∉ entries.map Prod.fst) :
    lookup key (entries.foldl
      (fun map entry => insert entry.1 entry.2 map) map) = lookup key map := by
  induction entries generalizing map with
  | nil => rfl
  | cons first rest ih =>
    rw [List.map_cons, List.mem_cons, not_or] at absent
    rw [List.foldl_cons, ih _ absent.2, lookup_insert, if_neg (Ne.symm absent.1)]

/-- What is listed once under a key is what is found. -/
theorem lookup_eq_some_of_mem (nodup : (map.map Prod.fst).Nodup) (member : (key, value) ∈ map) :
    lookup key map = some value := by
  induction map with
  | nil => cases member
  | cons first rest ih =>
    obtain ⟨other, _⟩ := first
    obtain ⟨fresh, nodup⟩ := List.nodup_cons.mp nodup
    rw [lookup_cons]
    rcases List.mem_cons.mp member with same | member
    · cases same
      rw [if_pos rfl]
    · have different : other ≠ key := by
        rintro rfl
        exact fresh (List.mem_map.mpr ⟨_, member, rfl⟩)
      rw [if_neg different, ih nodup member]

/-- What is inserted under a key of its own is found. -/
theorem lookup_ofList (nodup : (entries.map Prod.fst).Nodup) (member : (key, value) ∈ entries) :
    lookup key (ofList entries) = some value := by
  have folded : ∀ map, lookup key (entries.foldl
      (fun map entry => insert entry.1 entry.2 map) map) = some value := by
    induction entries with
    | nil => cases member
    | cons first rest ih =>
      intro map
      obtain ⟨fresh, nodup⟩ := List.nodup_cons.mp nodup
      rw [List.foldl_cons]
      rcases List.mem_cons.mp member with rfl | member
      · rw [lookup_foldl_insert _ fresh, lookup_insert, if_pos rfl]
      · exact ih nodup member _
  exact folded []

/-- Entries under keys of their own are the entries of the map. -/
theorem mem_ofList (nodup : (entries.map Prod.fst).Nodup) :
    entry ∈ ofList entries ↔ entry ∈ entries := by
  refine ⟨fun member => ?_, fun member => ?_⟩
  · rcases mem_foldl_insert member with member | member
    · exact member
    · cases member
  · exact mem_of_lookup_eq_some (lookup_ofList nodup member)

end Lookup

section Order

variable [TransOrd κ] {map : List (κ × ν)}

/-- A key above all others goes last. -/
theorem insert_of_forall_lt (above : ∀ entry ∈ map, compare entry.1 key = .lt) :
    insert key value map = map ++ [(key, value)] := by
  induction map with
  | nil => rfl
  | cons first rest ih =>
    have order : compare key first.1 = .gt :=
      OrientedCmp.gt_of_lt (above first List.mem_cons_self)
    rw [insert, order]
    simp only [List.cons_append, List.cons.injEq, true_and]
    exact ih fun entry member =>
      above entry (List.mem_cons_of_mem _ member)

variable {entries : List (κ × ν)}

private theorem foldl_insert_of_sorted
    {front : List (κ × ν)} (sorted : Sorted (front ++ entries)) :
    entries.foldl (fun map entry => insert entry.1 entry.2 map) front = front ++ entries := by
  induction entries generalizing front with
  | nil => simp
  | cons first rest ih =>
    obtain ⟨-, -, across⟩ := List.pairwise_append.mp sorted
    have last : insert first.1 first.2 front = front ++ [first] :=
      insert_of_forall_lt fun entry member =>
        across entry member first List.mem_cons_self
    rw [List.foldl_cons, last, ih]
    · simp
    · simpa using sorted

/-- Entries in order are what inserting them builds. -/
theorem ofList_of_sorted (sorted : Sorted entries) : ofList entries = entries :=
  foldl_insert_of_sorted sorted

/-- Inserting keeps the order of the keys. -/
theorem Sorted.insert [LawfulEqOrd κ] (sorted : Sorted map) :
    Sorted (Assoc.insert key value map) := by
  induction map with
  | nil => simp [Assoc.insert, Sorted]
  | cons first rest ih =>
    obtain ⟨below, later⟩ := List.pairwise_cons.mp sorted
    rw [Assoc.insert]
    cases order : compare key first.1 with
    | lt =>
      refine List.pairwise_cons.mpr ⟨?_, sorted⟩
      intro entry member
      rcases List.mem_cons.mp member with rfl | member
      · exact order
      · exact TransCmp.lt_trans order (below entry member)
    | eq =>
      refine List.pairwise_cons.mpr ⟨?_, later⟩
      intro entry member
      rw [LawfulEqOrd.compare_eq_iff_eq.mp order]
      exact below entry member
    | gt =>
      refine List.pairwise_cons.mpr ⟨?_, ih later⟩
      intro entry member
      rcases mem_insert member with rfl | member
      · exact OrientedCmp.lt_of_gt order
      · exact below entry member

/-- Inserting entries one by one builds a map in order. -/
theorem sorted_ofList [LawfulEqOrd κ] (entries : List (κ × ν)) : Sorted (ofList entries) := by
  have folded : ∀ (entries map : List (κ × ν)), Sorted map →
      Sorted (entries.foldl (fun map entry => insert entry.1 entry.2 map) map) := by
    intro entries
    induction entries with
    | nil => exact fun _ sorted => sorted
    | cons first rest ih =>
      exact fun _ sorted => ih _ sorted.insert
  exact folded entries [] sorted_nil

section Filter

variable [LawfulEqOrd κ] [DecidableEq κ] {skip : κ}

/-- Leaving out a key after an insertion leaves it out before. -/
theorem filter_insert (sorted : Sorted map) :
    (insert key value map).filter (fun entry => entry.1 ≠ skip) =
      if key = skip then map.filter (fun entry => entry.1 ≠ skip)
      else insert key value (map.filter fun entry => entry.1 ≠ skip) := by
  induction map with
  | nil => by_cases same : key = skip <;> simp [insert, same]
  | cons first rest ih =>
    obtain ⟨below, later⟩ := List.pairwise_cons.mp sorted
    have tail := ih later
    rw [insert]
    by_cases same : key = skip
    · subst same
      rw [if_pos rfl] at tail ⊢
      cases order : compare key first.1 with
      | lt => simp
      | eq => simp [LawfulEqOrd.compare_eq_iff_eq.mp order]
      | gt => rw [List.filter_cons, List.filter_cons, tail]
    · rw [if_neg same] at tail ⊢
      cases order : compare key first.1 with
      | lt =>
        rw [List.filter_cons_of_pos (by simpa using same)]
        refine (insert_of_forall_gt ?_).symm
        intro entry member
        rcases List.mem_cons.mp (List.mem_of_mem_filter member) with rfl | member
        · exact order
        · exact TransCmp.lt_trans order (below entry member)
      | eq =>
        have equal := LawfulEqOrd.compare_eq_iff_eq.mp order
        have kept : first.1 ≠ skip := equal ▸ same
        rw [List.filter_cons_of_pos (by simpa using same),
          List.filter_cons_of_pos (by simpa using kept), insert, order]
      | gt =>
        by_cases dropped : first.1 = skip
        · rw [List.filter_cons_of_neg (by simpa using dropped),
            List.filter_cons_of_neg (by simpa using dropped), tail]
        · rw [List.filter_cons_of_pos (by simpa using dropped),
            List.filter_cons_of_pos (by simpa using dropped), insert, order,
            tail]

/-- Entries inserted into a map of one key, without that key. -/
theorem filter_foldl_insert (sorted : Sorted map) :
    (entries.foldl (fun map entry => insert entry.1 entry.2 map) map).filter
        (fun entry => entry.1 ≠ skip) =
      (entries.filter fun entry => entry.1 ≠ skip).foldl
        (fun map entry => insert entry.1 entry.2 map)
        (map.filter fun entry => entry.1 ≠ skip) := by
  induction entries generalizing map with
  | nil => rfl
  | cons first rest ih =>
    rw [List.foldl_cons, ih sorted.insert, filter_insert sorted]
    by_cases same : first.1 = skip
    · rw [if_pos same, List.filter_cons_of_neg (by simpa using same)]
    · rw [if_neg same, List.filter_cons_of_pos (by simpa using same), List.foldl_cons]

/-- The entries in order that a map is built from, beside one key. -/
theorem filter_foldl_insert_singleton (sorted : Sorted entries) (value : ν) :
    (entries.foldl (fun map entry => insert entry.1 entry.2 map)
        [(skip, value)]).filter (fun entry => entry.1 ≠ skip) =
      entries.filter fun entry => entry.1 ≠ skip := by
  have single : Sorted [(skip, value)] := List.pairwise_singleton _ _
  rw [filter_foldl_insert single, List.filter_cons_of_neg (by simp)]
  exact ofList_of_sorted (sorted.filter _)

end Filter

/-! ## Maps by their lookups -/

section Extensionality

variable [LawfulEqOrd κ]

/-- Entries under keys of their own are reordered. -/
theorem ofList_perm [DecidableEq κ] (nodup : (entries.map Prod.fst).Nodup) :
    (ofList entries).Perm entries :=
  (List.perm_ext_iff_of_nodup (sorted_ofList entries).nodup_keys.of_map
    nodup.of_map).mpr fun _ => mem_ofList nodup

end Extensionality
end Order
end Assoc
end Collections
end Haystack
