import Mathlib

/-!
# Bounded series

A series keeps its items in increasing order of their keys.  Inserting an item
replaces the one with the same key, and trimming keeps the latest items only.  A
series that is trimmed along the way ends with the latest items of the series
that never was: what it drops never comes back.
-/

namespace Haystack
namespace Collections

variable {α : Type u} {κ : Type v} [LinearOrder κ] (key : α → κ)

/-- Binary search: the position of the item with a key, or where it belongs. -/
def binarySearch (items : List α) (wanted : κ) : Except Nat Nat :=
  let index := (items.takeWhile (key · < wanted)).length
  match items[index]? with
  | none => .error index
  | some item => if key item = wanted then .ok index else .error index

/-- Put an item into a series, in place of the one with its key. -/
def upsert (items : List α) (item : α) : List α :=
  match binarySearch key items (key item) with
  | .ok index => items.set index item
  | .error index => items.insertIdx index item

/-- The last items of a series, at most so many. -/
def latest (count : Nat) (items : List α) : List α := items.drop (items.length - count)

/-- The items are in strictly increasing order of their keys. -/
def Increasing (items : List α) : Prop := items.Pairwise fun left right => key left < key right

/-- Keep the last of neighbouring items with the same key. -/
def lastOfEach (items : List α) : List α := items.foldl (fun unique item =>
      match unique.getLast? with
      | none => [item]
      | some last =>
        if key last = key item then unique.dropLast ++ [item]
        else unique ++ [item])
    []

/-- Merge a first item and what follows it with incoming items. -/
def mergeFirst (first : α) (rest : List α → List α) : List α → List α
  | [] => first :: rest []
  | item :: incoming =>
    if key first < key item then first :: rest (item :: incoming)
    else if key first = key item then item :: rest incoming
    else item :: mergeFirst first rest incoming

/-- Merge two series, of which the second replaces items of the first. -/
def mergeSeries : List α → List α → List α
  | [] => fun incoming => incoming
  | first :: items => mergeFirst key first (mergeSeries items)

/-- The last item written under a key. -/
def lastWrite (written : List α) (wanted : κ) : Option α := written.reverse.find? (key · = wanted)

/-- The keys that fewer than so many of the keys exceed. -/
def recent (count : Nat) (keys : Finset κ) : Finset κ :=
  keys.filter fun key => (keys.filter (key < ·)).card < count

/-- The keys of a list of items. -/
def keys (items : List α) : Finset κ := (items.map key).toFinset

variable {key}

@[simp] theorem mem_keys {items : List α} {wanted : κ} :
    wanted ∈ keys key items ↔ ∃ item ∈ items, key item = wanted := by
  simp [keys]

@[simp] theorem keys_append (left right : List α) :
    keys key (left ++ right) = keys key left ∪ keys key right := by
  simp [keys]

/-! ## Inserting -/

theorem binarySearch_cons (first : α) (items : List α) (wanted : κ) :
    binarySearch key (first :: items) wanted = if key first < wanted then
        match binarySearch key items wanted with
        | .ok index => .ok (index + 1)
        | .error index => .error (index + 1)
      else if key first = wanted then .ok 0 else .error 0 := by
  unfold binarySearch
  by_cases below : key first < wanted
  · simp only [List.takeWhile_cons, below, decide_true, if_true,
      List.length_cons, List.getElem?_cons_succ]
    cases items[(items.takeWhile (key · < wanted)).length]? with
    | none => rfl
    | some item =>
      by_cases same : key item = wanted
      · simp [same]
      · simp [same]
  · simp [below]

@[simp] theorem upsert_nil (item : α) : upsert key [] item = [item] := by
  simp [upsert, binarySearch]

theorem upsert_cons (first : α) (items : List α) (item : α) : upsert key (first :: items) item =
      if key first < key item then first :: upsert key items item
      else if key first = key item then item :: items
      else item :: first :: items := by
  unfold upsert
  rw [binarySearch_cons]
  by_cases below : key first < key item
  · simp only [below]
    cases binarySearch key items (key item) <;> rfl
  · by_cases same : key first = key item
    · simp [same]
    · simp [below, same]

variable {items : List α}

theorem Increasing.mem_upsert (increasing : Increasing key items) {item other : α} :
    other ∈ upsert key items item ↔ other = item ∨ other ∈ items ∧ key other ≠ key item := by
  induction items with
  | nil => simp
  | cons first rest ih =>
    obtain ⟨_, sorted⟩ := List.pairwise_cons.mp increasing
    rw [upsert_cons]
    split
    · rename_i below
      rw [List.mem_cons, ih sorted, List.mem_cons]
      constructor
      · rintro (rfl | rfl | ⟨member, different⟩)
        · exact .inr ⟨.inl rfl, below.ne⟩
        · exact .inl rfl
        · exact .inr ⟨.inr member, different⟩
      · rintro (rfl | ⟨rfl | member, different⟩)
        · exact .inr (.inl rfl)
        · exact .inl rfl
        · exact .inr (.inr ⟨member, different⟩)
    · rename_i notBelow
      split
      · grind
      · grind

theorem Increasing.upsert (increasing : Increasing key items) (item : α) :
    Increasing key (upsert key items item) := by
  induction items with
  | nil => simp [Increasing]
  | cons first rest ih =>
    obtain ⟨above, sorted⟩ := List.pairwise_cons.mp increasing
    have sorted : Increasing key rest := sorted
    rw [upsert_cons]
    split
    · rename_i below
      refine List.pairwise_cons.mpr ⟨?_, ih sorted⟩
      intro other member
      rcases sorted.mem_upsert.mp member with rfl | ⟨old, _⟩
      · exact below
      · exact above other old
    · rename_i notBelow
      split
      · rename_i same
        exact List.pairwise_cons.mpr ⟨fun other member => same ▸ above other member, sorted⟩
      · rename_i different
        have less : key item < key first :=
          lt_of_le_of_ne (le_of_not_gt notBelow) (Ne.symm different)
        refine List.pairwise_cons.mpr ⟨?_, increasing⟩
        intro other member
        rcases List.mem_cons.mp member with rfl | old
        · exact less
        · exact less.trans (above other old)

theorem Increasing.foldl_upsert (increasing : Increasing key items) (written : List α) :
    Increasing key (written.foldl (Collections.upsert key) items) := by
  induction written generalizing items with
  | nil => exact increasing
  | cons item written ih =>
    exact ih (increasing.upsert item)

variable {lower upper : List α} {item : α}

/-- An item above all items of the first part goes into the second. -/
theorem upsert_append_right (below : ∀ other ∈ lower, key other < key item) :
    upsert key (lower ++ upper) item = lower ++ upsert key upper item := by
  induction lower with
  | nil => rfl
  | cons first rest ih =>
    rw [List.cons_append, upsert_cons, if_pos (below first List.mem_cons_self),
      ih fun other member =>
        below other (List.mem_cons_of_mem _ member)]
    rfl

/-- An item below all items of the second part goes into the first. -/
theorem upsert_append_left (above : ∀ other ∈ upper, key item < key other) :
    upsert key (lower ++ upper) item = upsert key lower item ++ upper := by
  induction lower with
  | nil =>
    cases upper with
    | nil => rfl
    | cons first =>
      have less := above first List.mem_cons_self
      simp [upsert_cons, less.not_gt, less.ne']
  | cons first rest ih =>
    rw [List.cons_append, upsert_cons, upsert_cons, ih]
    split
    · rfl
    · split <;> rfl

theorem length_le_length_upsert (items : List α) (item : α) :
    items.length ≤ (upsert key items item).length := by
  unfold upsert
  split
  · simp
  · rw [List.length_insertIdx]
    split <;> omega

/-! ## The latest items -/

variable {count : Nat}

theorem latest_eq_self (fits : items.length ≤ count) : latest count items = items := by
  simp [latest, Nat.sub_eq_zero_of_le fits]

theorem latest_append (enough : count ≤ upper.length) :
    latest count (lower ++ upper) = latest count upper := by
  unfold latest
  rw [List.length_append, Nat.add_sub_assoc enough]
  simp

variable (increasing : Increasing key items)

include increasing

/-- Items that are not among the latest do not matter for the latest items after
an insertion. -/
theorem latest_upsert_latest (count : Nat) (item : α) :
    latest count (upsert key (latest count items) item) =
      latest count (upsert key items item) := by
  by_cases fits : items.length ≤ count
  · rw [latest_eq_self fits]
  · have split : items.take (items.length - count) ++ latest count items =
        items := List.take_append_drop _ _
    have full : (latest count items).length = count := by
      simp only [latest, List.length_drop]
      omega
    generalize items.take (items.length - count) = lower at split
    generalize latest count items = upper at split full ⊢
    subst split full
    obtain ⟨_, _, apart⟩ := List.pairwise_append.mp increasing
    by_cases below : ∀ other ∈ lower, key other < key item
    · rw [upsert_append_right below, latest_append (length_le_length_upsert upper item)]
    · push Not at below
      obtain ⟨least, member, reached⟩ := below
      have above : ∀ other ∈ upper, key item < key other := fun other held =>
        reached.trans_lt (apart least member other held)
      have bare : upsert key ([] ++ upper) item = [item] ++ upper := upsert_append_left above
      rw [List.nil_append] at bare
      rw [upsert_append_left above, bare, latest_append le_rfl, latest_append le_rfl]

theorem latest_foldl_upsert_latest (count : Nat) (written : List α) :
    latest count (written.foldl (upsert key) (latest count items)) =
      latest count (written.foldl (upsert key) items) := by
  induction written generalizing items with
  | nil =>
    rw [List.foldl_nil, List.foldl_nil]
    unfold latest
    rw [List.drop_drop, List.length_drop]
    congr 1
    omega
  | cons item written ih =>
    have trimmed : Increasing key (latest count items) :=
      increasing.sublist (List.drop_sublist _ _)
    rw [List.foldl_cons, List.foldl_cons, ← ih (trimmed.upsert item),
      latest_upsert_latest increasing, ih (increasing.upsert item)]

/-- An item is among the latest when few items are above it. -/
theorem Increasing.mem_latest :
    item ∈ latest count items ↔
      item ∈ items ∧ (items.filter (key item < key ·)).length < count := by
  induction items with
  | nil => simp [latest]
  | cons first rest ih =>
    obtain ⟨above, sorted⟩ := List.pairwise_cons.mp increasing
    by_cases fits : rest.length + 1 ≤ count
    · rw [latest_eq_self fits]
      refine ⟨fun member => ⟨member, ?_⟩, And.left⟩
      refine lt_of_lt_of_le ?_ fits
      rw [← List.length_cons (a := first), List.length_filter_lt_length_iff_exists]
      exact ⟨item, member, by simp⟩
    · have dropped : latest count (first :: rest) = latest count rest := by
        unfold latest
        rw [List.length_cons, Nat.succ_sub (by omega), List.drop_succ_cons]
      rw [dropped, ih sorted, List.mem_cons]
      constructor
      · rintro ⟨member, few⟩
        refine ⟨.inr member, ?_⟩
        rwa [List.filter_cons_of_neg (by simpa using (above item member).le)]
      · rintro ⟨rfl | member, few⟩
        · have all : rest.filter (key item < key ·) = rest :=
            List.filter_eq_self.mpr fun other held => by
              simpa using above other held
          rw [List.filter_cons_of_neg (by simp), all] at few
          omega
        · refine ⟨member, ?_⟩
          rwa [List.filter_cons_of_neg (by simpa using (above item member).le)] at few

theorem Increasing.keys_latest (count : Nat) :
    keys key (latest count items) = recent count (keys key items) := by
  have counted (wanted : κ) : ((keys key items).filter (wanted < ·)).card =
        (items.filter (wanted < key ·)).length := by
    have distinct : ((items.filter (wanted < key ·)).map key).Nodup :=
      ((increasing.filter _).map key fun _ _ => id).imp fun less => less.ne
    rw [← List.length_map (f := key), ← List.toFinset_card_of_nodup distinct]
    congr 1
    ext other
    simp only [Finset.mem_filter, mem_keys, List.mem_toFinset, List.mem_map,
      List.mem_filter, decide_eq_true_eq]
    constructor
    · rintro ⟨⟨item, member, rfl⟩, less⟩
      exact ⟨item, ⟨member, less⟩, rfl⟩
    · rintro ⟨item, ⟨member, less⟩, rfl⟩
      exact ⟨⟨item, member, rfl⟩, less⟩
  ext wanted
  simp only [recent, Finset.mem_filter, counted, mem_keys, increasing.mem_latest]
  constructor
  · rintro ⟨item, ⟨member, few⟩, rfl⟩
    exact ⟨⟨item, member, rfl⟩, few⟩
  · rintro ⟨⟨item, member, rfl⟩, few⟩
    exact ⟨item, ⟨member, few⟩, rfl⟩

omit increasing

/-! ## Last writes -/

theorem lastWrite_append_singleton (written : List α) (item : α) (wanted : κ) :
    lastWrite key (written ++ [item]) wanted = if key item = wanted then some item
      else lastWrite key written wanted := by
  simp only [lastWrite]
  split <;> simp_all

/-- The series of everything written holds the last write of each key. -/
theorem mem_foldl_upsert_iff {written : List α} :
    item ∈ written.foldl (upsert key) [] ↔ lastWrite key written (key item) = some item := by
  induction written using List.reverseRecOn with
  | nil => simp [lastWrite]
  | append_singleton written last ih =>
    have increasing : Increasing key (written.foldl (upsert key) []) :=
      Increasing.foldl_upsert List.Pairwise.nil written
    rw [List.foldl_append, List.foldl_cons, List.foldl_nil,
      increasing.mem_upsert, ih, lastWrite_append_singleton]
    split
    · rename_i same
      simp [same, eq_comm]
    · rename_i different
      constructor
      · rintro (rfl | ⟨found, _⟩)
        · exact absurd rfl different
        · exact found
      · exact fun found => .inr ⟨found, Ne.symm different⟩

theorem keys_foldl_upsert (increasing : Increasing key items) (written : List α) :
    keys key (written.foldl (upsert key) items) = keys key items ∪ keys key written := by
  induction written generalizing items with
  | nil => simp [keys]
  | cons item written ih =>
    rw [List.foldl_cons, ih (increasing.upsert item)]
    ext wanted
    simp only [Finset.mem_union, mem_keys, increasing.mem_upsert]
    grind

/-! ## What trimming drops -/

theorem Increasing.keys_sdiff_latest (increasing : Increasing key items) (count : Nat) :
    keys key items \ keys key (latest count items) =
      keys key (items.take (items.length - count)) := by
  have parts : items.take (items.length - count) ++ latest count items = items :=
    List.take_append_drop _ _
  generalize items.take (items.length - count) = lower at parts
  generalize latest count items = upper at parts
  subst parts
  obtain ⟨_, _, apart⟩ := List.pairwise_append.mp increasing
  rw [keys_append, Finset.union_sdiff_right, Finset.sdiff_eq_self_iff_disjoint,
    Finset.disjoint_left]
  intro wanted left right
  obtain ⟨small, inLower, rfl⟩ := mem_keys.mp left
  obtain ⟨large, inUpper, same⟩ := mem_keys.mp right
  exact (apart small inLower large inUpper).ne' same

/-- The last of the first items has the greatest key of them. -/
theorem Increasing.isGreatest_keys_take
    (increasing : Increasing key items) (within : count < items.length) :
    IsGreatest (keys key (items.take (count + 1)) : Set κ) (key items[count]) := by
  constructor
  · rw [Finset.mem_coe, mem_keys]
    exact ⟨items[count], List.mem_take_iff_getElem.mpr ⟨count, by omega, rfl⟩, rfl⟩
  · intro wanted member
    obtain ⟨_, taken, rfl⟩ := mem_keys.mp (Finset.mem_coe.mp member)
    obtain ⟨index, _, rfl⟩ := List.mem_take_iff_getElem.mp taken
    rcases Nat.lt_or_ge index count with earlier | last
    · exact (List.pairwise_iff_getElem.mp increasing index count (by omega) within earlier).le
    · obtain rfl : index = count := by omega
      exact le_rfl

/-- A key that is not recent stays so when keys are added. -/
theorem notMem_recent_union {before : Finset κ} {wanted : κ} (member : wanted ∈ before)
    (old : wanted ∉ recent count before) (added : Finset κ) :
    wanted ∉ recent count (before ∪ added) := by
  intro kept
  refine old (Finset.mem_filter.mpr ⟨member, ?_⟩)
  refine lt_of_le_of_lt (Finset.card_le_card ?_) (Finset.mem_filter.mp kept).2
  exact Finset.filter_subset_filter _ Finset.subset_union_left

/-- The keys dropped so far are those that were dropped before and those that
trimming drops now. -/
theorem union_sdiff_recent (count : Nat) (before added : Finset κ) :
    (before ∪ added) \ recent count (before ∪ added) = (before \ recent count before) ∪
        ((recent count before ∪ added) \ recent count (before ∪ added)) := by
  ext wanted
  have stays : wanted ∈ before → wanted ∉ recent count before →
      wanted ∉ recent count (before ∪ added) := fun member old =>
    notMem_recent_union member old added
  have within : wanted ∈ recent count before → wanted ∈ before :=
    fun member => (Finset.mem_filter.mp member).1
  simp only [Finset.mem_sdiff, Finset.mem_union]
  tauto

end Collections
end Haystack
