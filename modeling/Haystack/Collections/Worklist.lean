import Mathlib

/-!
# Searches

In a list in dependency order, every item comes after its successors.  Such a list
is closed under successors, and none of its items lies on a cycle.

A search keeps a stack of items to visit.  It skips an item that was visited, and
pushes the successors of every other item.  The bound on its iterations is called
fuel.  When an item is the successor of at most one other item, it is pushed at
most once, so fuel for every item suffices, and the visited items are those that
the start reaches.
-/

namespace Haystack
namespace Collections

open Relation (ReflTransGen TransGen)

variable {α : Type u} (next : α → List α)

def Succeeds (a b : α) : Prop := b ∈ next a

/-- Every item comes after its successors. -/
def InOrder (order : List α) : Prop :=
  ∀ before x after, order = before ++ x :: after → ∀ y ∈ next x, y ∈ before

variable {next} {order : List α} {x y : α}

theorem InOrder.nil : InOrder next [] := by
  intro before x after empty
  simp at empty

theorem InOrder.concat (ordered : InOrder next order) (known : ∀ y ∈ next x, y ∈ order) :
    InOrder next (order ++ [x]) := by
  intro before z after same y successor
  obtain rfl | ⟨middle, last, rfl⟩ := List.eq_nil_or_concat' after
  · obtain ⟨rfl, ⟨⟩⟩ := List.append_inj' same rfl
    exact known y successor
  · rw [← List.cons_append, ← List.append_assoc] at same
    exact ordered before z middle (List.append_inj' same rfl).1 y successor

theorem InOrder.of_concat (ordered : InOrder next (order ++ [x])) : InOrder next order := by
  rintro before z after rfl
  exact ordered before z (after ++ [x]) (by simp)

theorem InOrder.mem_of_reaches (ordered : InOrder next order) (member : x ∈ order)
    (reaches : ReflTransGen (Succeeds next) x y) : y ∈ order := by
  induction reaches with
  | refl => exact member
  | tail _ successor ih =>
    obtain ⟨before, after, rfl⟩ := List.append_of_mem ih
    exact List.mem_append_left _ (ordered before _ after rfl _ successor)

/-- No item of the order lies on a cycle. -/
theorem InOrder.acyclic (ordered : InOrder next order) (member : x ∈ order) :
    ¬TransGen (Succeeds next) x x := by
  intro cycle
  induction order using List.reverseRecOn generalizing x with
  | nil => cases member
  | append_singleton order last ih =>
    rcases List.mem_append.mp member with earlier | latest
    · exact ih ordered.of_concat earlier cycle
    · obtain rfl := List.mem_singleton.mp latest
      obtain ⟨y, successor, back⟩ := TransGen.head'_iff.mp cycle
      have earlier := ordered order x [] rfl y successor
      exact ih ordered.of_concat (ordered.of_concat.mem_of_reaches earlier back) cycle

/-! ## Work lists -/

variable [DecidableEq α] (next)

/-- The visited items of a search from a stack. -/
def search : Nat → List α → List α → List α
  | 0, _, visited => visited
  | _ + 1, [], visited => visited
  | fuel + 1, item :: stack, visited =>
    if item ∈ visited then search fuel stack visited
    else
      search fuel ((next item).filter (· ∉ item :: visited) ++ stack) (item :: visited)

variable {next} {fuel : Nat} {visited : List α} {stack : List α}

/-- Visited items stay visited. -/
theorem mem_search_of_visited {x : α} (member : x ∈ visited) :
    x ∈ search next fuel stack visited := by
  induction fuel generalizing stack visited with
  | zero => exact member
  | succ fuel ih =>
    cases stack with
    | nil => exact member
    | cons item =>
      rw [search]
      split
      · exact ih member
      · exact ih (List.mem_cons_of_mem item member)

/-- What holds of the stack and of successors holds of all visited items. -/
theorem search_sound
    {holds : α → Prop} (closed : ∀ a b, holds a → b ∈ next a → holds b) (stacked : ∀ x ∈ stack, holds x)
    (seen : ∀ x ∈ visited, holds x) : ∀ x ∈ search next fuel stack visited, holds x := by
  induction fuel generalizing stack visited with
  | zero => exact seen
  | succ fuel ih =>
    cases stack with
    | nil => exact seen
    | cons item stack =>
      have first := stacked item List.mem_cons_self
      have others x (member : x ∈ stack) : holds x := stacked x (List.mem_cons_of_mem item member)
      rw [search]
      split
      · exact ih others seen
      · refine ih ?_ (List.forall_mem_cons.mpr ⟨first, seen⟩)
        intro x member
        rcases List.mem_append.mp member with pushed | old
        · exact closed item x first (List.mem_of_mem_filter pushed)
        · exact others x old

/-- Every item is the successor of at most one item, and all successors lie in a
finite set. -/
structure Forest (next : α → List α) (items : Finset α) : Prop where
  parent : ∃ parent : α → Option α, ∀ a, ∀ b ∈ next a, parent b = some a
  nodup : ∀ a, (next a).Nodup
  inside : ∀ a, ∀ b ∈ next a, b ∈ items

/-- The items whose predecessor was not visited. -/
private def unpushed (parent : α → Option α) (items : Finset α) (visited : List α) : Finset α :=
  items.filter fun b => ∃ a, parent b = some a ∧ a ∉ visited

variable {items : Finset α}

/-- Visiting an item makes its successors pushed. -/
private theorem card_unpushed (forest : Forest next items) {parent : α → Option α}
    (isParent : ∀ a, ∀ b ∈ next a, parent b = some a) {item : α} (unvisited : item ∉ visited) :
    (next item).length + (unpushed parent items (item :: visited)).card ≤
      (unpushed parent items visited).card := by
  have distinct : (next item).toFinset.card = (next item).length :=
    List.toFinset_card_of_nodup (forest.nodup item)
  have disjoint : Disjoint (next item).toFinset (unpushed parent items (item :: visited)) := by
    rw [Finset.disjoint_left]
    intro b pushed later
    obtain ⟨a, owner, fresh⟩ := (Finset.mem_filter.mp later).2
    have same := (isParent item b (List.mem_toFinset.mp pushed)).symm.trans owner
    exact fresh (Option.some.inj same ▸ List.mem_cons_self)
  rw [← distinct, ← Finset.card_union_of_disjoint disjoint]
  refine Finset.card_le_card (Finset.union_subset ?_ ?_)
  · intro b pushed
    have member := List.mem_toFinset.mp pushed
    exact Finset.mem_filter.mpr ⟨forest.inside item b member, item,
      isParent item b member, unvisited⟩
  · intro b later
    obtain ⟨inside, a, owner, fresh⟩ := Finset.mem_filter.mp later
    exact Finset.mem_filter.mpr ⟨inside, a, owner,
      fun seen => fresh (List.mem_cons_of_mem item seen)⟩

/-- A count of what is left to push: visiting an item uses up one for each of its
successors. -/
def Counts (next : α → List α) (left : List α → Nat) : Prop :=
  ∀ visited item, item ∉ visited → (next item).length + left (item :: visited) ≤ left visited

variable {left : List α → Nat}

/-- With enough fuel, the stack is visited and the result is closed. -/
private theorem search_complete (counts : Counts next left) (fuel : Nat)
    (stack visited : List α) (enough : stack.length + left visited ≤ fuel)
    (closed : ∀ a ∈ visited, ∀ b ∈ next a, b ∈ visited ∨ b ∈ stack) :
    (∀ x ∈ stack, x ∈ search next fuel stack visited) ∧
      ∀ a ∈ search next fuel stack visited, ∀ b ∈ next a, b ∈ search next fuel stack visited := by
  induction fuel generalizing stack visited with
  | zero =>
    obtain rfl : stack = [] := List.eq_nil_of_length_eq_zero (by omega)
    exact ⟨by simp, by simpa [search] using closed⟩
  | succ fuel ih =>
    cases stack with
    | nil => exact ⟨by simp, by simpa [search] using closed⟩
    | cons item stack =>
      rw [List.length_cons] at enough
      rw [search]
      split
      · rename_i seen
        have rest := ih stack visited (by omega) fun a member b child => by
            rcases closed a member b child with old | stacked
            · exact .inl old
            · rcases List.mem_cons.mp stacked with rfl | later
              · exact .inl seen
              · exact .inr later
        refine ⟨?_, rest.2⟩
        intro x member
        rcases List.mem_cons.mp member with rfl | later
        · exact mem_search_of_visited seen
        · exact rest.1 x later
      · rename_i unvisited
        have fewer := counts visited item unvisited
        have pushed := List.length_filter_le (· ∉ item :: visited) (next item)
        have rest := ih ((next item).filter (· ∉ item :: visited) ++ stack) (item :: visited)
          (by rw [List.length_append]; omega) fun a member b child => by
            by_cases old : b ∈ item :: visited
            · exact .inl old
            · refine .inr (List.mem_append.mpr ?_)
              rcases List.mem_cons.mp member with rfl | earlier
              · exact .inl (List.mem_filter.mpr ⟨child, by simpa using old⟩)
              · rcases closed a earlier b child with seen | stacked
                · exact absurd (List.mem_cons_of_mem item seen) old
                · exact .inr ((List.mem_cons.mp stacked).resolve_left
                    fun same => old (same ▸ List.mem_cons_self))
        refine ⟨?_, rest.2⟩
        intro x member
        rcases List.mem_cons.mp member with rfl | later
        · exact mem_search_of_visited List.mem_cons_self
        · exact rest.1 x (List.mem_append_right _ later)

/-- A search with enough fuel visits exactly what the start reaches. -/
theorem mem_search (counts : Counts next left) (enough : left [] + 1 ≤ fuel) (start x : α) :
    x ∈ search next fuel [start] [] ↔ ReflTransGen (fun a b => b ∈ next a) start x := by
  obtain ⟨stacked, closed⟩ := search_complete counts fuel
    [start] [] (by rw [List.length_singleton]; omega) (by simp)
  constructor
  · refine search_sound (fun a b reached child => reached.tail child) ?_ (by simp) x
    intro y member
    obtain rfl := List.mem_singleton.mp member
    exact .refl
  · intro reached
    induction reached with
    | refl => exact stacked start (List.mem_singleton_self start)
    | tail _ child ih =>
      exact closed _ ih _ child

/-- In a forest, fuel for every item suffices. -/
theorem Forest.mem_search (forest : Forest next items)
    (enough : items.card + 1 ≤ fuel) (start x : α) :
    x ∈ search next fuel [start] [] ↔ ReflTransGen (fun a b => b ∈ next a) start x := by
  obtain ⟨parent, isParent⟩ := forest.parent
  have few : (unpushed parent items []).card ≤ items.card := Finset.card_filter_le _ _
  have counts : Counts next fun visited => (unpushed parent items visited).card :=
    fun _ _ unvisited => card_unpushed forest isParent unvisited
  exact Collections.mem_search counts (by omega) start x

end Collections
end Haystack
