import Haystack.Graph.EntityGraph

/-!
# Rows and numeric ids

The rows of a graph, the bijection between their ref values and numeric ids, and
the ids that are free.  A step adds, replaces or drops one row; native operations
and the changes of a batch are both sequences of such steps.
-/

namespace Haystack
namespace Graph

open Std (ExtTreeMap)
open Collections

/-- The rows of a graph and their numeric ids. -/
@[ext] structure Rows where
  entities : ExtTreeMap String HDict
  idMap : ExtTreeMap String Nat
  reverseId : ExtTreeMap Nat String
  nextId : Nat
  freeIds : List Nat

/-- The `id` tag of a row is a reference to a ref value. -/
def IdentifiedBy (refVal : String) (row : HDict) : Prop :=
  ∃ r : HRef, row.get "id" = some (.ref r) ∧ r.val = refVal

namespace Rows

/-- The row of a numeric id. -/
def live (rows : Rows) (n : Nat) : Option HDict :=
  (rows.reverseId[n]?).bind fun refVal => rows.entities[refVal]?

/-- The id maps are inverse to each other and cover exactly the rows, and every
id below the next one is either live or free. -/
structure WellFormed (rows : Rows) : Prop where
  inverse : ∀ (refVal : String) (n : Nat),
    rows.idMap[refVal]? = some n ↔ rows.reverseId[n]? = some refVal
  covered : ∀ refVal : String, rows.idMap[refVal]?.isSome = rows.entities[refVal]?.isSome
  identified : ∀ (refVal : String) (row : HDict),
    rows.entities[refVal]? = some row → IdentifiedBy refVal row
  liveOrFree : ∀ n, n < rows.nextId ↔ rows.reverseId[n]?.isSome = true ∨ n ∈ rows.freeIds
  notBoth : ∀ n ∈ rows.freeIds, rows.reverseId[n]? = none
  freeNodup : rows.freeIds.Nodup
  bounded : rows.nextId ≤ maxEntityId + 1

/-- Take a recycled id, or the next one. -/
def takeId (rows : Rows) : Option (Nat × Rows) :=
  match rows.freeIds with
  | recycled :: rest => some (recycled, { rows with freeIds := rest })
  | [] =>
    if rows.nextId > maxEntityId then none
    else some (rows.nextId, { rows with nextId := rows.nextId + 1 })

variable {rows : Rows} {n : Nat}

/-- Taking an id leaves the rows and the id maps alone. -/
theorem taken_eq {taken : Rows} (free : rows.takeId = some (n, taken)) :
    taken.entities = rows.entities ∧ taken.idMap = rows.idMap ∧
      taken.reverseId = rows.reverseId := by
  unfold takeId at free
  split at free
  · cases free
    exact ⟨rfl, rfl, rfl⟩
  · split at free <;> cases free
    exact ⟨rfl, rfl, rfl⟩

/-- Store a new row under a numeric id. -/
def store (rows : Rows) (refVal : String) (n : Nat) (row : HDict) : Rows :=
  { rows with
    entities := rows.entities.insert refVal row
    idMap := rows.idMap.insert refVal n
    reverseId := rows.reverseId.insert n refVal }

/-- Replace a row. -/
def replace (rows : Rows) (refVal : String) (row : HDict) : Rows :=
  { rows with entities := rows.entities.insert refVal row }

/-- Drop a row and free its numeric id. -/
def drop (rows : Rows) (refVal : String) (n : Nat) : Rows :=
  { rows with
    entities := rows.entities.erase refVal
    idMap := rows.idMap.erase refVal
    reverseId := rows.reverseId.erase n
    freeIds := n :: rows.freeIds }

/-- One change of the rows. -/
inductive Step : Rows → IndexChange → Rows → Prop
  | add {rows taken : Rows} {refVal : String} {n : Nat} {row : HDict}
      (absent : rows.entities[refVal]? = none)
      (identified : IdentifiedBy refVal row)
      (free : rows.takeId = some (n, taken)) :
      Step rows ⟨n, none, some row⟩ (taken.store refVal n row)
  | replace {rows : Rows} {refVal : String} {n : Nat} {old row : HDict}
      (mapped : rows.idMap[refVal]? = some n)
      (found : rows.entities[refVal]? = some old)
      (identified : IdentifiedBy refVal row) :
      Step rows ⟨n, some old, some row⟩ (rows.replace refVal row)
  | drop {rows : Rows} {refVal : String} {n : Nat} {old : HDict}
      (mapped : rows.idMap[refVal]? = some n)
      (found : rows.entities[refVal]? = some old) :
      Step rows ⟨n, some old, none⟩ (rows.drop refVal n)

/-- A sequence of changes. -/
inductive Steps : Rows → List IndexChange → Rows → Prop
  | nil {rows : Rows} : Steps rows [] rows
  | snoc {rows middle after : Rows} {changes : List IndexChange} {change : IndexChange}
      (steps : Steps rows changes middle)
      (step : Step middle change after) :
      Steps rows (changes ++ [change]) after

/-! ## Fresh ids -/

/-- What taking an id changes: the id is no longer free, and nothing else. -/
structure Taken (rows : Rows) (n : Nat) (taken : Rows) : Prop where
  entities : taken.entities = rows.entities
  idMap : taken.idMap = rows.idMap
  reverseId : taken.reverseId = rows.reverseId
  fresh : rows.reverseId[n]? = none
  freed : ∀ m, m ∈ taken.freeIds ↔ m ∈ rows.freeIds ∧ m ≠ n
  nodup : taken.freeIds.Nodup
  below : ∀ m, m < taken.nextId ↔ m < rows.nextId ∨ m = n
  bounded : taken.nextId ≤ maxEntityId + 1

theorem WellFormed.taken {taken : Rows} (wellFormed : rows.WellFormed)
    (free : rows.takeId = some (n, taken)) : Taken rows n taken := by
  unfold takeId at free
  have nodup := wellFormed.freeNodup
  cases ids : rows.freeIds with
  | nil =>
    rw [ids] at free
    simp only at free
    split at free
    · cases free
    · obtain ⟨rfl, rfl⟩ := Prod.mk.inj (Option.some.inj free)
      have notBelow := wellFormed.liveOrFree rows.nextId
      refine ⟨rfl, rfl, rfl, ?_, ?_, ?_, ?_, ?_⟩
      · cases found : rows.reverseId[rows.nextId]? with
        | none => rfl
        | some => simp [found] at notBelow
      · simp [ids]
      · simp
      · simp only
        omega
      · simp only
        omega
  | cons recycled =>
    rw [ids] at free nodup
    obtain ⟨rfl, rfl⟩ := Prod.mk.inj (Option.some.inj free)
    rw [List.nodup_cons] at nodup
    have notBelow := (wellFormed.liveOrFree recycled).mpr (Or.inr (by simp [ids]))
    refine ⟨rfl, rfl, rfl, ?_, ?_, nodup.2, ?_, wellFormed.bounded⟩
    · exact wellFormed.notBoth recycled (by simp [ids])
    · intro m
      simp only [ids, List.mem_cons]
      constructor
      · intro member
        exact ⟨Or.inr member, fun same => nodup.1 (same ▸ member)⟩
      · rintro ⟨rfl | member, different⟩
        · exact absurd rfl different
        · exact member
    · intro m
      constructor
      · exact Or.inl
      · rintro (below | rfl)
        · exact below
        · exact notBelow

/-! ## Steps keep rows well formed -/

theorem WellFormed.live_eq_some_iff (wellFormed : rows.WellFormed) {row : HDict} :
    rows.live n = some row ↔ ∃ refVal : String, rows.idMap[refVal]? = some n ∧
        rows.entities[refVal]? = some row := by
  simp [live, Option.bind_eq_some_iff, wellFormed.inverse]

variable {refVal : String}

theorem WellFormed.unmapped
    (wellFormed : rows.WellFormed) (absent : rows.entities[refVal]? = none) :
    rows.idMap[refVal]? = none := by
  have covered := wellFormed.covered refVal
  rw [absent, Option.isSome_none, Option.isSome_eq_false_iff,
    Option.isNone_iff_eq_none] at covered
  exact covered

theorem WellFormed.store {taken : Rows} (wellFormed : rows.WellFormed) {row : HDict}
    (absent : rows.entities[refVal]? = none)
    (identified : IdentifiedBy refVal row) (took : Taken rows n taken) :
    (taken.store refVal n row).WellFormed := by
  have unmapped := wellFormed.unmapped absent
  refine ⟨?_, ?_, ?_, ?_, ?_, took.nodup, took.bounded⟩
  · intro other m
    simp only [Rows.store, took.idMap, took.reverseId, ExtTreeMap.getElem?_insert]
    by_cases sameRef : refVal = other
    · subst sameRef
      by_cases sameId : n = m
      · simp [sameId]
      · have notOwner : rows.reverseId[m]? ≠ some refVal := by
          rw [Ne, ← wellFormed.inverse, unmapped]
          simp
        simp [notOwner]
    · by_cases sameId : n = m
      · subst sameId
        have notOwner : rows.idMap[other]? ≠ some n := by
          rw [Ne, wellFormed.inverse, took.fresh]
          simp
        simp [notOwner]
      · simpa [sameRef, sameId] using wellFormed.inverse other m
  · intro other
    simp only [Rows.store, took.idMap, took.entities, ExtTreeMap.getElem?_insert]
    by_cases same : refVal = other
    · simp [same]
    · simpa [same] using wellFormed.covered other
  · intro other found
    simp only [Rows.store, took.entities, ExtTreeMap.getElem?_insert, compare_eq_iff_eq]
    by_cases same : refVal = other
    · subst same
      simp only [if_true, Option.some.injEq]
      rintro rfl
      exact identified
    · simpa [same] using wellFormed.identified other found
  · intro m
    simp only [Rows.store, took.reverseId, took.below, took.freed, wellFormed.liveOrFree]
    by_cases same : n = m
    · simp [same]
    · simp [same, Ne.symm same]
  · intro m member
    obtain ⟨wasFree, different⟩ := (took.freed m).mp member
    simp only [Rows.store, took.reverseId]
    simpa [Ne.symm different] using wellFormed.notBoth m wasFree

theorem WellFormed.replace (wellFormed : rows.WellFormed) {old row : HDict}
    (found : rows.entities[refVal]? = some old) (identified : IdentifiedBy refVal row) :
    (rows.replace refVal row).WellFormed := by
  refine ⟨wellFormed.inverse, ?_, ?_, wellFormed.liveOrFree,
    wellFormed.notBoth, wellFormed.freeNodup, wellFormed.bounded⟩
  · intro other
    simp only [Rows.replace, wellFormed.covered]
    by_cases same : refVal = other
    · subst same
      simp [found]
    · simp [same]
  · intro other stored
    simp only [Rows.replace, ExtTreeMap.getElem?_insert, compare_eq_iff_eq]
    by_cases same : refVal = other
    · subst same
      simp only [if_true, Option.some.injEq]
      rintro rfl
      exact identified
    · simpa [same] using wellFormed.identified other stored

theorem WellFormed.drop (wellFormed : rows.WellFormed) (mapped : rows.idMap[refVal]? = some n) :
    (rows.drop refVal n).WellFormed := by
  have owner := (wellFormed.inverse refVal n).mp mapped
  refine ⟨?_, ?_, ?_, ?_, ?_, ?_, wellFormed.bounded⟩
  · intro other m
    simp only [Rows.drop, ExtTreeMap.getElem?_erase]
    by_cases sameRef : refVal = other
    · subst sameRef
      by_cases sameId : n = m
      · simp [sameId]
      · have notOwner : rows.reverseId[m]? ≠ some refVal := by
          rw [Ne, ← wellFormed.inverse, mapped]
          simpa using sameId
        simp [notOwner]
    · by_cases sameId : n = m
      · subst sameId
        have notOwner : rows.idMap[other]? ≠ some n := by
          rw [Ne, wellFormed.inverse, owner]
          simpa using sameRef
        simp [notOwner]
      · simpa [sameRef, sameId] using wellFormed.inverse other m
  · intro other
    simp only [Rows.drop, ExtTreeMap.getElem?_erase]
    by_cases same : refVal = other
    · simp [same]
    · simpa [same] using wellFormed.covered other
  · intro other stored
    simp only [Rows.drop, ExtTreeMap.getElem?_erase]
    by_cases same : refVal = other
    · simp [same]
    · simpa [same] using wellFormed.identified other stored
  · intro m
    simp only [Rows.drop, wellFormed.liveOrFree]
    by_cases same : n = m
    · subst same
      simp [owner]
    · simp [same, Ne.symm same]
  · intro m member
    simp only [Rows.drop]
    by_cases same : n = m
    · simp [same]
    · have wasFree : m ∈ rows.freeIds := by
        simpa [Rows.drop, Ne.symm same] using member
      simpa [same] using wellFormed.notBoth m wasFree
  · simp only [Rows.drop, List.nodup_cons]
    refine ⟨fun member => ?_, wellFormed.freeNodup⟩
    rw [wellFormed.notBoth n member] at owner
    cases owner

variable {after : Rows} {change : IndexChange}

theorem Step.wellFormed (step : Step rows change after) (wellFormed : rows.WellFormed) :
    after.WellFormed := by
  cases step with
  | add absent identified free =>
    exact wellFormed.store absent identified (wellFormed.taken free)
  | replace mapped found identified => exact wellFormed.replace found identified
  | drop mapped => exact wellFormed.drop mapped

/-! ## Steps change one live row -/

theorem live_store {taken : Rows} (wellFormed : rows.WellFormed) (row : HDict)
    (absent : rows.entities[refVal]? = none) (took : Taken rows n taken) :
    (taken.store refVal n row).live = Function.update rows.live n (some row) := by
  funext m
  simp only [live, store, took.entities, took.reverseId,
    ExtTreeMap.getElem?_insert, compare_eq_iff_eq]
  by_cases same : n = m
  · subst same
    simp
  · simp only [same, Function.update_of_ne (Ne.symm same)]
    cases owner : rows.reverseId[m]? with
    | none => simp [live, owner]
    | some other =>
      have different : refVal ≠ other := by
        rintro rfl
        rw [← wellFormed.inverse, wellFormed.unmapped absent] at owner
        cases owner
      simp [live, owner, different]

theorem live_replace (wellFormed : rows.WellFormed) (row : HDict)
    (mapped : rows.idMap[refVal]? = some n) :
    (rows.replace refVal row).live = Function.update rows.live n (some row) := by
  have owner := (wellFormed.inverse refVal n).mp mapped
  funext m
  simp only [live, replace, ExtTreeMap.getElem?_insert]
  by_cases same : n = m
  · subst same
    simp [owner]
  · rw [Function.update_of_ne (Ne.symm same)]
    cases other : rows.reverseId[m]? with
    | none => simp [live, other]
    | some otherRef =>
      have different : refVal ≠ otherRef := by
        rintro rfl
        rw [← wellFormed.inverse, mapped] at other
        exact same (Option.some.inj other)
      simp [live, other, different]

theorem live_drop (wellFormed : rows.WellFormed) (mapped : rows.idMap[refVal]? = some n) :
    (rows.drop refVal n).live = Function.update rows.live n none := by
  funext m
  simp only [live, drop, ExtTreeMap.getElem?_erase, compare_eq_iff_eq]
  by_cases same : n = m
  · subst same
    simp
  · simp only [same, Function.update_of_ne (Ne.symm same)]
    cases other : rows.reverseId[m]? with
    | none => simp [live, other]
    | some otherRef =>
      have different : refVal ≠ otherRef := by
        rintro rfl
        rw [← wellFormed.inverse, mapped] at other
        exact same (Option.some.inj other)
      simp [live, other, different]

/-- A step starts from the live row of its id and replaces that row alone. -/
theorem Step.live_eq (step : Step rows change after) (wellFormed : rows.WellFormed) :
    rows.live change.id = change.before ∧ after.live = change.apply rows.live := by
  cases step with
  | add absent identified free =>
    have took := wellFormed.taken free
    exact ⟨by simp [live, took.fresh], live_store wellFormed _ absent took⟩
  | replace mapped found =>
    exact ⟨wellFormed.live_eq_some_iff.mpr ⟨_, mapped, found⟩, live_replace wellFormed _ mapped⟩
  | drop mapped found =>
    exact ⟨wellFormed.live_eq_some_iff.mpr ⟨_, mapped, found⟩, live_drop wellFormed mapped⟩

variable {changes : List IndexChange}

theorem Steps.wellFormed (steps : Steps rows changes after) (wellFormed : rows.WellFormed) :
    after.WellFormed := by
  induction steps with
  | nil => exact wellFormed
  | snoc _ step ih => exact step.wellFormed ih

/-- A sequence of steps is tracked by its changes. -/
theorem Steps.tracks (steps : Steps rows changes after) (wellFormed : rows.WellFormed) :
    RowChange.Tracks rows.live changes ∧
      after.live = changes.foldl RowChange.apply rows.live := by
  induction steps with
  | nil => exact ⟨trivial, rfl⟩
  | snoc steps step ih =>
    obtain ⟨tracked, reached⟩ := ih
    obtain ⟨current, changed⟩ := step.live_eq (steps.wellFormed wellFormed)
    rw [reached] at current changed
    refine ⟨RowChange.tracks_append.mpr ⟨tracked, current, trivial⟩, ?_⟩
    rw [List.foldl_append, changed]
    rfl

end Rows
end Graph
end Haystack
