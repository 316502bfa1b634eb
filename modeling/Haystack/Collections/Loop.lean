import Mathlib

/-!
# Fallible loops and maps

A loop that may fail threads a state, part of which evolves by a pure function.
When the loop succeeds, that part is the pure fold.  A map that may fail succeeds
when it succeeds at every item, and its results are then related to the items one
by one.  Over entries, the keys are kept.
-/

namespace Haystack
namespace Collections

variable {σ : Type u} {τ : Type v} {ε : Type w} {δ : Type x}

/-- The pure part of the state after a successful loop is the pure fold. -/
theorem foldlM_option_observe {step : σ → ε → Option σ} (observe : σ → τ) (pureStep : τ → ε → τ)
    (stepSpec : ∀ state event after, step state event = some after →
      observe after = pureStep (observe state) event)
    {events : List ε} {state after : σ} (finished : events.foldlM step state = some after) :
    observe after = events.foldl pureStep (observe state) := by
  induction events generalizing state with
  | nil =>
    obtain rfl := Option.some.inj finished
    rfl
  | cons event events ih =>
    obtain ⟨middle, stepped, finished⟩ := Option.bind_eq_some_iff.mp finished
    rw [List.foldl_cons, ih finished, stepSpec state event middle stepped]

/-- A bind in `Except` succeeds when both computations do. -/
theorem except_bind_eq_ok
    {α β : Type u} {first : Except δ α} {next : α → Except δ β} {result : β} :
    (first >>= next) = .ok result ↔ ∃ middle, first = .ok middle ∧ next middle = .ok result := by
  cases first with
  | error failure | ok value => simp [bind, Except.bind]

/-- A mapped computation succeeds when the computation does. -/
theorem except_map_eq_ok {f : α → β} {first : Except δ α} {result : β} :
    first.map f = .ok result ↔ ∃ value, first = .ok value ∧ f value = result := by
  cases first with
  | error failure | ok value => simp [Except.map]

/-- A loop of checks passes when each of them does. -/
theorem forM_eq_ok {check : α → Except δ Unit} {items : List α} {done : Unit} :
    items.forM check = .ok done ↔ ∀ item ∈ items, check item = .ok () := by
  induction items with
  | nil => exact ⟨fun _ => nofun, fun _ => rfl⟩
  | cons first rest ih =>
    change (check first >>= fun _ => rest.forM check) = .ok done ↔ _
    rw [except_bind_eq_ok, List.forall_mem_cons]
    exact ⟨fun ⟨_, passed, others⟩ => ⟨passed, ih.mp others⟩,
      fun ⟨passed, others⟩ => ⟨(), passed, ih.mpr others⟩⟩

/-- Renaming the failures of a computation keeps its successes. -/
@[simp] theorem except_mapError_eq_ok {rename : δ → τ} {first : Except δ α} {result : α} :
    first.mapError rename = .ok result ↔ first = .ok result := by
  cases first with
  | error failure | ok value => simp [Except.mapError]

/-! ## Fallible maps -/

variable {α : Type u} {β : Type u} {γ : Type u} {φ : Type x} {κ : Type u}

/-- Apply a computation to the value of an entry. -/
def onValue (f : α → Except ε β) (entry : κ × α) : Except ε (κ × β) :=
  (f entry.2).map fun value => (entry.1, value)

variable {items : List α} {f : α → Except ε β}

/-- A fallible map succeeds item by item. -/
theorem mapM_eq_ok {results : List β} : items.mapM f = .ok results ↔
      List.Forall₂ (fun item result => f item = .ok result) items results := by
  induction items generalizing results with
  | nil =>
    rw [List.forall₂_nil_left_iff]
    exact ⟨fun same => (Except.ok.inj same).symm, fun same => same ▸ rfl⟩
  | cons first rest ih =>
    rw [List.mapM_cons, List.forall₂_cons_left_iff]
    cases head : f first with
    | error => simp [bind, Except.bind]
    | ok value =>
      cases tail : rest.mapM f with
      | error =>
        simp only [bind, Except.bind, reduceCtorEq, false_iff, not_exists]
        rintro result others ⟨-, related, -⟩
        rw [ih.mpr related] at tail
        cases tail
      | ok values =>
        simp only [bind, Except.bind, pure, Except.pure, Except.ok.injEq, ← ih, tail]
        constructor
        · rintro rfl
          exact ⟨value, values, rfl, rfl, rfl⟩
        · rintro ⟨result, others, rfl, rfl, rfl⟩
          rfl

/-- A recursion that applies a computation to every item is a fallible map. -/
theorem eq_mapM (walk : List α → Except ε (List β)) (nil : walk [] = .ok [])
    (cons : ∀ item rest, walk (item :: rest) =
      f item >>= fun value => walk rest >>= fun values => .ok (value :: values))
    (items : List α) : walk items = items.mapM f := by
  induction items with
  | nil => exact nil
  | cons item rest ih =>
    rw [cons, ih, List.mapM_cons]
    rfl

/-- A recursion that applies a function to every item is a map. -/
theorem eq_map (walk : List α → List β) {g : α → β} (nil : walk [] = [])
    (cons : ∀ item rest, walk (item :: rest) = g item :: walk rest) (items : List α) :
    walk items = items.map g := by
  induction items with
  | nil => exact nil
  | cons item rest ih => rw [cons, ih, List.map_cons]

/-- A fallible map that succeeds at every item succeeds. -/
theorem exists_mapM_eq_ok (each : ∀ item ∈ items, ∃ result, f item = .ok result) :
    ∃ results, items.mapM f = .ok results := by
  induction items with
  | nil => exact ⟨[], rfl⟩
  | cons first rest ih =>
    obtain ⟨result, head⟩ := each first List.mem_cons_self
    obtain ⟨results, tail⟩ := ih fun item member =>
      each item (List.mem_cons_of_mem _ member)
    exact ⟨result :: results, mapM_eq_ok.mpr (.cons head (mapM_eq_ok.mp tail))⟩

variable {texts : List β} {related : α → β → Prop} {read : β → Except ε α}

/-- Two related lists, the second of which is read item by item, agree when
reading agrees with the relation. -/
theorem eq_of_forall₂_read {results : List α} (printed : List.Forall₂ related items texts)
    (readBack : texts.mapM read = .ok results)
    (agree : ∀ item ∈ items, ∀ text, related item text →
      ∀ result, read text = .ok result → result = item) :
    results = items := by
  induction printed generalizing results with
  | nil => exact List.forall₂_nil_left_iff.mp (mapM_eq_ok.mp readBack)
  | cons first _ ih =>
    obtain ⟨_, _, head, tail, rfl⟩ := List.forall₂_cons_left_iff.mp (mapM_eq_ok.mp readBack)
    have same := agree _ List.mem_cons_self _ first _ head
    have rest := ih (mapM_eq_ok.mpr tail)
      fun item member => agree item (List.mem_cons_of_mem _ member)
    rw [same, rest]

/-- A fallible map is undone by one that undoes it at every item. -/
theorem mapM_undone {print : α → Except ε β} {read : β → Except φ α}
    (printed : items.mapM print = .ok texts)
    (undo : ∀ item ∈ items, ∀ text, print item = .ok text → read text = .ok item) :
    texts.mapM read = .ok items := by
  rw [mapM_eq_ok] at printed ⊢
  induction printed with
  | nil => exact .nil
  | cons first _ ih =>
    exact .cons (undo _ List.mem_cons_self _ first) (ih fun item member =>
        undo item (List.mem_cons_of_mem _ member))

/-- A fallible map over printed items gives them back when it does so at every
item. -/
theorem mapM_map_eq_ok {print : α → β} (each : ∀ item ∈ items, read (print item) = .ok item) :
    (items.map print).mapM read = .ok items := by
  rw [mapM_eq_ok, List.forall₂_map_left_iff, List.forall₂_same]
  exact each

/-- Related lists have, for every text, an item it is related to. -/
theorem exists_of_mem_right (printed : List.Forall₂ related items texts) {text : β}
    (member : text ∈ texts) : ∃ item ∈ items, related item text := by
  induction printed with
  | nil => cases member
  | cons first _ ih =>
    rcases List.mem_cons.mp member with rfl | member
    · exact ⟨_, List.mem_cons_self, first⟩
    · obtain ⟨item, listed, holds⟩ := ih member
      exact ⟨item, List.mem_cons_of_mem _ listed, holds⟩

/-- Related lists have, for every item, a text that is related to it. -/
theorem exists_of_mem_left (printed : List.Forall₂ related items texts) {item : α}
    (member : item ∈ items) : ∃ text, related item text := by
  obtain ⟨text, -, holds⟩ := exists_of_mem_right printed.flip member
  exact ⟨text, holds⟩

theorem onValue_eq_ok {entry : κ × α} {result : κ × β} :
    onValue f entry = .ok result ↔ f entry.2 = .ok result.2 ∧ entry.1 = result.1 := by
  unfold onValue
  cases f entry.2 with
  | error => simp [Except.map]
  | ok =>
    simp only [Except.map, Except.ok.injEq, Prod.ext_iff]
    exact and_comm

/-- A fallible map over values keeps the keys. -/
theorem keys_of_mapM_onValue {entries : List (κ × α)} {results : List (κ × β)}
    (mapped : entries.mapM (onValue f) = .ok results) :
    results.map Prod.fst = entries.map Prod.fst := by
  have each := mapM_eq_ok.mp mapped
  induction each with
  | nil => rfl
  | cons first _ ih =>
    simp only [List.map_cons]
    rw [(onValue_eq_ok.mp first).2, ih (mapM_eq_ok.mpr ‹_›)]

end Collections
end Haystack
