import Mathlib

/-!
# Logs of complete units

A log numbers its entries consecutively after a floor and groups them into units.
Every entry carries the first and the last number of its unit.  The lemmas below
say what follows for the flat list of entries: the numbers, the effect of dropping
the oldest unit, and where a position of the log lies between two units.
-/

namespace Haystack
namespace Collections

section UnitLog

variable {δ : Type u} (version first last : δ → Nat)

/-- Complete units, numbered consecutively after the floor. -/
def UnitsFrom : Nat → List (List δ) → Prop
  | _, [] => True
  | floor, unit :: units =>
    unit ≠ [] ∧
    unit.map version = List.range' (floor + 1) unit.length ∧
    (∀ entry ∈ unit, first entry = floor + 1 ∧ last entry = floor + unit.length) ∧
    UnitsFrom (floor + unit.length) units

variable {version first last} {floor : Nat} {units : List (List δ)}

theorem unitsFrom_append {older newer : List (List δ)} :
    UnitsFrom version first last floor (older ++ newer) ↔
      UnitsFrom version first last floor older ∧
        UnitsFrom version first last (floor + older.flatten.length) newer := by
  induction older generalizing floor with
  | nil => simp [UnitsFrom]
  | cons unit older ih =>
    simp [UnitsFrom, ih, and_assoc, Nat.add_assoc]

/-- There are at most as many units as entries. -/
theorem UnitsFrom.length_le (wellFormed : UnitsFrom version first last floor units) :
    units.length ≤ units.flatten.length := by
  induction units generalizing floor with
  | nil => exact Nat.zero_le _
  | cons unit units ih =>
    obtain ⟨nonempty, _, _, rest⟩ := wellFormed
    have size := List.length_pos_iff.mpr nonempty
    have smaller := ih rest
    rw [List.length_cons, List.flatten_cons, List.length_append]
    omega

/-- The entries are numbered consecutively. -/
theorem UnitsFrom.map_version (wellFormed : UnitsFrom version first last floor units) :
    units.flatten.map version = List.range' (floor + 1) units.flatten.length := by
  induction units generalizing floor with
  | nil => rfl
  | cons unit units ih =>
    obtain ⟨_, _, _, rest⟩ := wellFormed
    rw [List.flatten_cons, List.map_append, ih rest, List.length_append,
      List.range'_append_1.symm]
    congr 2
    omega

variable {entry : δ}

theorem UnitsFrom.version_get
    (wellFormed : UnitsFrom version first last floor units) {index : Nat} (found : units.flatten[index]? = some entry) :
    version entry = floor + 1 + index := by
  have mapped : (units.flatten.map version)[index]? = some (version entry) := by
    rw [List.getElem?_map, found]
    rfl
  rw [wellFormed.map_version] at mapped
  have bound : index < units.flatten.length := (List.getElem?_eq_some_iff.mp found).1
  rw [List.getElem?_range' bound] at mapped
  simpa using (Option.some.inj mapped).symm

/-- The entries up to a number are the first ones. -/
theorem UnitsFrom.takeWhile_length
    (wellFormed : UnitsFrom version first last floor units) (v : Nat) :
    (units.flatten.takeWhile (version · ≤ v)).length = min (v - floor) units.flatten.length := by
  have versions := wellFormed.map_version
  generalize units.flatten = entries at versions
  clear wellFormed
  induction entries generalizing floor with
  | nil => simp
  | cons entry entries ih =>
    simp only [List.map_cons, List.length_cons, List.range'_succ, List.cons.injEq] at versions
    by_cases older : version entry ≤ v
    · rw [List.takeWhile_cons_of_pos (by simpa using older),
        List.length_cons, List.length_cons, ih versions.2]
      omega
    · rw [List.takeWhile_cons_of_neg (by simpa using older)]
      simp only [List.length_nil]
      omega

variable {unit : List δ}

/-- The entries up to the end of the oldest unit are that unit. -/
theorem UnitsFrom.dropWhile_unit
    (wellFormed : UnitsFrom version first last floor (unit :: units)) :
    (unit ++ units.flatten).dropWhile (version · ≤ floor + unit.length) = units.flatten := by
  obtain ⟨_, versions, _, rest⟩ := wellFormed
  rw [List.dropWhile_append_of_pos]
  · cases entries : units.flatten with
    | nil => rfl
    | cons entry =>
      have number := rest.version_get (show units.flatten[0]? = some entry by
        simp [entries])
      rw [List.dropWhile_cons_of_neg (by simp; omega)]
  · intro entry member
    have mapped : version entry ∈ unit.map version := List.mem_map_of_mem member
    rw [versions, List.mem_range'_1] at mapped
    simp only [decide_eq_true_eq]
    omega

/-- A position of the log is the floor, the end of a unit, or inside a unit. -/
theorem UnitsFrom.boundary_or_inside
    (wellFormed : UnitsFrom version first last floor units) {v : Nat}
    (lower : floor ≤ v) (upper : v ≤ floor + units.flatten.length) :
    (∃ older newer, units = older ++ newer ∧ v = floor + older.flatten.length) ∨
      ∃ entry, units.flatten[v - floor - 1]? = some entry ∧ floor < v ∧ last entry ≠ v := by
  induction units generalizing floor with
  | nil =>
    simp only [List.flatten_nil, List.length_nil] at upper
    exact Or.inl ⟨[], [], rfl, by simp; omega⟩
  | cons unit units ih =>
    obtain ⟨_, _, spans, rest⟩ := wellFormed
    rcases Nat.lt_or_ge v (floor + unit.length) with inside | beyond
    · rcases Nat.eq_or_lt_of_le lower with same | after
      · exact Or.inl ⟨[], unit :: units, rfl, by simp [same]⟩
      · right
        have bound : v - floor - 1 < unit.length := by omega
        refine ⟨unit[v - floor - 1], ?_, after, ?_⟩
        · rw [List.flatten_cons, List.getElem?_append_left bound]
          simp
        · have span := (spans _ (List.getElem_mem bound)).2
          omega
    · rw [List.flatten_cons, List.length_append] at upper
      rcases ih rest beyond (by omega) with
        ⟨older, newer, split, ended⟩ | ⟨entry, found, after, notLast⟩
      · refine Or.inl ⟨unit :: older, newer, by simp [split], ?_⟩
        rw [List.flatten_cons, List.length_append]
        omega
      · refine Or.inr ⟨entry, ?_, by omega, notLast⟩
        rw [List.flatten_cons, List.getElem?_append_right (by omega)]
        rw [← found]
        congr 1
        omega

variable {older newer : List (List δ)}

/-- The last entry of a unit carries the last number of the unit. -/
theorem UnitsFrom.last_at_boundary
    (wellFormed : UnitsFrom version first last floor (older ++ newer))
    (found : (older ++ newer).flatten[older.flatten.length - 1]? = some entry)
    (nonempty : older ≠ []) : last entry = floor + older.flatten.length := by
  obtain ⟨olderFormed, _⟩ := unitsFrom_append.mp wellFormed
  obtain ⟨front, unit, rfl⟩ : ∃ front unit, older = front ++ [unit] :=
    ⟨older.dropLast, older.getLast nonempty, (List.dropLast_append_getLast nonempty).symm⟩
  obtain ⟨_, unitFormed⟩ := unitsFrom_append.mp olderFormed
  obtain ⟨unitNonempty, _, spans, _⟩ := unitFormed
  have positive := List.length_pos_iff.mpr unitNonempty
  have bound : unit.length - 1 < unit.length := by omega
  have atLast : (front ++ [unit] ++ newer).flatten[
      (front ++ [unit]).flatten.length - 1]? = unit[unit.length - 1]? := by
    simp only [List.flatten_append, List.flatten_cons, List.flatten_nil,
      List.append_nil, List.length_append, List.append_assoc]
    rw [List.getElem?_append_right (by omega), List.getElem?_append_left (by omega)]
    congr 1
    omega
  rw [atLast, List.getElem?_eq_getElem bound] at found
  obtain rfl := Option.some.inj found
  rw [(spans _ (List.getElem_mem bound)).2]
  simp [Nat.add_assoc]

/-- The last entry of a unit carries the last number of the unit. -/
theorem UnitsFrom.last_version
    (wellFormed : UnitsFrom version first last floor (older ++ unit :: newer)) (ends : unit.getLast? = some entry) :
    version entry = floor + older.flatten.length + unit.length := by
  obtain ⟨_, nonempty, versions, _⟩ := unitsFrom_append.mp wellFormed
  have lasts := congrArg List.getLast? versions
  have positive := List.length_pos_iff.mpr nonempty
  rw [List.getLast?_map, ends, Option.map_some, List.getLast?_range',
    if_neg (by omega), Option.some.injEq] at lasts
  omega

/-- The ends of units are the floor and the numbers of the last entries. -/
theorem UnitsFrom.boundary_iff (wellFormed : UnitsFrom version first last floor units) (v : Nat) :
    (∃ older newer, units = older ++ newer ∧ v = floor + older.flatten.length) ↔
      v = floor ∨ ∃ unit ∈ units, ∃ entry, unit.getLast? = some entry ∧ version entry = v := by
  constructor
  · rintro ⟨older, newer, rfl, rfl⟩
    rcases List.eq_nil_or_concat' older with rfl | ⟨before, unit, rfl⟩
    · exact .inl rfl
    · rw [List.append_assoc] at wellFormed
      have nonempty := (unitsFrom_append.mp wellFormed).2.1
      obtain ⟨entry, ends⟩ := Option.isSome_iff_exists.mp (List.getLast?_isSome.mpr nonempty)
      refine .inr ⟨unit, by simp, entry, ends, ?_⟩
      rw [wellFormed.last_version ends]
      simp [Nat.add_assoc]
  · rintro (rfl | ⟨unit, member, entry, ends, rfl⟩)
    · exact ⟨[], units, rfl, rfl⟩
    · obtain ⟨older, newer, rfl⟩ := List.append_of_mem member
      refine ⟨older ++ [unit], newer, by simp, ?_⟩
      rw [wellFormed.last_version ends]
      simp [Nat.add_assoc]

/-- The units after the end of a unit are those with larger numbers alone. -/
theorem UnitsFrom.filter_after
    (wellFormed : UnitsFrom version first last floor (older ++ newer)) :
    (older ++ newer).filter (fun unit => unit.all
        fun entry => floor + older.flatten.length < version entry) =
      newer := by
  obtain ⟨olderFormed, newerFormed⟩ := unitsFrom_append.mp wellFormed
  have numbers (entries : List δ) (start : Nat)
      (numbered : entries.map version = List.range' (start + 1) entries.length)
      (entry : δ) (member : entry ∈ entries) :
      start < version entry ∧ version entry ≤ start + entries.length := by
    have listed := List.mem_map_of_mem (f := version) member
    rw [numbered, List.mem_range'_1] at listed
    omega
  rw [List.filter_append, List.filter_eq_nil_iff.mpr, List.nil_append, List.filter_eq_self]
  · intro unit member
    rw [List.all_eq_true]
    intro entry entryMember
    have number := numbers _ _ newerFormed.map_version entry
      (List.mem_flatten.mpr ⟨unit, member, entryMember⟩)
    simpa using number.1
  · intro unit member
    obtain ⟨_, _, rfl⟩ := List.append_of_mem member
    have nonempty := (unitsFrom_append.mp olderFormed).2.1
    obtain ⟨entry, _, rfl⟩ := List.exists_cons_of_ne_nil nonempty
    have number := numbers _ _ olderFormed.map_version entry (by simp)
    rw [List.all_eq_true]
    intro above
    have contradiction := above entry (by simp)
    rw [decide_eq_true_eq] at contradiction
    omega

end UnitLog

/-! ## Dropping oldest units until the rest fits -/

section Keep

variable {δ : Type u} (fits : List δ → Bool)

/-- The longest suffix of the units whose entries fit. -/
def keepFitting : List (List δ) → List (List δ)
  | [] => []
  | unit :: units =>
    if fits (unit :: units).flatten then unit :: units
    else keepFitting units

variable {fits}

theorem keepFitting_suffix (units : List (List δ)) : keepFitting fits units <:+ units := by
  induction units with
  | nil => exact List.suffix_refl _
  | cons unit units ih =>
    unfold keepFitting
    split
    · exact List.suffix_refl _
    · exact ih.trans (List.suffix_cons _ _)

/-- Units that fit are all kept. -/
theorem keepFitting_of_fits {units : List (List δ)} (fit : fits units.flatten = true) :
    keepFitting fits units = units := by
  cases units with
  | nil => rfl
  | cons => exact if_pos fit

/-- Units dropped early would be dropped anyway: entries that do not fit do not
fit with more of them. -/
theorem keepFitting_keepFitting (antitone : ∀ entries more, fits (entries ++ more) = true →
      fits entries = true)
    (units : List (List δ)) (unit : List δ) :
    keepFitting fits (keepFitting fits units ++ [unit]) = keepFitting fits (units ++ [unit]) := by
  induction units with
  | nil => rfl
  | cons front units ih =>
    by_cases fit : fits (front :: units).flatten = true
    · rw [keepFitting_of_fits fit]
    · have exceeded : fits ((front :: units) ++ [unit]).flatten ≠ true := by
        intro whole
        rw [List.flatten_append] at whole
        exact fit (antitone _ _ whole)
      have dropped : keepFitting fits (front :: units) = keepFitting fits units := if_neg fit
      have droppedMore : keepFitting fits ((front :: units) ++ [unit]) =
          keepFitting fits (units ++ [unit]) := if_neg exceeded
      rw [dropped, droppedMore, ih]

/-- Newest units that fit are kept, whatever their grouping. -/
theorem keepFitting_append {newest regrouped : List (List δ)}
    (same : ∀ entries, fits (entries ++ newest.flatten) = fits (entries ++ regrouped.flatten))
    (fit : fits newest.flatten = true) (units : List (List δ)) :
    ∃ kept, keepFitting fits (units ++ newest) = kept ++ newest ∧
      keepFitting fits (units ++ regrouped) = kept ++ regrouped := by
  induction units with
  | nil =>
    have fitRegrouped : fits regrouped.flatten = true := (same []) ▸ fit
    exact ⟨[], keepFitting_of_fits fit, keepFitting_of_fits fitRegrouped⟩
  | cons unit units ih =>
    by_cases whole : fits ((unit :: units) ++ newest).flatten = true
    · have other : fits ((unit :: units) ++ regrouped).flatten = true := by
        rw [List.flatten_append] at whole ⊢
        rwa [← same]
      exact ⟨unit :: units, keepFitting_of_fits whole, keepFitting_of_fits other⟩
    · have other : fits ((unit :: units) ++ regrouped).flatten ≠ true := by
        rw [List.flatten_append] at whole ⊢
        rwa [← same]
      obtain ⟨kept, left, right⟩ := ih
      exact ⟨kept, (if_neg whole).trans left, (if_neg other).trans right⟩

end Keep

/-! ## Checking a log entry by entry -/

section Scan

variable {δ : Type u} {σ : Type v} [DecidableEq σ]
variable (version : δ → Nat) (span : δ → σ) (first last : σ → Nat)

/-- An entry opens a unit that ends by the head of the log, or continues the
unit that is open. -/
def inUnit (head : Nat) (openUnit : Option σ) (entry : δ) : Bool :=
  match openUnit with
  | none => first (span entry) = version entry ∧
      version entry ≤ last (span entry) ∧ last (span entry) ≤ head
  | some unit => unit = span entry

/-- Check one entry against the number before it and the unit that is open. -/
def scanUnit (head : Nat) (state : Nat × Option σ) (entry : δ) : Option (Nat × Option σ) :=
  if version entry = state.1 + 1 ∧ inUnit version span first last head state.2 entry = true then
    some (version entry,
      if version entry = last (span entry) then none else some (span entry))
  else none

/-- What remains of a log: the rest of the open unit, then complete units, up to
the head. -/
def Completes (head : Nat) (state : Nat × Option σ) (entries : List δ) : Prop :=
  state.1 + entries.length = head ∧ ∃ part units, entries = part ++ units.flatten ∧
      UnitsFrom version (fun entry => first (span entry))
        (fun entry => last (span entry)) (state.1 + part.length) units ∧
      match state.2 with
      | none => part = []
      | some unit => part ≠ [] ∧ part.map version = List.range' (state.1 + 1) part.length ∧
          (∀ entry ∈ part, span entry = unit) ∧
          last unit = state.1 + part.length

variable {version span first last} {head : Nat} {entry : δ}

/-- An accepted entry has the next number. -/
theorem scanUnit_eq_some {state after : Nat × Option σ}
    (checked : scanUnit version span first last head state entry = some after) :
    version entry = state.1 + 1 ∧ after.1 = version entry := by
  unfold scanUnit at checked
  split at checked
  · rename_i accepted
    cases checked
    exact ⟨accepted.1, rfl⟩
  · cases checked

variable {entries : List δ} {state : Nat × Option σ} {openUnit : Option σ} {previous : Nat}

/-- A checked entry is the next one of the log. -/
private theorem Completes.cons
    (checked : scanUnit version span first last head (previous, openUnit) entry = some state)
    (rest : Completes version span first last head state entries) :
    Completes version span first last head (previous, openUnit) (entry :: entries) := by
  unfold scanUnit at checked
  split at checked
  swap
  · cases checked
  rename_i accepted
  obtain ⟨number, allowed⟩ := accepted
  cases checked
  obtain ⟨total, part, units, rfl, complete, continued⟩ := rest
  simp only [number] at total complete continued
  refine ⟨by rw [List.length_cons]; omega, ?_⟩
  -- The entry and the rest of its unit.
  have unit : UnitsFrom version (fun entry => first (span entry))
      (fun entry => last (span entry)) (previous + (entry :: part).length)
        units ∧ (entry :: part).map version = List.range' (previous + 1) (entry :: part).length ∧
        (∀ other ∈ entry :: part, span other = span entry) ∧
        last (span entry) = previous + (entry :: part).length := by
    by_cases ends : previous + 1 = last (span entry)
    · rw [if_pos ends] at continued
      subst continued
      exact ⟨complete, by simp [number], by simp, by simp [← ends]⟩
    · rw [if_neg ends] at continued
      obtain ⟨_, versions, spans, ending⟩ := continued
      refine ⟨by rwa [List.length_cons, ← Nat.add_assoc, Nat.add_right_comm], ?_, ?_, ?_⟩
      · rw [List.map_cons, versions, number, List.length_cons, List.range'_succ]
      · exact List.forall_mem_cons.mpr ⟨rfl, spans⟩
      · rw [List.length_cons]
        omega
  obtain ⟨complete, versions, spans, ending⟩ := unit
  cases openUnit with
  | some current =>
    refine ⟨entry :: part, units, rfl, complete, by simp, versions, ?_, ?_⟩
    all_goals
      obtain rfl : current = span entry := by simpa [inUnit] using allowed
      assumption
  | none =>
    have opening : first (span entry) = version entry := by
      simp only [inUnit, decide_eq_true_eq] at allowed
      exact allowed.1
    refine ⟨[], (entry :: part) :: units, rfl, ⟨by simp, versions, ?_, complete⟩, rfl⟩
    intro other member
    simp only [spans other member, opening]
    exact ⟨number, ending⟩

/-- The next entry of a log is accepted. -/
private theorem Completes.scan
    (ext : ∀ left right : σ, first left = first right → last left = last right → left = right)
    (completes : Completes version span first last head (previous, openUnit) (entry :: entries)) :
    ∃ state, scanUnit version span first last head (previous, openUnit) entry =
        some state ∧ Completes version span first last head state entries := by
  obtain ⟨total, _, units, same, complete, continued⟩ := completes
  rw [List.length_cons] at total
  -- The unit of the entry and what follows it.
  have unit : ∃ rest later, entries = rest ++ later.flatten ∧ version entry = previous + 1 ∧
      UnitsFrom version (fun entry => first (span entry))
        (fun entry => last (span entry)) (previous + 1 + rest.length) later ∧
      rest.map version = List.range' (previous + 1 + 1) rest.length ∧
      (∀ other ∈ rest, span other = span entry) ∧
      last (span entry) = previous + 1 + rest.length ∧
      match openUnit with
      | none => first (span entry) = previous + 1
      | some unit => unit = span entry := by
    cases openUnit with
    | some =>
      obtain ⟨nonempty, versions, spans, ending⟩ := continued
      obtain ⟨other, rest, rfl⟩ := List.exists_cons_of_ne_nil nonempty
      obtain ⟨rfl, rfl⟩ := List.cons.inj same
      obtain ⟨here, others⟩ := List.forall_mem_cons.mp spans
      rw [List.map_cons, List.length_cons, List.range'_succ, List.cons.injEq] at versions
      rw [List.length_cons] at complete ending
      refine ⟨rest, units, rfl, versions.1, ?_, versions.2, ?_, ?_, here.symm⟩
      · rwa [Nat.add_assoc, Nat.add_comm 1]
      · rwa [here]
      · rw [here]
        omega
    | none =>
      subst continued
      cases units with
      | nil => cases same
      | cons unit units =>
        obtain ⟨nonempty, versions, spans, later⟩ := complete
        obtain ⟨other, rest, rfl⟩ := List.exists_cons_of_ne_nil nonempty
        obtain ⟨rfl, rfl⟩ := List.cons.inj same
        simp only [List.length_nil] at versions spans later
        obtain ⟨here, others⟩ := List.forall_mem_cons.mp spans
        rw [List.map_cons, List.length_cons, List.range'_succ, List.cons.injEq] at versions
        rw [List.length_cons] at here others later
        refine ⟨rest, units, rfl, versions.1, ?_, versions.2, ?_, ?_, here.1⟩
        · rwa [Nat.add_assoc, Nat.add_comm 1]
        · intro other member
          have there := others other member
          exact ext _ _ (there.1.trans here.1.symm) (there.2.trans here.2.symm)
        · omega
  obtain ⟨rest, later, rfl, number, complete, versions, spans, ending, opened⟩ := unit
  rw [List.length_append] at total
  have accepted : version entry = (previous, openUnit).1 + 1 ∧
      inUnit version span first last head openUnit entry = true := by
    refine ⟨number, ?_⟩
    cases openUnit with
    | some => exact decide_eq_true opened
    | none =>
      exact decide_eq_true ⟨by omega, by omega, by omega⟩
  refine ⟨_, if_pos accepted, ?_⟩
  rw [number]
  refine ⟨by rw [List.length_append]; simp only; omega, rest, later, rfl, complete, ?_⟩
  cases rest with
  | nil =>
    simp [ending]
  | cons =>
    have continues : previous + 1 ≠ last (span entry) := by
      rw [ending, List.length_cons]
      omega
    simp only [if_neg continues]
    exact ⟨by simp, versions, spans, ending⟩

/-- Every entry of a unit carries the numbers of its first and last entries. -/
theorem UnitsFrom.unit_bounds {first last : δ → Nat} {floor : Nat} {units : List (List δ)}
    (wellFormed : UnitsFrom version first last floor units) :
    ∀ unit ∈ units, ∃ front back, unit.head? = some front ∧
      unit.getLast? = some back ∧ ∀ entry ∈ unit,
        first entry = version front ∧ last entry = version back := by
  induction units generalizing floor with
  | nil => simp
  | cons unit units ih =>
    obtain ⟨nonempty, versions, spans, rest⟩ := wellFormed
    refine List.forall_mem_cons.mpr ⟨?_, ih rest⟩
    refine ⟨unit.head nonempty, unit.getLast nonempty,
      List.head?_eq_some_head nonempty, List.getLast?_eq_some_getLast nonempty,
      ?_⟩
    have positive := List.length_pos_iff.mpr nonempty
    have front : version (unit.head nonempty) = floor + 1 := by
      have mapped := congrArg List.head? versions
      rw [List.head?_map, List.head?_eq_some_head nonempty,
        List.head?_range', if_neg (by omega)] at mapped
      exact Option.some.inj mapped
    have back : version (unit.getLast nonempty) = floor + unit.length := by
      have mapped := congrArg List.getLast? versions
      rw [List.getLast?_map, List.getLast?_eq_some_getLast nonempty,
        List.getLast?_range', if_neg (by omega)] at mapped
      have same := Option.some.inj mapped
      omega
    intro entry member
    rw [front, back]
    exact spans entry member

/-- The check accepts exactly the logs of complete units that end at the head. -/
theorem foldlM_scanUnit_eq_some_iff
    (ext : ∀ left right : σ, first left = first right → last left = last right → left = right) :
    entries.foldlM (scanUnit version span first last head) state = some (head, none) ↔
      Completes version span first last head state entries := by
  induction entries generalizing state with
  | nil =>
    obtain ⟨_, openUnit⟩ := state
    constructor
    · intro finished
      obtain ⟨rfl, rfl⟩ := Prod.mk.inj (Option.some.inj finished)
      exact ⟨rfl, [], [], rfl, trivial, rfl⟩
    · rintro ⟨rfl, part, units, empty, _, continued⟩
      cases openUnit with
      | none => rfl
      | some =>
        exact absurd (List.append_eq_nil_iff.mp empty.symm).1 continued.1
  | cons entry entries ih =>
    constructor
    · intro finished
      obtain ⟨state, checked, rest⟩ := Option.bind_eq_some_iff.mp finished
      exact (ih.mp rest).cons checked
    · intro completes
      obtain ⟨state, checked, rest⟩ := completes.scan ext
      exact Option.bind_eq_some_iff.mpr ⟨state, checked, ih.mpr rest⟩

end Scan
end Collections
end Haystack
