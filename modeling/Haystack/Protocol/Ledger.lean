import Mathlib.Data.List.Nodup
import Mathlib.Data.List.Basic
import Mathlib.Logic.Function.Basic

/-!
# Ledgers of requests applied at most once

A key is bound to a request once, stays pending, and ends committed with an
effect or rejected with a reason.  A system that turns the keys of its ledger in
these ways alone, and applies an effect exactly when it commits a key, applies
the request of a key at most once, and its ledger tells which ones it applied.
-/

namespace Haystack
namespace Protocol

/-! ## Parties in slots

The parties of a system stand in the slots of a list.  A step of one party changes
its slot alone; a party that is used up leaves its slot. -/

section Parties

variable {α : Type u} {β : Type v} {slots : List α} {change : α → α}

/-- What stands in a slot after a step of one party. -/
theorem getElem?_modify_eq_some_iff {index other : Nat} {after : α} :
    (slots.modify index change)[other]? = some after ↔ ∃ before, slots[other]? = some before ∧
        after = if index = other then change before else before := by
  rw [List.getElem?_modify, Option.map_eq_map, Option.map_eq_some_iff]
  exact exists_congr fun before => and_congr_right fun _ => eq_comm

/-- After a step of one party, a slot is as before, or it is the one of the party. -/
theorem getElem?_modify_cases {index position : Nat} {party after : α}
    (held : slots[position]? = some party)
    (found : (slots.modify position change)[index]? = some after) :
    slots[index]? = some after ∨ index = position ∧ after = change party := by
  obtain ⟨_, there, same⟩ := getElem?_modify_eq_some_iff.mp found
  split at same
  · rename_i here
    subst here
    obtain rfl := Option.some.inj (held.symm.trans there)
    exact .inr ⟨rfl, same⟩
  · subst same
    exact .inl there

variable {index : Nat}

/-- A step of a party depends on what it does to the slot of the party. -/
theorem modify_congr {left right : α → α}
    (same : ∀ party, slots[index]? = some party → left party = right party) :
    slots.modify index left = slots.modify index right := by
  apply List.ext_getElem?
  intro other
  rw [List.getElem?_modify, List.getElem?_modify]
  cases found : slots[other]? with
  | none => rfl
  | some party =>
    by_cases here : index = other
    · subst here
      simp [same party found]
    · simp [here]

theorem modify_eq_self (same : ∀ party, slots[index]? = some party → change party = party) :
    slots.modify index change = slots := by
  have unchanged : slots.modify index change = slots.modify index id := modify_congr same
  rw [unchanged, List.modify_id]

/-- Parties with different keys: none of the others has the key of the one that
leaves. -/
theorem key_ne_of_mem_eraseIdx {key : α → β} (distinct : (slots.map key).Nodup) {party other : α} (found : slots[index]? = some party)
    (member : other ∈ slots.eraseIdx index) : key other ≠ key party := by
  obtain ⟨position, elsewhere, held⟩ := List.mem_eraseIdx_iff_getElem?.mp member
  intro same
  have keys : (slots.map key)[position]? = (slots.map key)[index]? := by
    simp [held, found, same]
  have within : position < (slots.map key).length := by
    rw [List.length_map]
    exact (List.getElem?_eq_some_iff.mp held).1
  exact elsewhere ((List.getElem?_inj within distinct).mp keys)

/-- A party with a key of its own may enter. -/
theorem nodup_concat {key : α → β} (distinct : (slots.map key).Nodup) {party : α}
    (fresh : ∀ other ∈ slots, key other ≠ key party) : ((slots ++ [party]).map key).Nodup := by
  rw [List.map_append, List.nodup_append]
  refine ⟨distinct, List.nodup_singleton _, ?_⟩
  intro held member new listed
  obtain ⟨other, standing, rfl⟩ := List.mem_map.mp member
  exact List.mem_singleton.mp listed ▸ fresh other standing

end Parties

/-! ## Keys -/

/-- What has become of a key. -/
inductive Status (R A B : Type)
  | unbound
  | pending (request : R)
  | committed (request : R) (effect : A)
  | rejected (request : R) (reason : B)

namespace Status

variable {R A B : Type}

/-- A turn of a key, with the effect that it applies. -/
inductive Turned : Status R A B → Status R A B → Option A → Prop
  | bind (request : R) : Turned .unbound (.pending request) none
  | refuse (request : R) (reason : B) : Turned .unbound (.rejected request reason) none
  | commit (request : R) (effect : A) :
      Turned (.pending request) (.committed request effect) (some effect)
  | reject (request : R) (reason : B) : Turned (.pending request) (.rejected request reason) none

/-- What may have become of a key later. -/
inductive Later : Status R A B → Status R A B → Prop
  | same (status : Status R A B) : Later status status
  | bound (status : Status R A B) : Later .unbound status
  | committed (request : R) (effect : A) : Later (.pending request) (.committed request effect)
  | rejected (request : R) (reason : B) : Later (.pending request) (.rejected request reason)

theorem Later.trans {first second third : Status R A B} (left : Later first second)
    (right : Later second third) : Later first third := by
  cases left with
  | same => exact right
  | bound => exact .bound third
  | committed request effect =>
    cases right
    exact .committed request effect
  | rejected request reason =>
    cases right
    exact .rejected request reason

variable {status : Status R A B}

theorem Turned.later {next : Status R A B} {effect : Option A}
    (turned : Turned status next effect) : Later status next := by
  cases turned with
  | bind request | refuse request reason => exact .bound _
  | commit request effect => exact .committed request effect
  | reject request reason => exact .rejected request reason

/-- A bound key stays bound. -/
theorem Later.unbound_of_unbound (later : Later status .unbound) : status = .unbound := by
  cases later <;> rfl

/-- A committed key stays as it is. -/
theorem Later.of_committed {request : R} {effect : A}
    (later : Later (.committed request effect) status) : status = .committed request effect := by
  cases later
  rfl

end Status

open Status (Turned Later)

variable {K R A B : Type}

/-- A step of a ledger turns at most one key. -/
inductive Moved [DecidableEq K] (ledger : K → Status R A B) :
    (K → Status R A B) → Option (K × A) → Prop
  | stay : Moved ledger ledger none
  | turn (key : K) {next : Status R A B} {effect : Option A}
      (turned : Turned (ledger key) next effect) :
      Moved ledger (Function.update ledger key next) (effect.map (key, ·))

variable {key : K} {ledger after : K → Status R A B}

theorem Moved.of_update [DecidableEq K] {next : Status R A B} {effect : Option A}
    (turned : Turned (ledger key) next effect)
    (updated : after = Function.update ledger key next) :
    Moved ledger after (effect.map (key, ·)) :=
  updated ▸ .turn key turned

variable {applied : Option (K × A)}

theorem Moved.later [DecidableEq K] (moved : Moved ledger after applied) (key : K) :
    Later (ledger key) (after key) := by
  cases moved with
  | stay => exact .same _
  | turn turning turned =>
    by_cases same : key = turning
    · subst same
      rw [Function.update_self]
      exact turned.later
    · rw [Function.update_of_ne same]
      exact .same _

variable {effect : A}

/-- An applied effect turns a pending key into a committed one. -/
theorem Moved.of_applied [DecidableEq K] (moved : Moved ledger after (some (key, effect))) :
    ∃ request, ledger key = .pending request ∧ after key = .committed request effect := by
  generalize given : some (key, effect) = applied at moved
  cases moved with
  | stay => cases given
  | turn turning turned =>
    obtain ⟨_, rfl, same⟩ := Option.map_eq_some_iff.mp given.symm
    obtain ⟨rfl, rfl⟩ := Prod.mk.inj same
    rw [Function.update_self]
    generalize ledger turning = status at turned ⊢
    cases turned with
    | commit request => exact ⟨request, rfl, rfl⟩

/-- A key becomes committed in the step that applies its effect. -/
theorem Moved.of_committed [DecidableEq K] (moved : Moved ledger after applied) {request : R}
    (committed : after key = .committed request effect) :
    ledger key = .committed request effect ∨ applied = some (key, effect) := by
  cases moved with
  | stay => exact .inl committed
  | turn turning turned =>
    by_cases same : key = turning
    · subst same
      rw [Function.update_self] at committed
      subst committed
      generalize ledger key = status at turned
      cases turned
      exact .inr rfl
    · rw [Function.update_of_ne same] at committed
      exact .inl committed

/-! ## Systems with a ledger -/

section Systems

variable {S E : Type} (step : S → E → S) (applied : S → E → Option (K × A))

/-- The effects applied in a run, in order. -/
def applications : S → List E → List (K × A)
  | _, [] => []
  | s, event :: events =>
    (applied s event).toList ++ applications (step s event) events

/-- The steps of a system keep its invariant and move its ledger. -/
structure Keeps [DecidableEq K] (Invariant : S → Prop)
    (ledger : S → K → Status R A B) : Prop where
  invariant : ∀ {s}, Invariant s → ∀ event, Invariant (step s event)
  moved : ∀ {s}, Invariant s → ∀ event, Moved (ledger s) (ledger (step s event)) (applied s event)

variable {step applied} [DecidableEq K] {Invariant : S → Prop} {ledger : S → K → Status R A B}

variable {s : S}

theorem Keeps.run (keeps : Keeps step applied Invariant ledger) (invariant : Invariant s)
    (events : List E) : Invariant (events.foldl step s) := by
  induction events generalizing s with
  | nil => exact invariant
  | cons event events ih =>
    exact ih (keeps.invariant invariant event)

theorem Keeps.later (keeps : Keeps step applied Invariant ledger) (invariant : Invariant s)
    (events : List E) (key : K) : Later (ledger s key) (ledger (events.foldl step s) key) := by
  induction events generalizing s with
  | nil => exact .same _
  | cons event events ih =>
    exact ((keeps.moved invariant event).later key).trans (ih (keeps.invariant invariant event))

variable {events : List E} (keeps : Keeps step applied Invariant ledger)

include keeps

/-- Only a key that has not ended is applied, and it ends committed. -/
theorem Keeps.of_mem_applications (invariant : Invariant s)
    (member : (key, effect) ∈ applications step applied s events) :
    ∃ request, Later (ledger s key) (.pending request) ∧
      ledger (events.foldl step s) key = .committed request effect := by
  induction events generalizing s with
  | nil => cases member
  | cons event events ih =>
    have moved := keeps.moved invariant event
    have next := keeps.invariant invariant event
    rcases List.mem_append.mp member with now | later
    · rw [Option.mem_toList] at now
      rw [now] at moved
      obtain ⟨request, pending, committed⟩ := moved.of_applied
      have stays := keeps.later next events key
      rw [committed] at stays
      exact ⟨request, pending ▸ .same _, stays.of_committed⟩
    · obtain ⟨request, pending, committed⟩ := ih next later
      exact ⟨request, (moved.later key).trans pending, committed⟩

/-- A key that a run commits was applied in it. -/
theorem Keeps.mem_applications (invariant : Invariant s) {request : R}
    (committed : ledger (events.foldl step s) key = .committed request effect) :
    ledger s key = .committed request effect ∨
      (key, effect) ∈ applications step applied s events := by
  induction events generalizing s with
  | nil => exact .inl committed
  | cons event events ih =>
    have moved := keeps.moved invariant event
    rcases ih (keeps.invariant invariant event) committed with already | later
    · rcases moved.of_committed already with before | now
      · exact .inl before
      · exact .inr (List.mem_append_left _ (Option.mem_toList.mpr now))
    · exact .inr (List.mem_append_right _ later)

end Systems
end Protocol
end Haystack
