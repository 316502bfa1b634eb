import Haystack.Graph.Batch

/-!
# The rows of a plan

Every change of a plan carries the row that the graph has under its id and the
row that the graph has there once the plan is published.  The ids are distinct,
and rows under other ids are left alone.
-/

namespace Haystack
namespace Graph

open Std (ExtTreeMap)
open Collections
open EntityGraph (PlanState Outcome)

/-- What a planned change says about the row after it is what its publication
makes of the row before it. -/
structure PreparedChange.Coherent (change : PreparedChange) : Prop where
  unchanged : change.changed = false → change.after = change.before
  add : change.changed = true → change.op = .add →
    ∃ keys row, change.mapKeys = some keys ∧ change.after = some row
  update : change.changed = true → change.op = .update → ∃ row, change.after = some row
  remove : change.op = .remove → change.after = none

/-- A coherent change installs its row. -/
theorem PreparedChange.Coherent.getElem?_applyRows
    {change : PreparedChange} (coherent : change.Coherent) {rows : Rows}
    (stood : change.before = rows.entities[change.id]?) :
    (change.applyRows rows).entities[change.id]? = change.after := by
  obtain ⟨id, op, _, _, changed, _, _⟩ := change
  cases changed with
  | false =>
    rw [coherent.unchanged rfl, stood]
    rfl
  | true =>
    cases op with
    | add =>
      obtain ⟨_, _, mapped, installed⟩ := coherent.add rfl rfl
      simp only at mapped installed
      simp [applyRows, mapped, installed]
    | update =>
      obtain ⟨_, installed⟩ := coherent.update rfl rfl
      simp only at installed
      simp [applyRows, installed]
    | remove =>
      have removed := coherent.remove rfl
      simp only at removed
      simp [applyRows, removed]

/-- A change leaves the rows under other ids alone. -/
theorem PreparedChange.getElem?_applyRows_of_ne
    (change : PreparedChange) (rows : Rows) {id : String} (other : change.id ≠ id) :
    (change.applyRows rows).entities[id]? = rows.entities[id]? := by
  unfold applyRows
  split
  · split <;> simp [ExtTreeMap.getElem?_insert, ExtTreeMap.getElem?_erase, other]
  · rfl

/-- The rows after changes under distinct ids. -/
theorem getElem?_foldl_applyRows
    {changes : List PreparedChange} (distinct : (changes.map (·.id)).Nodup)
    (coherent : ∀ change ∈ changes, change.Coherent) {rows : Rows}
    (stood : ∀ change ∈ changes, change.before = rows.entities[change.id]?) :
    (∀ change ∈ changes,
      (changes.foldl PreparedChange.applyRows rows).entities[change.id]? = change.after) ∧
      ∀ id, (∀ change ∈ changes, change.id ≠ id) →
        (changes.foldl PreparedChange.applyRows rows).entities[id]? = rows.entities[id]? := by
  induction changes generalizing rows with
  | nil => exact ⟨nofun, fun _ _ => rfl⟩
  | cons first changes ih =>
    rw [List.map_cons, List.nodup_cons] at distinct
    have apart : ∀ change ∈ changes, first.id ≠ change.id := by
      intro change member same
      exact distinct.1 (same ▸ List.mem_map_of_mem member)
    have standing : ∀ change ∈ changes,
        change.before = (first.applyRows rows).entities[change.id]? := by
      intro change member
      rw [first.getElem?_applyRows_of_ne rows (apart change member)]
      exact stood change (List.mem_cons_of_mem _ member)
    have rest := ih distinct.2
      (fun change member => coherent change (List.mem_cons_of_mem _ member))
      standing
    constructor
    · intro change member
      rcases List.mem_cons.mp member with rfl | member
      · rw [List.foldl_cons, rest.2 change.id fun other there same =>
          apart other there same.symm]
        exact (coherent change List.mem_cons_self).getElem?_applyRows
          (stood change List.mem_cons_self)
      · exact rest.1 change member
    · intro id others
      rw [List.foldl_cons, rest.2 id fun change member =>
        others change (List.mem_cons_of_mem _ member)]
      exact first.getElem?_applyRows_of_ne rows (others first List.mem_cons_self)

namespace EntityGraph

variable {N C : Type}

/-- The changes of a plan under construction. -/
structure Sighted (g : EntityGraph N C) (plan : PlanState) : Prop where
  distinct : (plan.changes.map (·.id)).Nodup
  seen : ∀ change ∈ plan.changes, change.id ∈ plan.seen
  before : ∀ change ∈ plan.changes, change.before = g.entities[change.id]?
  coherent : ∀ change ∈ plan.changes, change.Coherent

variable {g : EntityGraph N C} {plan after : PlanState}

theorem planId_frame {numeric : Nat} (planned : g.planId plan = .ok (numeric, after)) :
    after.changes = plan.changes ∧ after.seen = plan.seen := by
  unfold planId at planned
  split at planned
  · obtain ⟨_, rfl⟩ := Prod.mk.inj (Except.ok.inj planned)
    exact ⟨rfl, rfl⟩
  split at planned
  · obtain ⟨_, rfl⟩ := Prod.mk.inj (Except.ok.inj planned)
    exact ⟨rfl, rfl⟩
  split at planned
  · cases planned
  · obtain ⟨_, rfl⟩ := Prod.mk.inj (Except.ok.inj planned)
    exact ⟨rfl, rfl⟩

/-- The decision about an operation is coherent, and records no change yet. -/
structure DecidedCoherently (id : String) (before : Option HDict) (plan after : PlanState)
    (outcome : Outcome) : Prop where
  changes : after.changes = plan.changes
  seen : after.seen = plan.seen
  coherent : (plannedChange id before outcome).Coherent

variable {id : String} {before : Option HDict} {outcome : Outcome}

theorem planAdd_coherent {row : HDict}
    (decided : g.planAdd id before row plan = .ok (outcome, after)) :
    DecidedCoherently id before plan after outcome := by
  unfold planAdd at decided
  split at decided
  · cases decided
  obtain ⟨_, _, decided⟩ := except_bind_eq_ok.mp decided
  obtain ⟨⟨_, _⟩, identified, decided⟩ := except_bind_eq_ok.mp decided
  obtain ⟨rfl, rfl⟩ := Prod.mk.inj (Except.ok.inj decided)
  obtain ⟨changes, seen⟩ := planId_frame identified
  exact ⟨changes, seen, ⟨nofun, fun _ _ => ⟨(id, id), row, rfl, rfl⟩, nofun, nofun⟩⟩

theorem planPatch_coherent {changes : HDict}
    (decided : g.planPatch id before changes plan = .ok (outcome, after)) :
    DecidedCoherently id before plan after outcome := by
  unfold planPatch at decided
  split at decided
  · split at decided
    · cases decided
    obtain ⟨_, _, decided⟩ := except_bind_eq_ok.mp decided
    obtain ⟨_, _, decided⟩ := except_bind_eq_ok.mp decided
    obtain ⟨_, _, decided⟩ := except_bind_eq_ok.mp decided
    obtain ⟨_, _, decided⟩ := except_bind_eq_ok.mp decided
    obtain ⟨_, _, decided⟩ := except_bind_eq_ok.mp decided
    obtain ⟨rfl, rfl⟩ := Prod.mk.inj (Except.ok.inj decided)
    refine ⟨rfl, rfl, ⟨?_, nofun, fun _ _ => ⟨_, rfl⟩, nofun⟩⟩
    intro unchanged
    -- An empty patch merges to the row itself.
    obtain rfl : changes = HDict.new :=
      HDict.isEmpty_iff.mp (by simpa [plannedChange] using unchanged)
    simp [plannedChange]
  · cases decided

theorem planRemove_coherent (decided : g.planRemove id before plan = .ok (outcome, after)) :
    DecidedCoherently id before plan after outcome := by
  unfold planRemove at decided
  split at decided
  · obtain ⟨rfl, rfl⟩ := Prod.mk.inj (Except.ok.inj decided)
    exact ⟨rfl, rfl, ⟨nofun, nofun, nofun, fun _ => rfl⟩⟩
  · cases decided

theorem planOutcome_coherent {operation : EntityOperation}
    (decided : g.planOutcome operation id before plan = .ok (outcome, after)) :
    DecidedCoherently id before plan after outcome := by
  cases operation with
  | add => exact planAdd_coherent decided
  | patch => exact planPatch_coherent decided
  | remove => exact planRemove_coherent decided

theorem planRecord_frame (recorded : g.planRecord id before outcome plan = .ok after) :
    after.changes = plan.changes ∧ after.seen = plan.seen := by
  cases changed : outcome.changed with
  | false =>
    obtain rfl := planRecord_unchanged changed recorded
    exact ⟨rfl, rfl⟩
  | true =>
    obtain ⟨_, _, _, same⟩ := planRecord_changed changed recorded
    rw [same]
    exact ⟨rfl, rfl⟩

/-- One iteration of the planning loop sights one more row. -/
theorem Sighted.operation (sighted : Sighted g plan) {operation : EntityOperation}
    (stepped : g.planOperation plan operation = .ok after) : Sighted g after := by
  obtain ⟨id, _, stepped⟩ := except_bind_eq_ok.mp stepped
  obtain ⟨_, _, stepped⟩ := except_bind_eq_ok.mp stepped
  split at stepped
  · cases stepped
  rename_i notSeen
  have untouched : id ∉ plan.seen := by simpa using notSeen
  obtain ⟨_, _, stepped⟩ := except_bind_eq_ok.mp stepped
  obtain ⟨⟨outcome, _⟩, decided, stepped⟩ := except_bind_eq_ok.mp stepped
  obtain ⟨recordedPlan, recorded, stepped⟩ := except_bind_eq_ok.mp stepped
  obtain rfl := (Except.ok.inj stepped).symm
  have coherent := planOutcome_coherent decided
  obtain ⟨changes, seen⟩ := planRecord_frame recorded
  rw [coherent.changes] at changes
  rw [coherent.seen] at seen
  have either : ∀ change ∈ recordedPlan.changes ++ [plannedChange id g.entities[id]? outcome],
      change ∈ plan.changes ∨ change = plannedChange id g.entities[id]? outcome := by
    intro change member
    rw [changes] at member
    simpa using member
  constructor
  · simp only [changes, List.map_append]
    refine List.nodup_append.mpr ⟨sighted.distinct, List.nodup_singleton _, ?_⟩
    intro old member new added same
    obtain ⟨change, planned, rfl⟩ := List.mem_map.mp member
    replace same : change.id = id := same.trans (List.mem_singleton.mp added)
    exact untouched (same ▸ sighted.seen change planned)
  · intro change member
    simp only [seen]
    rcases either change member with old | rfl
    · exact List.mem_cons_of_mem _ (sighted.seen change old)
    · exact List.mem_cons_self
  · intro change member
    rcases either change member with old | rfl
    · exact sighted.before change old
    · rfl
  · intro change member
    rcases either change member with old | rfl
    · exact sighted.coherent change old
    · exact coherent.coherent

theorem Sighted.operations (sighted : Sighted g plan) {operations : List EntityOperation}
    (finished : operations.foldlM g.planOperation plan = .ok after) : Sighted g after := by
  induction operations generalizing plan with
  | nil =>
    obtain rfl := Except.ok.inj finished
    exact sighted
  | cons operation operations ih =>
    obtain ⟨_, stepped, finished⟩ := except_bind_eq_ok.mp finished
    exact ih (sighted.operation stepped) finished

theorem sighted_initial (g : EntityGraph N C) (budget : ValueBudget) (nextId revision : Nat) :
    Sighted g ⟨budget, [], [], [], 0, [], nextId, revision⟩ where
  distinct := List.nodup_nil
  seen := nofun
  before := nofun
  coherent := nofun

/-- The changes of a plan are about distinct rows of the graph it was prepared
for, and each is coherent. -/
structure PlansRows (g : EntityGraph N C) (plan : PreparedBatch) : Prop where
  distinct : (plan.changes.map (·.id)).Nodup
  before : ∀ change ∈ plan.changes, change.before = g.entities[change.id]?
  coherent : ∀ change ∈ plan.changes, change.Coherent

variable {plan : PreparedBatch}

theorem prepareBatch_plansRows {allocation : Allocation} {expectedRevision : Nat}
    {operations : List EntityOperation} {limits : BatchLimits}
    (prepared : g.prepareBatch allocation expectedRevision operations limits = .ok plan) :
    PlansRows g plan := by
  unfold prepareBatch at prepared
  split at prepared
  · cases prepared
  split at prepared
  · cases prepared
  split at prepared
  · cases prepared
  obtain ⟨_, _, prepared⟩ := except_bind_eq_ok.mp prepared
  obtain ⟨_, _, prepared⟩ := except_bind_eq_ok.mp prepared
  obtain ⟨final, finished, prepared⟩ := except_bind_eq_ok.mp prepared
  obtain ⟨_, _, prepared⟩ := except_bind_eq_ok.mp prepared
  split at prepared
  · cases prepared
  obtain ⟨_, _, prepared⟩ := except_bind_eq_ok.mp prepared
  obtain rfl := Except.ok.inj prepared
  have sighted : Sighted g final := (sighted_initial g _ g.nextId g.version).operations finished
  exact ⟨sighted.distinct, sighted.before, sighted.coherent⟩

/-- The publication of a plan replaces exactly the rows that its changes show. -/
theorem PlansRows.published {current after : EntityGraph N C}
    (rows : PlansRows g plan) (stood : current.rows = g.rows) {now : Int}
    {reserved : Bool} {span : Option CommitSpan}
    (applied : current.applyPrepared now reserved plan = .ok (span, after)) :
    (∀ change ∈ plan.changes, change.before = current.entities[change.id]? ∧
        change.after = after.entities[change.id]?) ∧
      ∀ id, (∀ change ∈ plan.changes, change.id ≠ id) →
        after.entities[id]? = current.entities[id]? := by
  have before : ∀ change ∈ plan.changes, change.before = current.rows.entities[change.id]? := by
    intro change member
    rw [rows.before change member, stood]
    rfl
  have result := getElem?_foldl_applyRows rows.distinct rows.coherent before
  have installed : after.entities =
      (plan.changes.foldl PreparedChange.applyRows current.rows).entities := by
    unfold applyPrepared at applied
    split at applied
    · cases applied
    split at applied
    · cases applied
    rw [foldl_applyChange_eq] at applied
    obtain ⟨_, rfl⟩ := Prod.mk.inj (Except.ok.inj applied)
    rfl
  rw [installed]
  exact ⟨fun change member =>
    ⟨before change member, (result.1 change member).symm⟩, result.2⟩

end EntityGraph
end Graph
end Haystack
