import Haystack.App.Command

/-!
# The store of the command simulator

The byte count of the store is the sum of its points, a point's effective value is
that of its first occupied slot, and a slot holds what was last written to it
unless its own deadline has passed.
-/

namespace Haystack
namespace App
namespace Command

open Std (ExtTreeMap)
open Collections Haystack.Graph

/-! ## Effective values -/

variable {slots : Slots}

theorem firstValue_eq_some_iff {index : Fin 17} {value : PointValue} :
    firstValue slots = some (index, value) ↔ (slots index).value = some value ∧
        ∀ lower < index, (slots lower).value = none := by
  unfold firstValue
  rw [List.findSome?_eq_some_iff]
  constructor
  · rintro ⟨lowers, found, uppers, split, occupied, empty⟩
    obtain ⟨_, occupied, same⟩ := Option.map_eq_some_iff.mp occupied
    cases same
    refine ⟨occupied, fun lower below => ?_⟩
    have ordered := List.pairwise_lt_finRange 17
    rw [split, List.pairwise_append, List.pairwise_cons] at ordered
    have member := List.mem_finRange lower
    rw [split, List.mem_append, List.mem_cons] at member
    rcases member with earlier | rfl | later
    · exact Option.map_eq_none_iff.mp (empty lower earlier)
    · exact absurd below (lt_irrefl _)
    · exact absurd (ordered.2.1.1 lower later) (lt_asymm below)
  · rintro ⟨occupied, empty⟩
    obtain ⟨lowers, uppers, split⟩ := List.append_of_mem (List.mem_finRange index)
    refine ⟨lowers, index, uppers, split, by rw [occupied, Option.map_some], ?_⟩
    have ordered := List.pairwise_lt_finRange 17
    rw [split, List.pairwise_append] at ordered
    intro lower earlier
    rw [empty lower (ordered.2.2 lower earlier index List.mem_cons_self), Option.map_none]

theorem firstValue_eq_none_iff :
    firstValue slots = none ↔ ∀ index, (slots index).value = none := by
  simp [firstValue]

/-- The effective value is that of the lowest occupied slot. -/
def Point.Effective (point : Point) : Prop :=
  (∃ index value, (point.slots index).value = some value ∧
    (∀ lower < index, (point.slots lower).value = none) ∧
    point.effective = some value ∧ point.effectiveLevel = index + 1) ∨
  (∀ index, (point.slots index).value = none) ∧ point.effective = none ∧ point.effectiveLevel = 17

variable {point : Point}

namespace Point

@[simp] theorem slots_resolve (point : Point) : point.resolve.slots = point.slots := by
  unfold resolve
  split <;> rfl

@[simp] theorem schema_resolve (point : Point) : point.resolve.schema = point.schema := by
  unfold resolve
  split <;> rfl

@[simp] theorem graph_resolve (point : Point) : point.resolve.graph = point.graph := by
  unfold resolve
  split <;> rfl

theorem effective_resolve (point : Point) : point.resolve.Effective := by
  unfold resolve
  split
  · rename_i index value found
    obtain ⟨occupied, lowest⟩ := firstValue_eq_some_iff.mp found
    exact .inl ⟨index, value, occupied, lowest, rfl, rfl⟩
  · rename_i absent
    exact .inr ⟨firstValue_eq_none_iff.mp absent, rfl, rfl⟩

@[simp] theorem slots_expire (point : Point) (now : Nat) :
    (point.expire now).slots = fun index => (point.slots index).expire now := by
  unfold expire
  split
  · rw [slots_resolve]
  · rename_i idle
    simp only [List.any_eq_true, List.mem_finRange, true_and, not_exists] at idle
    funext index
    simp [Slot.expire, idle index]

@[simp] theorem schema_expire (point : Point) (now : Nat) :
    (point.expire now).schema = point.schema := by
  unfold expire
  split
  · rw [schema_resolve]
  · rfl

theorem Effective.expire (effective : point.Effective) (now : Nat) :
    (point.expire now).Effective := by
  unfold Point.expire
  split
  · exact effective_resolve _
  · exact effective

end Point

/-! ## Bytes -/

variable {list : List Nat}

theorem foldl_max_le {start bound : Nat} (startLe : start ≤ bound) (all : ∀ n ∈ list, n ≤ bound) :
    list.foldl max start ≤ bound := by
  induction list generalizing start with
  | nil => exact startLe
  | cons head tail ih =>
    exact ih (max_le startLe (all head List.mem_cons_self))
      fun n member => all n (List.mem_cons_of_mem head member)

theorem le_foldl_max {start n : Nat} (listed : n ≤ start ∨ n ∈ list) :
    n ≤ list.foldl max start := by
  induction list generalizing start with
  | nil => simpa using listed
  | cons head tail ih =>
    apply ih
    rcases listed with below | member
    · exact .inl (below.trans (le_max_left _ _))
    · rcases List.mem_cons.mp member with rfl | member
      · exact .inl (le_max_right _ _)
      · exact .inr member

theorem Slot.bytes_expire_le (slot : Slot) (now : Nat) :
    (slot.expire now).bytes ≤ slot.bytes := by
  unfold Slot.expire
  split
  · simp [Slot.bytes]
  · exact le_rfl

/-- Expiry frees bytes. -/
theorem Point.bytes_expire_le (point : Point) (now : Nat) (id : String) :
    (point.expire now).bytes id ≤ point.bytes id := by
  have slots : ((List.finRange 17).map fun index =>
      ((point.slots index).expire now).bytes).sum ≤
        ((List.finRange 17).map fun index => (point.slots index).bytes).sum :=
    List.sum_le_sum fun index _ => Slot.bytes_expire_le _ now
  have largest : largestValue (fun index => (point.slots index).expire now) ≤
      largestValue point.slots := by
    refine foldl_max_le (Nat.zero_le _) ?_
    intro n member
    refine le_foldl_max (.inr ?_)
    rw [List.mem_filterMap] at member ⊢
    obtain ⟨index, listed, found⟩ := member
    refine ⟨index, listed, ?_⟩
    dsimp only [Slot.expire] at found
    split at found
    · cases found
    · exact found
  simp only [Point.bytes, Point.slots_expire, Point.schema_expire]
  omega

/-- The bytes of all points. -/
def totalBytes (points : ExtTreeMap String Point) : Nat :=
  (points.toList.map fun entry => entry.2.bytes entry.1).sum

theorem sum_bytes_perm {left right : List (String × Point)} (same : left.Perm right) :
    (left.map fun entry => entry.2.bytes entry.1).sum =
      (right.map fun entry => entry.2.bytes entry.1).sum :=
  (same.map _).sum_eq

variable {id : String}

/-- The bytes of a point and of the others. -/
theorem totalBytes_erase {points : ExtTreeMap String Point} (found : points[id]? = some point) :
    totalBytes points = point.bytes id + totalBytes (points.erase id) := by
  rw [totalBytes, sum_bytes_perm (toList_erase_perm found), List.map_cons,
    List.sum_cons, totalBytes]

/-- Replacing a point exchanges its bytes. -/
theorem totalBytes_insert (points : ExtTreeMap String Point) (id : String) (point : Point) :
    totalBytes (points.insert id point) + (points[id]?.map (Point.bytes · id)).getD 0 =
      totalBytes points + point.bytes id := by
  have added : totalBytes (points.insert id point) =
      point.bytes id + totalBytes (points.erase id) := by
    have absent : (points.erase id)[id]? = none := ExtTreeMap.getElem?_erase_self
    rw [← insert_erase points id point, totalBytes,
      sum_bytes_perm (toList_insert_perm absent point), List.map_cons,
      List.sum_cons, totalBytes]
  cases found : points[id]? with
  | none =>
    have same : points.erase id = points := by
      apply ExtTreeMap.ext_getElem?
      intro other
      rw [ExtTreeMap.getElem?_erase]
      split
      · rename_i equal
        rw [← compare_eq_iff_eq.mp equal, found]
      · rfl
    rw [added, same, Option.map_none, Option.getD_none]
    omega
  | some =>
    rw [totalBytes_erase found, Option.map_some, Option.getD_some]
    omega

/-! ## Expiry of the store -/

variable {now : Nat} {store : Store}

/-- What the loop over some of the points does. -/
theorem foldlM_expirePoint (entries : List (String × Point))
    (distinct : entries.Pairwise fun left right => left.1 ≠ right.1)
    (listed : ∀ entry ∈ entries, store.points[entry.1]? = some entry.2)
    (counted : store.bytes = totalBytes store.points) :
    ∃ result, entries.foldlM (Store.expirePoint now) store = some result ∧
      result.bytes = totalBytes result.points ∧ result.bytes ≤ store.bytes ∧
      ∀ id : String, result.points[id]? = store.points[id]?.map fun point =>
        if (∃ entry ∈ entries, entry.1 = id) then point.expire now else point := by
  induction entries generalizing store with
  | nil => exact ⟨store, rfl, counted, le_rfl, by simp⟩
  | cons entry entries ih =>
    obtain ⟨id, point⟩ := entry
    obtain ⟨others, distinct⟩ := List.pairwise_cons.mp distinct
    have found : store.points[id]? = some point := listed (id, point) List.mem_cons_self
    have part := totalBytes_erase found
    have exchanged := totalBytes_insert store.points id (point.expire now)
    rw [found, Option.map_some, Option.getD_some] at exchanged
    have smaller := point.bytes_expire_le now id
    have next : ∃ middle, Store.expirePoint now store (id, point) = some middle ∧
        middle.bytes = totalBytes middle.points ∧
        middle.bytes ≤ store.bytes ∧
        ∀ other : String, middle.points[other]? = if id = other
          then some (point.expire now) else store.points[other]? := by
      unfold Store.expirePoint
      split
      · have enough : point.bytes id ≤ store.bytes := by omega
        refine ⟨_, by simp only [checkedSub, enough, if_true]; rfl, ?_, ?_, ?_⟩
        · dsimp only
          omega
        · dsimp only
          omega
        · simp [ExtTreeMap.getElem?_insert]
      · rename_i idle
        have same : point.expire now = point := if_neg idle
        refine ⟨store, rfl, counted, le_rfl, fun other => ?_⟩
        split
        · rename_i equal
          rw [same, ← equal, found]
        · rfl
    obtain ⟨middle, expired, countedMiddle, less, points⟩ := next
    have listedMiddle : ∀ entry ∈ entries, middle.points[entry.1]? = some entry.2 := by
      intro entry member
      rw [points, if_neg (others entry member)]
      exact listed entry (List.mem_cons_of_mem _ member)
    obtain ⟨result, ran, countedResult, lessResult, final⟩ :=
      ih distinct listedMiddle countedMiddle
    refine ⟨result, ?_, countedResult, lessResult.trans less, ?_⟩
    · rw [List.foldlM_cons, expired]
      exact ran
    · intro other
      rw [final other, points other]
      by_cases same : id = other
      · subst same
        have fresh : ¬ ∃ entry ∈ entries, entry.1 = id := by
          rintro ⟨entry, member, same⟩
          exact others entry member same.symm
        simp [found, fresh]
      · have later : (∃ entry ∈ (id, point) :: entries, entry.1 = other) ↔
            ∃ entry ∈ entries, entry.1 = other := by
          simp [same]
        simp only [if_neg same, later]

/-- Expiry never underflows; it expires every point and nothing else. -/
theorem Store.expire_eq (counted : store.bytes = totalBytes store.points) (now : Nat) :
    ∃ result, store.expire now = some result ∧
      result.bytes = totalBytes result.points ∧ result.bytes ≤ store.bytes ∧
      ∀ id : String, result.points[id]? = store.points[id]?.map (Point.expire · now) := by
  obtain ⟨result, ran, countedResult, less, points⟩ :=
    foldlM_expirePoint store.points.toList (pairwise_toList store.points) (fun entry member =>
        ExtTreeMap.mem_toList_iff_getElem?_eq_some.mp member) counted
  refine ⟨result, ran, countedResult, less, fun id => ?_⟩
  rw [points]
  cases found : store.points[id]? with
  | none => rfl
  | some point =>
    have member : ∃ entry ∈ store.points.toList, entry.1 = id :=
      ⟨(id, point), ExtTreeMap.mem_toList_iff_getElem?_eq_some.mpr found, rfl⟩
    simp [member]

/-! ## What a slot holds -/

/-- The commands that wrote a slot. -/
def writes (publications : List Publication) (id : String) (level : Fin 17) : List Publication :=
  publications.filter fun publication =>
    publication.id = id ∧ publication.level = some level

/-- The value and the deadline that a slot was last given. -/
def lastWrite (publications : List Publication) (id : String) (schema : Schema)
    (level : Fin 17) : Option PointValue × Option Nat :=
  match (writes publications id level).getLast? with
  | some publication => (publication.value, publication.deadline)
  | none => (if level = 16 then schema.default else none, none)

/-- A slot holds its last value, or the deadline of this value has passed. -/
structure Slot.Holds (publications : List Publication) (now : Nat) (id : String)
    (schema : Schema) (level : Fin 17)
    (slot : Slot) : Prop where
  generation : slot.generation = (writes publications id level).length
  value : (slot.value, slot.deadline) = lastWrite publications id schema level ∨
    (slot.value = none ∧ slot.deadline = none ∧
      ∃ deadline, (lastWrite publications id schema level).2 = some deadline ∧ deadline ≤ now)

variable {publications : List Publication} {level : Fin 17} {schema : Schema} {slot : Slot}

variable (holds : slot.Holds publications now id schema level)

include holds

theorem Slot.Holds.later {later : Nat} (ordered : now ≤ later) :
    slot.Holds publications later id schema level := by
  refine ⟨holds.generation, holds.value.imp_right ?_⟩
  rintro ⟨value, deadline, due, last, passed⟩
  exact ⟨value, deadline, due, last, passed.trans ordered⟩

theorem Slot.Holds.expire : (slot.expire now).Holds publications now id schema level := by
  unfold Slot.expire
  split
  · rename_i due
    refine ⟨holds.generation, .inr ⟨rfl, rfl, ?_⟩⟩
    obtain ⟨deadline, set, passed⟩ : ∃ deadline,
        slot.deadline = some deadline ∧ deadline ≤ now := by
      simpa [Slot.isDue, Option.any_eq_true] using due
    rcases holds.value with same | ⟨_, unset, _⟩
    · exact ⟨deadline, by rw [← same, set], passed⟩
    · rw [unset] at set
      cases set
  · exact holds

omit holds

variable {publication : Publication}

/-- The publications of other slots do not matter. -/
theorem writes_append_other (other : ¬ (publication.id = id ∧ publication.level = some level)) :
    writes (publications ++ [publication]) id level = writes publications id level := by
  simp [writes, other]

theorem writes_append_self (written : publication.level = some level) :
    writes (publications ++ [publication]) publication.id level =
      writes publications publication.id level ++ [publication] := by
  simp [writes, written]

theorem Slot.Holds.append_other (holds : slot.Holds publications now id schema level)
    (other : ¬ (publication.id = id ∧ publication.level = some level)) :
    slot.Holds (publications ++ [publication]) now id schema level := by
  have same : writes (publications ++ [publication]) id level = writes publications id level :=
    writes_append_other other
  refine ⟨?_, ?_⟩
  · rw [same]
    exact holds.generation
  · unfold lastWrite
    rw [same]
    exact holds.value

/-! ## Publications -/

variable {failure : ApiError}

@[simp] theorem orFail_eq_ok {value : Option α} {result : α} :
    orFail value failure = .ok result ↔ value = some result := by
  cases value <;> simp [orFail]

@[simp] theorem refuseIf_eq_ok {condition : Bool} {done : Unit} :
    refuseIf condition failure = .ok done ↔ condition = false := by
  cases condition <;> simp [refuseIf]

/-- What a command writes into its slot. -/
def writtenSlot (prepared : Prepared) (now : Nat) (slot : Slot) : Slot where
  value := prepared.value
  who := some prepared.who
  generation := slot.generation + 1
  deadline := prepared.request.duration.map (now + ·)

variable {service : CommandService}

theorem deadline_eq_ok {duration deadline : Option Nat}
    (succeeded : service.deadline duration now = .ok deadline) :
    deadline = duration.map (now + ·) := by
  cases duration with
  | none =>
    cases succeeded
    rfl
  | some =>
    obtain ⟨_, added, same⟩ := except_map_eq_ok.mp succeeded
    rw [orFail_eq_ok] at added
    rw [← same, (checkedAdd_eq_some_iff.mp added).1, Option.map_some]

variable {prepared : Prepared}

theorem writeSlot_eq_ok {written : Slot}
    (succeeded : service.writeSlot prepared now slot = .ok written) :
    written = writtenSlot prepared now slot := by
  simp only [CommandService.writeSlot, except_bind_eq_ok, orFail_eq_ok] at succeeded
  obtain ⟨_, incremented, _, set, same⟩ := succeeded
  cases same
  rw [(checkedAdd_eq_some_iff.mp incremented).1, deadline_eq_ok set, writtenSlot]

/-- The slots after a request. -/
def commandedSlots (prepared : Prepared) (now : Nat) (slots : Slots) : Slots :=
  match prepared.request.level with
  | none => slots
  | some level => Function.update slots (slotIndex level)
      (writtenSlot prepared now (slots (slotIndex level)))

theorem command_eq_ok {stored : Option Point}
    (succeeded : service.command prepared now stored = .ok point) :
    point.schema = (basePoint prepared stored).schema ∧
      point.graph = (basePoint prepared stored).graph ∧
      point.slots = commandedSlots prepared now (basePoint prepared stored).slots ∧
      point.Effective := by
  unfold CommandService.command at succeeded
  unfold commandedSlots
  cases requested : prepared.request.level with
  | none =>
    simp only [requested] at succeeded
    cases succeeded
    exact ⟨Point.schema_resolve _, Point.graph_resolve _, Point.slots_resolve _,
      Point.effective_resolve _⟩
  | some =>
    simp only [requested, except_bind_eq_ok] at succeeded
    obtain ⟨_, written, same⟩ := succeeded
    cases same
    cases writeSlot_eq_ok written
    exact ⟨Point.schema_resolve _, Point.graph_resolve _, Point.slots_resolve _,
      Point.effective_resolve _⟩

variable {g : EntityGraph N C} {stops : PublishStops}

theorem replacePoint_eq_ok {total : Nat}
    (succeeded : service.replacePoint g store now prepared stops = .ok (point, total)) :
    (∀ stored, store.points[prepared.request.id]? = some stored →
      service.checkStored g prepared stops.charge stored = .ok ()) ∧
    service.command prepared (now + stops.elapsed)
      store.points[prepared.request.id]? = .ok point ∧
    total = store.bytes - (store.points[prepared.request.id]?.map
      (Point.bytes · prepared.request.id)).getD 0 + point.bytes prepared.request.id ∧
    total ≤ service.limits.maxRetainedBytes := by
  simp only [CommandService.replacePoint, except_bind_eq_ok, orFail_eq_ok,
    refuseIf_eq_ok, decide_eq_false_iff_not, not_lt] at succeeded
  obtain ⟨_, checked, _, commanded, _, added, _, fits, _, _, _, _, same⟩ := succeeded
  cases same
  refine ⟨?_, commanded, (checkedAdd_eq_some_iff.mp added).1, fits⟩
  intro stored found
  rw [CommandService.checkPoint, found] at checked
  exact checked

/-- What a publication does to the store. -/
inductive Published (service : CommandService) (g : EntityGraph N C) (store : Store) (now : Nat)
    (prepared : Prepared)
    (stops : PublishStops) : Store → Except ApiError Slots → Prop
  | refused (failure : ApiError) :
      Published service g store now prepared stops store (.error failure)
  | expired {result : Store} (failure : ApiError) (expires : store.expire now = some result) :
      Published service g store now prepared stops result (.error failure)
  | published {expired : Store} {point : Point} {total : Nat}
      (checked : checkPublication g prepared stops = .ok ())
      (expires : store.expire now = some expired)
      (replaced : service.replacePoint g expired now prepared stops = .ok (point, total)) :
      Published service g store now prepared stops
        ⟨expired.points.insert prepared.request.id point, total⟩
        (.ok point.slots)

theorem publish_published {result : Store} {answer : Except ApiError Slots}
    (ran : service.publish g store now prepared stops = some (result, answer)) :
    Published service g store now prepared stops result answer := by
  unfold CommandService.publish at ran
  split at ran
  · cases ran
    exact .refused _
  · rename_i checked
    obtain ⟨expired, expires, ran⟩ := Option.bind_eq_some_iff.mp ran
    split at ran
    · cases ran
      exact .expired _ expires
    · rename_i replaced
      cases ran
      exact .published checked expires replaced

/-- A request writes the slot of its level. -/
theorem holds_commandedSlots
    (holds : (slots level).Holds publications now prepared.request.id schema level) :
    (commandedSlots prepared now slots level).Holds
      (publications ++ [CommandService.publication prepared now]) now
      prepared.request.id schema level := by
  cases commands : prepared.request.level with
  | none =>
    simp only [commandedSlots, commands]
    refine holds.append_other ?_
    rintro ⟨_, written⟩
    simp [CommandService.publication, commands] at written
  | some commanded =>
    simp only [commandedSlots, commands]
    by_cases same : level = slotIndex commanded
    · have written : (CommandService.publication prepared now).level = some level := by
        rw [CommandService.publication, commands, same, Option.map_some]
      have appended : writes (publications ++ [CommandService.publication prepared now])
          prepared.request.id level = writes publications prepared.request.id level ++
              [CommandService.publication prepared now] :=
        writes_append_self written
      rw [← same, Function.update_self]
      refine ⟨?_, .inl ?_⟩
      · rw [appended, List.length_append, List.length_singleton, ← holds.generation, writtenSlot]
      · rw [lastWrite, appended, List.getLast?_concat]
        rfl
    · rw [Function.update_of_ne same]
      refine holds.append_other ?_
      rintro ⟨_, written⟩
      rw [CommandService.publication, commands, Option.map_some, Option.some.injEq] at written
      exact same written.symm

/-! ## The invariant of the store -/

/-- The store agrees with its byte count, with its limit and with what was
published. -/
structure Store.Sound (service : CommandService) (publications : List Publication) (now : Nat)
    (store : Store) : Prop where
  counted : store.bytes = totalBytes store.points
  bounded : store.bytes ≤ service.limits.maxRetainedBytes
  effective : ∀ (id : String) point, store.points[id]? = some point → point.Effective
  holds : ∀ (id : String) point, store.points[id]? = some point →
    ∀ level, (point.slots level).Holds publications now id point.schema level
  known : ∀ publication ∈ publications, ∃ point, store.points[publication.id]? = some point

namespace Store.Sound

variable {service : CommandService} {publications : List Publication} {now : Nat}
variable {store result : Store}

variable (sound : store.Sound service publications now)

include sound

theorem later {time : Nat} (ordered : now ≤ time) :
    store.Sound service publications time where
  counted := sound.counted
  bounded := sound.bounded
  effective := sound.effective
  holds id point found level := (sound.holds id point found level).later ordered
  known := sound.known

theorem expire (expires : store.expire now = some result) :
    result.Sound service publications now := by
  obtain ⟨_, ran, counted, less, points⟩ := Store.expire_eq sound.counted now
  cases expires.symm.trans ran
  have expired {id : String} {point : Point} (found : result.points[id]? = some point) :
      ∃ stored, store.points[id]? = some stored ∧ stored.expire now = point := by
    rw [points] at found
    exact Option.map_eq_some_iff.mp found
  refine ⟨counted, less.trans sound.bounded, ?_, ?_, ?_⟩
  · intro id point found
    obtain ⟨stored, before, rfl⟩ := expired found
    exact (sound.effective id stored before).expire now
  · intro id point found level
    obtain ⟨stored, before, rfl⟩ := expired found
    rw [Point.slots_expire, Point.schema_expire]
    exact (sound.holds id stored before level).expire
  · intro publication member
    obtain ⟨stored, before⟩ := sound.known publication member
    exact ⟨stored.expire now, by rw [points, before, Option.map_some]⟩

/-- The slots that a request starts from hold what was written before. -/
theorem holds_basePoint (prepared : Prepared) (level : Fin 17) :
    let base := basePoint prepared store.points[prepared.request.id]?
    (base.slots level).Holds publications now prepared.request.id base.schema level := by
  cases found : store.points[prepared.request.id]? with
  | some stored => exact sound.holds _ stored found level
  | none =>
    have unwritten : writes publications prepared.request.id level = [] := by
      rw [writes, List.filter_eq_nil_iff]
      intro publication member matched
      obtain ⟨_, stored⟩ := sound.known publication member
      rw [(of_decide_eq_true matched).1, found] at stored
      cases stored
    have last : lastWrite publications prepared.request.id prepared.schema level =
        (if level = 16 then prepared.schema.default else none, none) := by
      rw [lastWrite, unwritten]
      rfl
    have slot : (basePoint prepared none).slots level =
        if level = 16 then { Slot.empty with value := prepared.schema.default }
        else .empty := by
      simp [basePoint, Point.new, Function.update_apply]
    have schema : (basePoint prepared none).schema = prepared.schema := by
      simp [basePoint, Point.new]
    dsimp only
    rw [slot, schema]
    refine ⟨?_, .inl ?_⟩
    · rw [unwritten]
      split <;> rfl
    · rw [last]
      split <;> rfl

theorem replace {total : Nat}
    (replaced : service.replacePoint g store now prepared stops = .ok (point, total)) :
    Store.Sound service
      (publications ++ [CommandService.publication prepared (now + stops.elapsed)])
      (now + stops.elapsed)
      ⟨store.points.insert prepared.request.id point, total⟩ := by
  obtain ⟨_, commanded, _, fits⟩ := replacePoint_eq_ok replaced
  obtain ⟨schema, _, slots, effective⟩ := command_eq_ok commanded
  have timely := sound.later (Nat.le_add_right now stops.elapsed)
  have exchanged := totalBytes_insert store.points prepared.request.id point
  have part : (store.points[prepared.request.id]?.map
      (Point.bytes · prepared.request.id)).getD 0 ≤ store.bytes := by
    cases found : store.points[prepared.request.id]? with
    | none => exact Nat.zero_le _
    | some =>
      rw [sound.counted, totalBytes_erase found]
      exact Nat.le_add_right _ _
  refine ⟨?_, fits, ?_, ?_, ?_⟩
  · have counted := sound.counted
    dsimp only
    omega
  · intro id other found
    rw [ExtTreeMap.getElem?_insert] at found
    split at found
    · cases found
      exact effective
    · exact sound.effective id other found
  · intro id other found level
    rw [ExtTreeMap.getElem?_insert] at found
    split at found
    · rename_i same
      cases compare_eq_iff_eq.mp same
      cases found
      rw [slots, schema]
      exact holds_commandedSlots (timely.holds_basePoint prepared level)
    · rename_i different
      refine (timely.holds id other found level).append_other ?_
      rintro ⟨same, _⟩
      exact different (compare_eq_iff_eq.mpr same)
  · intro publication member
    rw [List.mem_append, List.mem_singleton] at member
    rw [ExtTreeMap.getElem?_insert]
    split
    · exact ⟨point, rfl⟩
    · rename_i different
      rcases member with earlier | rfl
      · exact sound.known publication earlier
      · exact absurd (compare_eq_iff_eq.mpr rfl) different

end Store.Sound

/-! ## Runs -/

namespace State

variable {N C : Type} {service : CommandService} {ontology : Filter.Ontology N C}
variable {parseFilter : String → Except String Filter.FilterNode}

/-- The invariant of a run. -/
structure Sound (service : CommandService) (s : State N C) : Prop where
  running : s.panicked = false
  store : s.store.Sound service s.publications s.now

theorem sound_initial (service : CommandService) (session : Session N C)
    (now : Nat) : (initial session now).Sound service := by
  refine ⟨rfl, ?_, Nat.zero_le _, ?_, ?_, ?_⟩
  all_goals simp [initial, totalBytes]

/-- What an event does to the store. -/
inductive Stored (service : CommandService) (s : State N C) : Event N C → State N C → Prop
  | same {event : Event N C} {s' : State N C} (store : s'.store = s.store)
      (publications : s'.publications = s.publications)
      (later : s.now ≤ s'.now)
      (running : s'.panicked = s.panicked) :
      Stored service s event s'
  | expired {event : Event N C} {s' : State N C} (expires : s.store.expire s.now = some s'.store)
      (publications : s'.publications = s.publications)
      (later : s.now ≤ s'.now)
      (running : s'.panicked = s.panicked) :
      Stored service s event s'
  | panicked {event : Event N C} (underflow : s.store.expire s.now = none) :
      Stored service s event { s with panicked := true }
  | published {operation : Nat} {stops : PublishStops} {prepared : Prepared} {expired : Store}
      {point : Point}
      {total : Nat}
      (ready : s.operations[operation]? = some (.prepared prepared))
      (checked : checkPublication s.session.graph prepared stops = .ok ())
      (expires : s.store.expire s.now = some expired)
      (replaced : service.replacePoint s.session.graph expired s.now prepared
        stops = .ok (point, total)) :
      Stored service s (.publish operation stops) { s with
          store := ⟨expired.points.insert prepared.request.id point, total⟩
          now := s.now + stops.elapsed
          operations := s.operations.set operation (.published prepared point.slots)
          publications := s.publications ++
            [CommandService.publication prepared (s.now + stops.elapsed)] }

theorem publish_eq_none (underflow : service.publish g store now prepared stops = none) :
    store.expire now = none := by
  unfold CommandService.publish at underflow
  split at underflow
  · cases underflow
  · cases expires : store.expire now with
    | none => rfl
    | some =>
      rw [expires] at underflow
      simp only [Option.bind_eq_bind, Option.bind_some] at underflow
      split at underflow <;> cases underflow

theorem stored_publish (s : State N C) (operation : Nat) (stops : PublishStops) :
    Stored service s (.publish operation stops) (s.publish service operation stops) := by
  unfold State.publish
  split
  · rename_i prepared ready
    split
    · rename_i underflow
      exact .panicked (publish_eq_none underflow)
    · rename_i store failure ran
      have published := publish_published ran
      cases published with
      | refused => exact .same rfl rfl (Nat.le_add_right _ _) rfl
      | expired _ expires => exact .expired expires rfl (Nat.le_add_right _ _) rfl
    · rename_i store slots ran
      have published := publish_published ran
      cases published with
      | published checked expires replaced =>
        exact .published ready checked expires replaced
  · exact .same rfl rfl le_rfl rfl

/-- Every event is one of the cases. -/
theorem stored_step (s : State N C) (event : Event N C) :
    Stored service s event (s.step service ontology parseFilter event) := by
  cases event with
  | write | prepare => exact .same rfl rfl le_rfl rfl
  | sweep =>
    unfold State.step
    cases expires : s.store.expire s.now with
    | none => exact .panicked expires
    | some => exact .expired expires rfl le_rfl rfl
  | tick => exact .same rfl rfl (Nat.le_add_right _ _) rfl
  | publish operation stops => exact stored_publish s operation stops
  | answer operation failure =>
    change Stored service s _ (s.answer operation failure)
    unfold State.answer
    split
    · exact .same rfl rfl le_rfl rfl
    · exact .same rfl rfl le_rfl rfl

variable {s : State N C}

theorem Sound.step (sound : s.Sound service) (event : Event N C) :
    (s.step service ontology parseFilter event).Sound service := by
  have stored : Stored service s event (s.step service ontology parseFilter event) :=
    stored_step s event
  generalize s.step service ontology parseFilter event = s' at stored
  cases stored with
  | same store publications later running =>
    refine ⟨running.trans sound.running, ?_⟩
    rw [store, publications]
    exact sound.store.later later
  | expired expires publications later running =>
    refine ⟨running.trans sound.running, ?_⟩
    rw [publications]
    exact (sound.store.expire expires).later later
  | panicked underflow =>
    obtain ⟨_, expires, _⟩ := Store.expire_eq sound.store.counted s.now
    rw [underflow] at expires
    cases expires
  | published _ _ expires replaced =>
    exact ⟨sound.running, (sound.store.expire expires).replace replaced⟩

theorem Sound.run (sound : s.Sound service) (events : List (Event N C)) :
    (s.run service ontology parseFilter events).Sound service := by
  induction events generalizing s with
  | nil => exact sound
  | cons event events ih =>
    exact ih (sound.step event)

end State
end Command
end App
end Haystack
