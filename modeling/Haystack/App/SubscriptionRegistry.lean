import Haystack.App.SubscriptionMoves
import Haystack.App.SubscriptionSteps

/-!
# The books of the registry

The registry accounts for the bytes of its entries, every binding leads to the
entry that it was made for, and the numbers of entries stay within the limits.
An entry that is no longer active stays so, and after a shutdown no registered
entry is in use.
-/

namespace Haystack
namespace App
namespace Subscription

open Std (ExtTreeMap LawfulEqOrd ReflOrd)
open Collections Haystack.Graph
open Haystack.Filter (FilterNode Ontology)

/-! ## Entries over time -/

/-- What an entry keeps while its record changes.  The number of a record names
it, except for the last one. -/
structure Evolves (entry after : Entry) : Prop where
  identity : after.identity = entry.identity
  session : after.session = entry.session
  typedWatch : after.typedWatch = entry.typedWatch
  later : entry.record.revision ≤ after.record.revision
  same : after.record.revision = entry.record.revision →
    entry.record.revision < u64Max → after.record = entry.record
  inactive : entry.active = false → after.active = false
  final : entry.record.status.isOver = true → after.record.status.isOver = true

theorem Evolves.refl (entry : Entry) : Evolves entry entry :=
  ⟨rfl, rfl, rfl, le_rfl, fun _ _ => rfl, id, id⟩

theorem Evolves.trans {first second third : Entry} (left : Evolves first second)
    (right : Evolves second third) :
    Evolves first third where
  identity := right.identity.trans left.identity
  session := right.session.trans left.session
  typedWatch := right.typedWatch.trans left.typedWatch
  later := left.later.trans right.later
  same numbers below := by
    have middle := left.later
    have last := right.later
    rw [right.same (by omega) (by omega), left.same (by omega) below]
  inactive := right.inactive ∘ left.inactive
  final := right.final ∘ left.final

/-- No entry leaves the heap. -/
def Grown (heap after : List Entry) : Prop :=
  ∀ (ptr : Nat) (entry : Entry), heap[ptr]? = some entry →
    ∃ later, after[ptr]? = some later ∧ Evolves entry later

theorem Grown.refl (heap : List Entry) : Grown heap heap :=
  fun _ entry found => ⟨entry, found, .refl entry⟩

variable {first second third : List Entry}

theorem Grown.trans (left : Grown first second) (right : Grown second third) :
    Grown first third := by
  intro ptr entry found
  obtain ⟨middle, found, before⟩ := left ptr entry found
  obtain ⟨last, found, after⟩ := right ptr middle found
  exact ⟨last, found, before.trans after⟩

theorem Grown.append (heap : List Entry) (entry : Entry) : Grown heap (heap ++ [entry]) := by
  intro ptr old found
  refine ⟨old, ?_, .refl old⟩
  rw [List.getElem?_append_left (List.getElem?_eq_some_iff.mp found).1, found]

variable {entry : Entry} {heap : List Entry} {after : Entry}

theorem Grown.set {ptr : Nat} (found : heap[ptr]? = some entry) (evolves : Evolves entry after) :
    Grown heap (heap.set ptr after) := by
  intro other old old_found
  have bound := (List.getElem?_eq_some_iff.mp found).1
  by_cases same : ptr = other
  · subst same
    obtain rfl := Option.some.inj (found.symm.trans old_found)
    exact ⟨after, List.getElem?_set_self bound, evolves⟩
  · exact ⟨old, by rw [List.getElem?_set_ne same, old_found], .refl old⟩

/-- No record comes into use. -/
structure Fades (heap after : List Entry) : Prop where
  grown : Grown heap after
  live : ∀ {ptr : Nat} {later : Entry}, after[ptr]? = some later →
    later.record.status.isLive = true →
      ∃ entry, heap[ptr]? = some entry ∧ entry.record.status.isLive = true

theorem Fades.refl (heap : List Entry) : Fades heap heap :=
  ⟨.refl heap, fun found live => ⟨_, found, live⟩⟩

theorem Fades.trans (left : Fades first second) (right : Fades second third) :
    Fades first third where
  grown := left.grown.trans right.grown
  live found live := by
    obtain ⟨_, found, live⟩ := right.live found live
    exact left.live found live

theorem Fades.append (heap : List Entry) (unused : entry.record.status.isLive = false) :
    Fades heap (heap ++ [entry]) := by
  refine ⟨.append heap entry, fun {ptr later} found live => ?_⟩
  rw [List.getElem?_append] at found
  split at found
  · exact ⟨later, found, live⟩
  · obtain rfl := List.mem_singleton.mp (List.mem_of_getElem? found)
    rw [unused] at live
    cases live

theorem Fades.set {ptr : Nat} (found : heap[ptr]? = some entry) (evolves : Evolves entry after)
    (live : after.record.status.isLive = true → entry.record.status.isLive = true) :
    Fades heap (heap.set ptr after) := by
  refine ⟨.set found evolves, fun {other later} later_found used => ?_⟩
  rw [List.getElem?_set] at later_found
  split at later_found
  · next same =>
    subst same
    rw [if_pos (List.getElem?_eq_some_iff.mp found).1] at later_found
    obtain rfl := Option.some.inj later_found
    exact ⟨entry, found, live used⟩
  · exact ⟨later, later_found, used⟩

/-- The end of a record. -/
theorem Evolves.ended {revision : Nat}
    (counted : checkedAdd u64Max entry.record.revision 1 = some revision)
    (reason : SubscriptionResync) :
    Evolves entry { entry with
      active := false
      record := ⟨revision, .resync reason⟩ } := by
  obtain ⟨rfl, _⟩ := checkedAdd_eq_some_iff.mp counted
  refine ⟨rfl, rfl, rfl, Nat.le_succ _, ?_, fun _ => rfl, fun _ => rfl⟩
  intro same
  exact absurd same (Nat.succ_ne_self _)

/-- Maintenance counts a record up to the last number. -/
theorem Evolves.maintained (bounded : entry.record.revision ≤ u64Max) (s : State N C) :
    Evolves entry (s.maintained entry) := by
  unfold State.maintained
  split
  · refine ⟨rfl, rfl, rfl, ?_, ?_, fun _ => rfl, fun _ => rfl⟩
    · exact le_min (Nat.le_succ _) bounded
    · intro same below
      simp only at same
      omega
  · exact .refl entry

theorem revision_maintained_le (bounded : entry.record.revision ≤ u64Max) (s : State N C) :
    (s.maintained entry).record.revision ≤ u64Max := by
  unfold State.maintained
  split
  · exact Nat.min_le_right _ _
  · exact bounded

theorem Evolves.deactivated (entry : Entry) : Evolves entry { entry with active := false } :=
  ⟨rfl, rfl, rfl, le_rfl, fun _ _ => rfl, fun _ => rfl, id⟩

/-- The record that an operation has begun to work on. -/
def Stage.begun : Stage → Option (Hold × Record)
  | .seen _ _ => none
  | stage => stage.record

theorem Stage.begun_eq_none {stage : Stage} (unread : stage.record = none) :
    stage.begun = none := by
  unfold Stage.begun
  split
  · rfl
  · exact unread

variable {ids : List String}

/-- A record on which an operation starts is not over. -/
theorem Started.isOver {request : Request} {record : Record}
    (started : Started request record ids) : record.status.isOver = false := by
  cases started <;> rfl

variable {answer : Answer}

/-- A prepared record is the next one. -/
theorem PreparedBy.counted {service : Service} {sessions : Nat → SubscriptionSession} {now : Nat}
    {identity : SubscriptionId} {operation : Operation} {record next : Record} {capture : Capture} {token : BitVec 128}
    (prepared : PreparedBy service sessions now identity operation record ids
      capture token next answer) :
    next.revision = record.revision + 1 ∧ next.revision ≤ u64Max ∧
      (next.status.isLive = false → next.status.isOver = true) := by
  cases prepared with
  | native request legacy connection _ outcome requested result =>
    obtain ⟨following, bound, moves⟩ := Service.moves_prepare result
    exact ⟨following, bound, moves.isOver⟩
  | typed request policyScope _ grid requested kept result =>
    obtain ⟨following, bound, _, _, _, status⟩ := Service.prepareWatch_eq_ok result
    refine ⟨following, bound, fun stopped => ?_⟩
    rw [status] at stopped
    cases stopped

namespace State

section

variable {N C : Type} {sessions : Nat → SubscriptionSession} {s : State N C}

/-! ## Bindings and entries -/

/-- Bindings and entries lead to each other. -/
structure Linked (sessions : Nat → SubscriptionSession) (s : State N C) : Prop where
  entry : ∀ {watch : BitVec 128} {ptr : Nat},
    s.table.entries[watch]? = some ptr → ∃ entry, s.heap[ptr]? = some entry ∧
      entry.identity.watch = watch ∧
      s.table.bindings[bindingKey sessions entry]? = some watch
  binding : ∀ {key : BindingKey} {watch : BitVec 128},
    s.table.bindings[key]? = some watch → ∃ ptr entry,
      s.table.entries[watch]? = some ptr ∧ s.heap[ptr]? = some entry ∧
      bindingKey sessions entry = key

variable {ptr : Nat} {watch : BitVec 128}

/-- An entry is registered under one identity. -/
theorem Linked.watch_eq (linked : Linked sessions s) {other : BitVec 128}
    (left : s.table.entries[watch]? = some ptr) (right : s.table.entries[other]? = some ptr) :
    watch = other := by
  obtain ⟨entry, found, rfl, _⟩ := linked.entry left
  obtain ⟨_, found', rfl, _⟩ := linked.entry right
  rw [Option.some.inj (found.symm.trans found')]

/-- The entries of a list of registered pointers. -/
def entriesOf (heap : List Entry) (items : List (BitVec 128 × Nat)) : List Entry :=
  items.filterMap fun item => heap[item.2]?

theorem entriesOf_set {items : List (BitVec 128 × Nat)} (unlisted : ∀ item ∈ items, item.2 ≠ ptr)
    (entry : Entry) : entriesOf (heap.set ptr entry) items = entriesOf heap items := by
  refine List.filterMap_congr fun item member => ?_
  exact List.getElem?_set_ne (unlisted item member).symm

/-- The other registered entries, apart from one. -/
def others (s : State N C) (watch : BitVec 128) : List Entry :=
  entriesOf s.heap (s.table.entries.erase watch).toList

variable {entry : Entry}

theorem registered_perm (registered : s.table.entries[watch]? = some ptr)
    (found : s.heap[ptr]? = some entry) : s.registered.Perm (entry :: s.others watch) := by
  have perm := (toList_erase_perm registered).filterMap fun item => s.heap[item.2]?
  simp only [List.filterMap_cons, found] at perm
  exact perm

/-- The other entries do not notice a change of an entry. -/
theorem Linked.others_set (linked : Linked sessions s)
    (registered : s.table.entries[watch]? = some ptr) (entry : Entry) :
    entriesOf (s.heap.set ptr entry) (s.table.entries.erase watch).toList = s.others watch := by
  refine entriesOf_set (fun item member same => ?_) entry
  rw [ExtTreeMap.mem_toList_iff_getElem?_eq_some, ExtTreeMap.getElem?_erase] at member
  split at member
  · cases member
  · next different =>
    rw [same] at member
    exact different (by simpa using linked.watch_eq registered member)

/-! ## The tally of the registered entries -/

/-- The sums and the numbers of the registered entries are within the limits. -/
structure Tally (limits : SubscriptionLimits) (entries : List Entry)
    (reservedBytes : Nat) : Prop where
  reserved : reservedBytes = (entries.map (·.reservation)).sum
  bounded : reservedBytes ≤ limits.maxRetainedBytes
  active : entries.countP (·.active) ≤ limits.maxWatches
  perSession : ∀ session, (entries.filter (·.session = session)).countP
    (·.active) ≤ limits.maxWatchesPerSession

variable {limits : SubscriptionLimits} {entries : List Entry} {reservedBytes : Nat}

theorem Tally.perm {others : List Entry} (tally : Tally limits entries reservedBytes)
    (perm : entries.Perm others) :
    Tally limits others reservedBytes where
  reserved := tally.reserved.trans (perm.map _).sum_eq
  bounded := tally.bounded
  active := (perm.countP_eq _).symm.trans_le tally.active
  perSession session := ((perm.filter _).countP_eq _).symm.trans_le (tally.perSession session)

/-- An entry leaves. -/
theorem Tally.tail (tally : Tally limits (entry :: entries) reservedBytes) :
    Tally limits entries (reservedBytes - entry.reservation) where
  reserved := by
    rw [tally.reserved, List.map_cons, List.sum_cons, Nat.add_sub_cancel_left]
  bounded := (Nat.sub_le _ _).trans tally.bounded
  active := by
    have sublist := List.sublist_cons_self entry entries
    exact sublist.countP_le.trans tally.active
  perSession session := by
    have sublist := (List.sublist_cons_self entry entries).filter (·.session = session)
    exact sublist.countP_le.trans (tally.perSession session)

variable {after : Entry} {growth : Nat}

/-- An entry changes: it grows within the limit, and does not become active. -/
theorem Tally.change (tally : Tally limits (entry :: entries) reservedBytes)
    (session : after.session = entry.session)
    (reservation : after.reservation = entry.reservation + growth)
    (room : growth ≤ limits.maxRetainedBytes - reservedBytes)
    (inactive : entry.active = false → after.active = false) :
    Tally limits (after :: entries) (reservedBytes + growth) := by
  have fewer (entries : List Entry) : (after :: entries).countP (·.active) ≤
        (entry :: entries).countP (·.active) := by
    rw [List.countP_cons, List.countP_cons]
    cases entered : entry.active with
    | false => simp [inactive entered]
    | true => split <;> simp
  have bounded := tally.bounded
  refine ⟨?_, by omega, (fewer entries).trans tally.active, fun other => ?_⟩
  · have reserved := tally.reserved
    rw [List.map_cons, List.sum_cons] at reserved ⊢
    omega
  · refine le_trans ?_ (tally.perSession other)
    rw [List.filter_cons, List.filter_cons, session]
    split
    · exact fewer _
    · exact le_rfl

/-- A new entry comes in. -/
theorem Tally.cons (tally : Tally limits entries reservedBytes)
    (room : entry.reservation ≤ limits.maxRetainedBytes - reservedBytes)
    (active : entries.countP (·.active) < limits.maxWatches)
    (own : (entries.filter (·.session = entry.session)).countP (·.active) <
      limits.maxWatchesPerSession) :
    Tally limits (entry :: entries) (reservedBytes + entry.reservation) := by
  have bounded := tally.bounded
  have more (entries : List Entry) :
      (entry :: entries).countP (·.active) ≤ entries.countP (·.active) + 1 := by
    rw [List.countP_cons]
    split <;> omega
  refine ⟨?_, by omega, (more entries).trans active, fun session => ?_⟩
  · rw [List.map_cons, List.sum_cons, ← tally.reserved, Nat.add_comm]
  · rw [List.filter_cons]
    split
    · next same =>
      rw [decide_eq_true_eq] at same
      subst same
      exact (more _).trans own
    · exact tally.perSession session

/-! ## The books -/

/-- The books of the registry are in order. -/
structure Balanced (service : Service) (sessions : Nat → SubscriptionSession)
    (s : State N C) : Prop where
  linked : Linked sessions s
  tally : Tally service.limits s.registered s.table.reservedBytes
  size : s.table.entries.size ≤ service.limits.maxBindings

variable {service : Service} (linked : Linked sessions s)

include linked

theorem Linked.setEntry (found : s.heap[ptr]? = some entry)
    (identity : after.identity = entry.identity) (session : after.session = entry.session) :
    Linked sessions (s.setEntry ptr after) := by
  have lookup : ∀ {other : Nat} {old : Entry}, s.heap[other]? = some old →
      ∃ new, (s.setEntry ptr after).heap[other]? = some new ∧ new.identity = old.identity ∧
        bindingKey sessions new = bindingKey sessions old := by
    intro other old old_found
    by_cases same : ptr = other
    · subst same
      obtain rfl := Option.some.inj (found.symm.trans old_found)
      refine ⟨after, getElem?_setEntry_self found after, identity, ?_⟩
      rw [bindingKey, bindingKey, identity, session]
    · refine ⟨old, ?_, rfl, rfl⟩
      rw [← old_found]
      exact List.getElem?_set_ne same
  refine ⟨fun registered => ?_, fun bound => ?_⟩
  · obtain ⟨_, old_found, watch, key⟩ := linked.entry registered
    obtain ⟨new, new_found, sameIdentity, sameKey⟩ := lookup old_found
    exact ⟨new, new_found, sameIdentity ▸ watch, sameKey ▸ key⟩
  · obtain ⟨other, _, registered, old_found, key⟩ := linked.binding bound
    obtain ⟨new, new_found, _, sameKey⟩ := lookup old_found
    exact ⟨other, new, registered, new_found, sameKey.trans key⟩

/-- An entry that is not registered is not in the tally. -/
theorem Linked.registered_setEntry (found : s.heap[ptr]? = some entry)
    (unregistered : s.table.entries[entry.identity.watch]? ≠ some ptr) (after : Entry) :
    (s.setEntry ptr after).registered = s.registered := by
  refine entriesOf_set (fun item member same => ?_) after
  rw [ExtTreeMap.mem_toList_iff_getElem?_eq_some, same] at member
  obtain ⟨_, other_found, watch, _⟩ := linked.entry member
  obtain rfl := Option.some.inj (found.symm.trans other_found)
  exact unregistered (watch ▸ member)

theorem Linked.unregister (registered : s.table.entries[watch]? = some ptr)
    (found : s.heap[ptr]? = some entry) :
    Linked sessions (s.unregister sessions watch entry) := by
  obtain ⟨_, found', _, key⟩ := linked.entry registered
  obtain rfl := Option.some.inj (found.symm.trans found')
  refine ⟨fun {other pointer} listed => ?_, fun {binding other} bound => ?_⟩
  · rw [State.unregister, ExtTreeMap.getElem?_erase] at listed
    split at listed
    · cases listed
    · next different =>
      obtain ⟨old, old_found, old_watch, old_key⟩ := linked.entry listed
      refine ⟨old, old_found, old_watch, ?_⟩
      rw [State.unregister, ExtTreeMap.getElem?_erase, if_neg]
      · exact old_key
      · intro same
        rw [← LawfulEqOrd.eq_of_compare same, key] at old_key
        rw [Option.some.inj old_key] at different
        exact different ReflOrd.compare_self
  · rw [State.unregister, ExtTreeMap.getElem?_erase] at bound
    split at bound
    · cases bound
    · next different =>
      obtain ⟨pointer, old, listed, old_found, old_key⟩ := linked.binding bound
      refine ⟨pointer, old, ?_, old_found, old_key⟩
      rw [State.unregister, ExtTreeMap.getElem?_erase, if_neg]
      · exact listed
      · intro same
        rw [← LawfulEqOrd.eq_of_compare same, registered] at listed
        rw [← Option.some.inj listed, found] at old_found
        rw [← Option.some.inj old_found] at old_key
        rw [old_key] at different
        exact different ReflOrd.compare_self

omit linked

theorem Balanced.unregister (balanced : Balanced service sessions s)
    (registered : s.table.entries[watch]? = some ptr) (found : s.heap[ptr]? = some entry) :
    Balanced service sessions (s.unregister sessions watch entry) where
  linked := balanced.linked.unregister registered found
  tally := (balanced.tally.perm (registered_perm registered found)).tail
  size := ExtTreeMap.size_erase_le.trans balanced.size

theorem Linked.register (linked : Linked sessions s) (admits : s.Admits service sessions entry)
    (index : Nat) : Linked sessions (s.register sessions index entry) := by
  have kept {pointer : Nat} {old : Entry} (found : s.heap[pointer]? = some old) :
      (s.heap ++ [entry])[pointer]? = some old := by
    rw [List.getElem?_append_left (List.getElem?_eq_some_iff.mp found).1, found]
  have added : (s.heap ++ [entry])[s.heap.length]? = some entry := List.getElem?_concat_length
  have fresh : ∀ {watch : BitVec 128} {pointer : Nat},
      s.table.entries[watch]? = some pointer → entry.identity.watch ≠ watch := by
    intro watch pointer listed same
    obtain ⟨old, found, watch_eq, _⟩ := linked.entry listed
    have new := admits.fresh
    rw [isFresh, List.all_eq_true] at new
    have different := new old (List.mem_of_getElem? found)
    rw [decide_eq_true_eq] at different
    exact different (watch_eq.trans same.symm)
  have entries : ∀ {watch : BitVec 128}, (s.register sessions index entry).table.entries[watch]? =
        if compare entry.identity.watch watch = .eq then some s.heap.length
        else s.table.entries[watch]? :=
    fun {_} => ExtTreeMap.getElem?_insert
  have bindings : ∀ {key : BindingKey}, (s.register sessions index entry).table.bindings[key]? =
        if compare (bindingKey sessions entry) key = .eq then
          some entry.identity.watch
        else s.table.bindings[key]? :=
    fun {_} => ExtTreeMap.getElem?_insert
  refine ⟨fun {watch pointer} listed => ?_, fun {key watch} bound => ?_⟩
  · rw [entries] at listed
    split at listed
    · next same =>
      obtain rfl := Option.some.inj listed
      refine ⟨entry, added, LawfulEqOrd.eq_of_compare same, ?_⟩
      rw [bindings, if_pos ReflOrd.compare_self, LawfulEqOrd.eq_of_compare same]
    · obtain ⟨old, found, watch_eq, key⟩ := linked.entry listed
      refine ⟨old, kept found, watch_eq, ?_⟩
      rw [bindings, if_neg, key]
      intro same
      rw [← LawfulEqOrd.eq_of_compare same, admits.unbound] at key
      cases key
  · rw [bindings] at bound
    split at bound
    · next same =>
      obtain rfl := Option.some.inj bound
      refine ⟨s.heap.length, entry, ?_, added, LawfulEqOrd.eq_of_compare same⟩
      rw [entries, if_pos ReflOrd.compare_self]
    · obtain ⟨pointer, old, listed, found, key_eq⟩ := linked.binding bound
      refine ⟨pointer, old, ?_, kept found, key_eq⟩
      rw [entries, if_neg, listed]
      intro same
      exact fresh listed (LawfulEqOrd.eq_of_compare same)

theorem Linked.registered_register
    (linked : Linked sessions s) (admits : s.Admits service sessions entry) (index : Nat) :
    (s.register sessions index entry).registered.Perm (entry :: s.registered) := by
  have absent : s.table.entries[entry.identity.watch]? = none := by
    by_contra present
    obtain ⟨_, listed⟩ := Option.ne_none_iff_exists'.mp present
    obtain ⟨old, found, watch, _⟩ := linked.entry listed
    have fresh := admits.fresh
    rw [isFresh, List.all_eq_true] at fresh
    have different := fresh old (List.mem_of_getElem? found)
    rw [decide_eq_true_eq] at different
    exact different watch
  have perm := (toList_insert_perm absent s.heap.length).filterMap
    fun item => (s.heap ++ [entry])[item.2]?
  simp only [List.filterMap_cons, List.getElem?_concat_length] at perm
  have kept : entriesOf (s.heap ++ [entry]) s.table.entries.toList = s.registered := by
    refine List.filterMap_congr fun item member => ?_
    rw [ExtTreeMap.mem_toList_iff_getElem?_eq_some] at member
    obtain ⟨_, found, _⟩ := linked.entry member
    exact List.getElem?_append_left (List.getElem?_eq_some_iff.mp found).1
  exact kept ▸ perm

variable (balanced : Balanced service sessions s)

include balanced

theorem Balanced.register (admits : s.Admits service sessions entry) (index : Nat) :
    Balanced service sessions (s.register sessions index entry) := by
  have room := admits.room
  simp only [isFull, Bool.or_eq_false_iff, decide_eq_false_iff_not, not_le,
    gt_iff_lt, ge_iff_le, not_lt] at room
  obtain ⟨⟨⟨⟨active, own⟩, size⟩, _⟩, reserve⟩ := room
  refine ⟨balanced.linked.register admits index, ?_, ?_⟩
  · have perm := balanced.linked.registered_register admits index
    exact (balanced.tally.cons reserve active own).perm perm.symm
  · exact ExtTreeMap.size_insert_le.trans size

/-- A registered entry is replaced by one that may need more bytes. -/
theorem Balanced.grow (found : s.heap[ptr]? = some entry)
    (registered : s.table.entries[entry.identity.watch]? = some ptr)
    (evolves : Evolves entry after) (reservation : after.reservation = entry.reservation + growth)
    (room : growth ≤ service.limits.maxRetainedBytes - s.table.reservedBytes) :
    Balanced service sessions { s with
      heap := s.heap.set ptr after
      table := { s.table with
        reservedBytes := s.table.reservedBytes + growth } } := by
  have linked := balanced.linked.setEntry found evolves.identity evolves.session
  refine ⟨⟨linked.entry, linked.binding⟩, ?_, balanced.size⟩
  have before := balanced.tally.perm (registered_perm registered found)
  have changed := before.change evolves.session reservation room evolves.inactive
  have perm := registered_perm (s := s.setEntry ptr after) registered
    (getElem?_setEntry_self found after)
  exact changed.perm (balanced.linked.others_set registered after ▸ perm.symm)

theorem Balanced.setEntry (found : s.heap[ptr]? = some entry) (evolves : Evolves entry after)
    (reservation : after.reservation = entry.reservation) :
    Balanced service sessions (s.setEntry ptr after) := by
  by_cases registered : s.table.entries[entry.identity.watch]? = some ptr
  · have unchanged : after.reservation = entry.reservation + 0 := reservation
    exact balanced.grow found registered evolves unchanged (Nat.zero_le _)
  · refine ⟨balanced.linked.setEntry found evolves.identity evolves.session, ?_, balanced.size⟩
    rw [balanced.linked.registered_setEntry found registered]
    exact balanced.tally

omit balanced

/-! ## What operations have read -/

/-- The record that an operation works on has been read and is not over. -/
structure Tracks (s : State N C) (operation : Operation) : Prop where
  read : ∀ {hold : Hold} {record : Record}, operation.stage.record = some (hold, record) →
      ∃ entry, s.heap[hold.entry]? = some entry ∧ record.revision ≤ entry.record.revision ∧
        (entry.record.revision = record.revision →
          record.revision < u64Max → entry.record = record)
  begun : ∀ {hold : Hold} {record : Record},
    operation.stage.begun = some (hold, record) → record.status.isOver = false
  next : ∀ {hold : Hold} {record next : Record} {observed : GraphState} {answer : Answer},
    operation.stage = .prepared hold record observed next answer →
      next.revision = record.revision + 1 ∧ next.revision ≤ u64Max ∧
        (next.status.isLive = false → next.status.isOver = true)

variable {operation : Operation}

theorem Tracks.of_record_eq_none (unread : operation.stage.record = none) :
    Tracks s operation := by
  refine ⟨fun read => ?_, fun begun => ?_, fun prepared => ?_⟩
  · rw [unread] at read
    cases read
  · rw [Stage.begun_eq_none unread] at begun
    cases begun
  · rw [prepared] at unread
    cases unread

/-- A later heap. -/
theorem Tracks.grown {after : State N C} (tracks : Tracks s operation)
    (grown : Grown s.heap after.heap) : Tracks after operation := by
  refine ⟨fun {hold record} read => ?_, tracks.begun, tracks.next⟩
  obtain ⟨entry, found, later, same⟩ := tracks.read read
  obtain ⟨last, found, evolves⟩ := grown _ entry found
  have order := evolves.later
  refine ⟨last, found, later.trans order, fun numbers below => ?_⟩
  have middle : entry.record.revision = record.revision := by omega
  rw [evolves.same (by omega) (by omega), same middle below]

/-! ## Steps -/

/-- The registry and the operations are in order. -/
structure Sound (service : Service) (sessions : Nat → SubscriptionSession)
    (s : State N C) : Prop where
  balanced : Balanced service sessions s
  tracks : ∀ operation ∈ s.operations, Tracks s operation
  bounded : ∀ entry ∈ s.heap, entry.record.revision ≤ u64Max
  inactive : ∀ entry ∈ s.registered, entry.active = false → entry.record.status.isOver = true

variable {stage : Stage}

/-- One step of an operation. -/
theorem Tracks.advance {policies : Principal → PolicySnapshot} {action : Action}
    (tracks : Tracks s operation)
    (moved : s.Local service sessions policies operation action stage) :
    Tracks s { operation with stage } := by
  cases moved with
  | quiet unread => exact .of_record_eq_none unread
  | read stage found =>
    refine ⟨?_, nofun, nofun⟩
    rintro _ _ ⟨⟩
    exact ⟨_, found, le_rfl, fun _ _ => rfl⟩
  | closing stage =>
    refine ⟨?_, ?_, nofun⟩
    · rintro _ _ ⟨⟩
      exact tracks.read (by rw [stage]; rfl)
    · rintro _ _ ⟨⟩
      rfl
  | started stage started =>
    refine ⟨?_, ?_, nofun⟩
    · rintro _ _ ⟨⟩
      exact tracks.read (by rw [stage]; rfl)
    · rintro _ _ ⟨⟩
      exact started.isOver
  | captured stage =>
    refine ⟨?_, ?_, nofun⟩
    · rintro _ _ ⟨⟩
      exact tracks.read (by rw [stage]; rfl)
    · rintro _ _ ⟨⟩
      exact tracks.begun (by rw [stage]; rfl)
  | prepared stage acted found prepared =>
    refine ⟨?_, ?_, ?_⟩
    · rintro _ _ ⟨⟩
      exact tracks.read (by rw [stage]; rfl)
    · rintro _ _ ⟨⟩
      exact tracks.begun (by rw [stage]; rfl)
    · rintro _ _ _ _ _ ⟨⟩
      exact prepared.counted
  | closed stage counted =>
    refine ⟨?_, ?_, ?_⟩
    · rintro _ _ ⟨⟩
      exact tracks.read (by rw [stage]; rfl)
    · rintro _ _ ⟨⟩
      exact tracks.begun (by rw [stage]; rfl)
    · rintro _ _ _ _ _ ⟨⟩
      obtain ⟨rfl, bound⟩ := checkedAdd_eq_some_iff.mp counted
      exact ⟨rfl, bound, fun _ => rfl⟩

theorem mem_registered {entry : Entry} :
    entry ∈ s.registered ↔ ∃ (watch : BitVec 128) (ptr : Nat),
      s.table.entries[watch]? = some ptr ∧ s.heap[ptr]? = some entry := by
  simp [State.registered]

/-- The record of an entry changes. -/
theorem Sound.setEntry (sound : Sound service sessions s) (found : s.heap[ptr]? = some entry)
    (evolves : Evolves entry after) (reservation : after.reservation = entry.reservation)
    (bounded : after.record.revision ≤ u64Max)
    (inactive : s.table.entries[entry.identity.watch]? = some ptr →
      after.active = false → after.record.status.isOver = true) :
    Sound service sessions (s.setEntry ptr after) where
  balanced := sound.balanced.setEntry found evolves reservation
  tracks operation member := (sound.tracks operation member).grown (.set found evolves)
  bounded other member := by
    rcases List.mem_or_eq_of_mem_set member with old | rfl
    · exact sound.bounded other old
    · exact bounded
  inactive other member stopped := by
    obtain ⟨watch, pointer, listed, other_found⟩ := mem_registered.mp member
    by_cases same : ptr = pointer
    · subst same
      rw [getElem?_setEntry_self found] at other_found
      obtain rfl := Option.some.inj other_found
      obtain ⟨_, found', watch_eq, _⟩ := sound.balanced.linked.entry listed
      obtain rfl := Option.some.inj (found.symm.trans found')
      exact inactive (watch_eq ▸ listed) stopped
    · rw [State.setEntry, List.getElem?_set_ne same] at other_found
      exact sound.inactive other (mem_registered.mpr
        ⟨watch, pointer, listed, other_found⟩) stopped

theorem Sound.unregister (sound : Sound service sessions s)
    (registered : s.table.entries[watch]? = some ptr) (found : s.heap[ptr]? = some entry) :
    Sound service sessions (s.unregister sessions watch entry) where
  balanced := sound.balanced.unregister registered found
  tracks operation member := (sound.tracks operation member).grown (.refl _)
  bounded := sound.bounded
  inactive other member := by
    obtain ⟨key, pointer, listed, other_found⟩ := mem_registered.mp member
    rw [State.unregister, ExtTreeMap.getElem?_erase] at listed
    split at listed
    · cases listed
    · exact sound.inactive other (mem_registered.mpr ⟨key, pointer, listed, other_found⟩)

/-- Nothing comes into use, and what is registered is new or was registered. -/
structure Calm (s after : State N C) : Prop where
  fades : Fades s.heap after.heap
  registered : ∀ {watch : BitVec 128} {ptr : Nat}, after.table.entries[watch]? = some ptr →
      s.table.entries[watch]? = some ptr ∨ s.heap[ptr]? = none

theorem Calm.of_entries_eq {after : State N C} (fades : Fades s.heap after.heap)
    (same : after.table.entries = s.table.entries) : Calm s after :=
  ⟨fades, fun listed => .inl (same ▸ listed)⟩

theorem Calm.refl (s : State N C) : Calm s s := .of_entries_eq (.refl _) rfl

theorem Calm.trans {middle after : State N C} (left : Calm s middle) (right : Calm middle after) :
    Calm s after := by
  refine ⟨left.fades.trans right.fades, fun {watch ptr} listed => ?_⟩
  rcases right.registered listed with before | new
  · exact left.registered before
  · refine .inr (Option.eq_none_iff_forall_ne_some.mpr fun entry found => ?_)
    obtain ⟨_, found, _⟩ := left.fades.grown ptr entry found
    rw [new] at found
    cases found

theorem Calm.unregister (s : State N C) (watch : BitVec 128) (entry : Entry) :
    Calm s (s.unregister sessions watch entry) := by
  refine ⟨.refl _, fun {key ptr} listed => ?_⟩
  rw [State.unregister, ExtTreeMap.getElem?_erase] at listed
  split at listed
  · cases listed
  · exact .inl listed

theorem Swept.frame {after : State N C} (swept : Swept sessions s after) :
    after.operations = s.operations ∧ after.stopped = s.stopped := by
  induction swept with
  | refl => exact ⟨rfl, rfl⟩
  | expired rest found previous | unregistered rest found registered previous
  | detached rest found registered previous => exact previous

/-- The sweeps of maintenance and of connections that go away. -/
theorem Sound.swept {after : State N C} (sound : Sound service sessions s)
    (swept : Swept sessions s after) : Sound service sessions after ∧ Calm s after := by
  induction swept with
  | refl => exact ⟨sound, .refl s⟩
  | @expired middle rest ptr entry found previous =>
    obtain ⟨middle_sound, calm⟩ := previous
    have bounded := middle_sound.bounded entry (List.mem_of_getElem? found)
    have evolves := Evolves.maintained bounded middle
    have fades : Fades middle.heap (middle.heap.set ptr (middle.maintained entry)) := by
      refine .set found evolves fun used => ?_
      unfold State.maintained at used
      split at used
      · cases used
      · exact used
    refine ⟨?_, calm.trans (.of_entries_eq fades rfl)⟩
    refine middle_sound.setEntry found evolves ?_
      (revision_maintained_le bounded middle) fun listed stopped => ?_
    · unfold State.maintained
      split <;> rfl
    · unfold State.maintained at stopped ⊢
      split
      · rfl
      · next current =>
        rw [if_neg current] at stopped
        exact middle_sound.inactive entry (mem_registered.mpr ⟨_, _, listed, found⟩) stopped
  | unregistered rest found registered previous =>
    obtain ⟨middle_sound, calm⟩ := previous
    exact ⟨middle_sound.unregister registered found, calm.trans (.unregister _ _ _)⟩
  | @detached middle rest watch ptr entry found registered previous =>
    obtain ⟨middle_sound, calm⟩ := previous
    have inert : Calm middle (middle.setEntry ptr { entry with active := false }) :=
      .of_entries_eq (.set found (.deactivated entry) id) rfl
    refine ⟨?_, (calm.trans inert).trans (.unregister _ _ _)⟩
    have gone := middle_sound.unregister registered found
    refine gone.setEntry found (.deactivated entry) rfl
      (middle_sound.bounded entry (List.mem_of_getElem? found)) ?_
    intro listed
    obtain ⟨_, found', watch_eq, _⟩ := middle_sound.balanced.linked.entry registered
    obtain rfl := Option.some.inj (found.symm.trans found')
    rw [State.unregister, ExtTreeMap.getElem?_erase, watch_eq,
      if_pos ReflOrd.compare_self] at listed
    cases listed

/-! ### Steps of operations -/

variable {index : Nat}

theorem mem_setStage {other : Operation} (found : s.operations[index]? = some operation)
    (member : other ∈ (s.setStage index stage).operations) :
    other = { operation with stage } ∨ other ∈ s.operations := by
  obtain ⟨_, other_found⟩ := List.mem_iff_getElem?.mp member
  rw [State.setStage, List.getElem?_modify] at other_found
  split at other_found
  · next same =>
    subst same
    rw [found] at other_found
    exact .inl (Option.some.inj other_found).symm
  · rw [id_map'] at other_found
    exact .inr (List.mem_of_getElem? other_found)

variable (sound : Sound service sessions s)

include sound

variable (found : s.operations[index]? = some operation)

include found

/-- An operation moves on. -/
theorem Sound.setStage (tracks : Tracks s { operation with stage }) :
    Sound service sessions (s.setStage index stage) := by
  have balanced := sound.balanced
  refine ⟨⟨⟨balanced.linked.entry, balanced.linked.binding⟩, balanced.tally,
    balanced.size⟩, fun other member => ?_, sound.bounded, sound.inactive⟩
  rcases mem_setStage found member with rfl | old
  · exact tracks.grown (.refl _)
  · exact (sound.tracks other old).grown (.refl _)

/-- An operation comes to its end. -/
theorem Sound.setStage_quiet (unread : stage.record = none) :
    Sound service sessions (s.setStage index stage) :=
  sound.setStage found (.of_record_eq_none unread)

theorem Sound.register (admits : s.Admits service sessions entry) :
    Sound service sessions (s.register sessions index entry) where
  balanced := sound.balanced.register admits index
  tracks other member := by
    rcases mem_setStage found member with rfl | old
    · exact .of_record_eq_none rfl
    · exact (sound.tracks other old).grown (.append s.heap entry)
  bounded other member := by
    rcases List.mem_append.mp member with old | new
    · exact sound.bounded other old
    · rw [List.mem_singleton.mp new, admits.record]
      exact Nat.zero_le _
  inactive other member stopped := by
    have perm := sound.balanced.linked.registered_register admits index
    rcases List.mem_cons.mp (perm.mem_iff.mp member) with rfl | old
    · rw [admits.active] at stopped
      cases stopped
    · exact sound.inactive other old stopped

omit found

omit sound

/-- What the section of a publication has checked. -/
structure Published (service : Service) (sessions : Nat → SubscriptionSession) (s : State N C)
    (operation : Operation) (hold : Hold) (record : Record)
    (observed : GraphState) (next : Record) (before after : Entry)
    (growth : Nat) : Prop where
  held : s.heap[hold.entry]? = some before
  observed : s.store.graph.state = observed
  registered : s.table.entries[before.identity.watch]? = some hold.entry
  unchanged : before.record.revision = record.revision
  running : s.stopped = false
  room : growth ≤ service.limits.maxRetainedBytes - s.table.reservedBytes
  after_eq : after = { before with
    reservation := before.reservation + growth
    active := next.status.isLive
    record := s.renewAtPublication sessions operation.session next }

variable {hold : Hold} {record next : Record} {observed : GraphState}

theorem publication_eq_done {closed contended : Bool}
    (done : s.publication service sessions operation hold record observed next
      closed contended = .done after growth) :
    ∃ before, Published service sessions s operation hold record observed next
      before after growth := by
  unfold publication at done
  split at done
  · cases done
  · next before held =>
    split at done
    · cases done
    · next same =>
      split at done
      · cases done
      · next registered =>
        split at done
        · cases done
        · next unchanged =>
          split at done
          · cases done
          · next running =>
            split at done
            · cases done
            · split at done
              · cases done
              · dsimp only at done
                split at done
                · cases done
                · next room =>
                  cases done
                  simp only [Bool.or_eq_true, decide_eq_true_eq, not_or, not_not] at same running
                  exact ⟨before, held, same.2, not_not.mp registered,
                    not_not.mp unchanged, Bool.eq_false_iff.mpr running.1,
                    not_lt.mp room, rfl⟩

@[simp] theorem revision_renewAtPublication (session : Nat) (next : Record) :
    (s.renewAtPublication sessions session next).revision = next.revision := by
  unfold renewAtPublication
  split <;> rfl

theorem isOver_renewAtPublication (session : Nat) (next : Record) :
    (s.renewAtPublication sessions session next).status.isOver = next.status.isOver := by
  unfold renewAtPublication
  split
  · next watch => simp [watch, Status.isOver]
  · rfl

variable {before : Entry}

/-- A publication replaces the record that its operation has read. -/
theorem Published.record_eq {observed' : GraphState} (tracks : Tracks s operation)
    (stage : operation.stage = .prepared hold record observed next answer)
    (published : Published service sessions s operation hold record observed'
      next before after growth) :
    before.record = record := by
  obtain ⟨_, found, _, same⟩ := tracks.read (by rw [stage]; rfl)
  obtain rfl := Option.some.inj (published.held.symm.trans found)
  obtain ⟨_, _, _⟩ := tracks.next stage
  exact same published.unchanged (by omega)

variable (sound : Sound service sessions s)

include sound

theorem Published.evolves (tracks : Tracks s operation)
    (stage : operation.stage = .prepared hold record observed next answer)
    (published : Published service sessions s operation hold record observed
      next before after growth) :
    Evolves before after := by
  have record_eq := published.record_eq tracks stage
  have current : before.record.status.isOver = false := by
    rw [record_eq]
    exact tracks.begun (by rw [stage]; rfl)
  have revision : before.record.revision = record.revision := by
    rw [record_eq]
  obtain ⟨_, _, _⟩ := tracks.next stage
  have active : before.active = true := by
    by_contra stopped
    have listed : before ∈ s.registered :=
      mem_registered.mpr ⟨_, _, published.registered, published.held⟩
    rw [sound.inactive before listed (Bool.eq_false_iff.mpr stopped)] at current
    cases current
  rw [published.after_eq]
  refine ⟨rfl, rfl, rfl, ?_, ?_, ?_, ?_⟩
  · simp only [revision_renewAtPublication]
    omega
  · simp only [revision_renewAtPublication]
    omega
  · rw [active]
    nofun
  · rw [current]
    nofun

theorem Sound.publish (found : s.operations[index]? = some operation)
    (stage : operation.stage = .prepared hold record observed next answer)
    (published : Published service sessions s operation hold record observed
      next before after growth) :
    Sound service sessions (({ s with
      heap := s.heap.set hold.entry after
      table := { s.table with
        reservedBytes := s.table.reservedBytes + growth } }).setStage index
      (.answered answer)) := by
  have tracks := sound.tracks operation (List.mem_of_getElem? found)
  have evolves := published.evolves sound tracks stage
  obtain ⟨_, bound, ended⟩ := tracks.next stage
  have after_eq := published.after_eq
  refine Sound.setStage_quiet ⟨?_, fun other member => ?_, fun other member => ?_,
    fun other member stopped => ?_⟩ found rfl
  · exact sound.balanced.grow published.held published.registered evolves
      (by rw [after_eq]) published.room
  · exact (sound.tracks other member).grown (.set published.held evolves)
  · rcases List.mem_or_eq_of_mem_set member with old | rfl
    · exact sound.bounded other old
    · rw [after_eq]
      simpa only [revision_renewAtPublication] using bound
  · obtain ⟨watch, ptr, listed, other_found⟩ := mem_registered.mp member
    rw [List.getElem?_set] at other_found
    split at other_found
    · rw [if_pos (List.getElem?_eq_some_iff.mp published.held).1] at other_found
      obtain rfl := Option.some.inj other_found
      rw [after_eq] at stopped ⊢
      rw [isOver_renewAtPublication]
      exact ended stopped
    · exact sound.inactive other (mem_registered.mpr ⟨watch, ptr, listed, other_found⟩) stopped

theorem Sound.clear :
    Sound service sessions { s with table := .empty } where
  balanced := {
    linked := ⟨fun listed => by simp [Registry.empty] at listed,
      fun bound => by simp [Registry.empty] at bound⟩
    tally := ⟨rfl, Nat.zero_le _, Nat.zero_le _, fun _ => Nat.zero_le _⟩
    size := Nat.zero_le _ }
  tracks operation member := (sound.tracks operation member).grown (.refl _)
  bounded := sound.bounded
  inactive _ member := by cases member

/-- A step that leaves the heap and the registry alone. -/
theorem Sound.frame {after : State N C}
    (heap : after.heap = s.heap) (table : after.table = s.table)
    (tracks : ∀ operation ∈ after.operations, operation ∈ s.operations ∨
      operation.stage.record = none) :
    Sound service sessions after := by
  obtain ⟨_, _, _, _, _, _, _⟩ := after
  subst heap table
  obtain ⟨⟨⟨entry, binding⟩, tally, size⟩, read, bounded, inactive⟩ := sound
  refine ⟨⟨⟨entry, binding⟩, tally, size⟩, fun operation member => ?_, bounded, inactive⟩
  rcases tracks operation member with old | unread
  · exact (read operation old).grown (.refl _)
  · exact .of_record_eq_none unread

omit sound

variable {policies : Principal → PolicySnapshot}

/-- One step of the system. -/
theorem Sound.step {event : Event N C} {after : State N C} (sound : Sound service sessions s)
    (stepped : Stepped service sessions policies s event after) :
    Sound service sessions after ∧ Grown s.heap after.heap ∧
      (s.stopped = true → after.stopped = true ∧ Calm s after) := by
  cases stepped with
  | idle event => exact ⟨sound, .refl _, fun stopped => ⟨stopped, .refl s⟩⟩
  | submitted =>
    refine ⟨sound.frame rfl rfl fun operation member => ?_, .refl _,
      fun stopped => ⟨stopped, .of_entries_eq (.refl _) rfl⟩⟩
    rcases List.mem_append.mp member with old | new
    · exact .inl old
    · rw [List.mem_singleton.mp new]
      exact .inr rfl
  | advanced found moved =>
    have tracks := sound.tracks _ (List.mem_of_getElem? found)
    exact ⟨sound.setStage found (tracks.advance moved), .refl _,
      fun stopped => ⟨stopped, .of_entries_eq (.refl _) rfl⟩⟩
  | @registered _ _ _ entry found drawn admits =>
    have unused : entry.record.status.isLive = false := by
      rw [admits.record]
      rfl
    have fades := Fades.append s.heap unused
    refine ⟨sound.register found admits, fades.grown,
      fun stopped => ⟨stopped, fades, fun {watch ptr} listed => ?_⟩⟩
    replace listed : (s.table.entries.insert entry.identity.watch
      s.heap.length)[watch]? = some ptr := listed
    rw [ExtTreeMap.getElem?_insert] at listed
    split at listed
    · obtain rfl := Option.some.inj listed
      exact .inr (List.getElem?_eq_none le_rfl)
    · exact .inl listed
  | published found stage done =>
    obtain ⟨_, published⟩ := publication_eq_done done
    have tracks := sound.tracks _ (List.mem_of_getElem? found)
    have evolves := published.evolves sound tracks stage
    refine ⟨sound.publish found stage published, .set published.held evolves, fun stopped => ?_⟩
    rw [published.running] at stopped
    cases stopped
  | @ended _ _ hold entry revision reason answer found held counted =>
    have evolves := Evolves.ended counted reason
    have bound := (checkedAdd_eq_some_iff.mp counted).2
    have fades := Fades.set held evolves nofun
    refine ⟨Sound.setStage_quiet ?_ found (hold.record_finish answer),
      fades.grown, fun stopped => ⟨stopped, .of_entries_eq fades rfl⟩⟩
    refine sound.setEntry held evolves rfl ?_ fun _ _ => rfl
    rw [(checkedAdd_eq_some_iff.mp counted).1]
    exact bound
  | released found swept =>
    obtain ⟨after_sound, calm⟩ := sound.swept swept
    obtain ⟨operations, same⟩ := swept.frame
    refine ⟨after_sound.setStage_quiet (operations ▸ found) rfl,
      calm.fades.grown, fun stopped => ⟨same.trans stopped, ?_⟩⟩
    exact ⟨calm.fades, calm.registered⟩
  | swept swept =>
    obtain ⟨after_sound, calm⟩ := sound.swept swept
    exact ⟨after_sound, calm.fades.grown, fun stopped => ⟨swept.frame.2.trans stopped, calm⟩⟩
  | closedSession | ticked elapsed | written ontology parseFilter command =>
    exact ⟨sound.frame rfl rfl fun _ => .inl, .refl _,
      fun stopped => ⟨stopped, .of_entries_eq (.refl _) rfl⟩⟩
  | stopped =>
    exact ⟨sound.frame rfl rfl fun _ => .inl, .refl _,
      fun _ => ⟨rfl, .of_entries_eq (.refl _) rfl⟩⟩
  | cleared =>
    refine ⟨sound.clear, .refl _, fun stopped => ⟨stopped, .refl _, ?_⟩⟩
    intro watch ptr listed
    simp [Registry.empty] at listed

/-! ## Runs -/

theorem Sound.initial (store : Session N C) (now : Nat) :
    Sound service sessions (State.initial store now) where
  balanced := {
    linked := ⟨fun listed => by simp [State.initial, Registry.empty] at listed,
      fun bound => by simp [State.initial, Registry.empty] at bound⟩
    tally := ⟨rfl, Nat.zero_le _, Nat.zero_le _, fun _ => Nat.zero_le _⟩
    size := Nat.zero_le _ }
  tracks _ member := by cases member
  bounded _ member := by cases member
  inactive _ member := by cases member

theorem Sound.run (sound : Sound service sessions s) (ontology : Ontology N C)
    (parseFilter : String → Except String FilterNode)
    (events : List ((Principal → PolicySnapshot) × Event N C)) :
    let after := s.run service sessions ontology parseFilter events
    Sound service sessions after ∧ Grown s.heap after.heap ∧
      (s.stopped = true → after.stopped = true ∧ Calm s after) := by
  induction events generalizing s with
  | nil => exact ⟨sound, .refl _, fun stopped => ⟨stopped, .refl s⟩⟩
  | cons first rest previous =>
    obtain ⟨policies, event⟩ := first
    have moved : Stepped service sessions policies s event _ := stepped ontology parseFilter event
    obtain ⟨middle_sound, grown, calm⟩ := sound.step moved
    obtain ⟨after_sound, after_grown, after_calm⟩ := previous middle_sound
    refine ⟨after_sound, grown.trans after_grown, fun stopped => ?_⟩
    obtain ⟨still, quiet⟩ := calm stopped
    obtain ⟨last, quieter⟩ := after_calm still
    exact ⟨last, quiet.trans quieter⟩

/-- Whatever happens, the books of the registry are in order, an entry that is
no longer active stays so, and nothing is in use after a shutdown. -/
theorem registry_balanced (service : Service) (sessions : Nat → SubscriptionSession)
    (ontology : Ontology N C) (parseFilter : String → Except String FilterNode)
    (store : Session N C) (now : Nat) (events : List ((Principal → PolicySnapshot) × Event N C)) :
    let run := State.run service sessions ontology parseFilter
    let s := run (.initial store now) events
    (s.table.reservedBytes = (s.registered.map (·.reservation)).sum ∧
      s.table.reservedBytes ≤ service.limits.maxRetainedBytes ∧
      ∀ entry ∈ s.registered, entry.reservation ≤ s.table.reservedBytes) ∧
    (∀ (watch : BitVec 128) (ptr : Nat), s.table.entries[watch]? = some ptr →
      ∃ entry, s.heap[ptr]? = some entry ∧ entry.identity.watch = watch ∧
        s.table.bindings[bindingKey sessions entry]? = some watch) ∧
    (∀ (key : BindingKey) (watch : BitVec 128), s.table.bindings[key]? = some watch →
        ∃ (ptr : Nat) (entry : Entry), s.table.entries[watch]? = some ptr ∧
          s.heap[ptr]? = some entry ∧ bindingKey sessions entry = key) ∧
    (s.registered.countP (·.active) ≤ service.limits.maxWatches ∧
      (∀ session, (s.registered.filter (·.session = session)).countP (·.active) ≤
        service.limits.maxWatchesPerSession) ∧
      s.table.entries.size ≤ service.limits.maxBindings) ∧
    (∀ more (ptr : Nat) (entry : Entry), s.heap[ptr]? = some entry → entry.active = false →
        ∃ later, (run s more).heap[ptr]? = some later ∧ later.active = false) ∧
    (s.stopped = true → ∀ more,
      (∀ (ptr : Nat) (later : Entry), (run s more).heap[ptr]? = some later →
        later.record.status.isLive = true → ∃ entry, s.heap[ptr]? = some entry ∧
            entry.record.status.isLive = true) ∧
      ∀ policies, ∀ entry ∈ (run s ((policies, .clear) :: more)).registered,
        entry.record.status.isLive = false) := by
  intro run s
  have initial : Sound service sessions (.initial store now) := .initial store now
  have sound : Sound service sessions s := (initial.run ontology parseFilter events).1
  have tally := sound.balanced.tally
  refine ⟨⟨tally.reserved, tally.bounded, fun entry member => ?_⟩,
    fun _ _ => sound.balanced.linked.entry,
    fun _ _ => sound.balanced.linked.binding,
    ⟨tally.active, tally.perSession, sound.balanced.size⟩,
    fun more ptr entry found stopped => ?_, fun stopped more => ⟨?_, ?_⟩⟩
  · rw [tally.reserved]
    exact List.single_le_sum (fun _ _ => Nat.zero_le _) _ (List.mem_map_of_mem member)
  · obtain ⟨_, grown, _⟩ := sound.run ontology parseFilter more
    obtain ⟨later, later_found, evolves⟩ := grown ptr entry found
    exact ⟨later, later_found, evolves.inactive stopped⟩
  · intro ptr later found live
    obtain ⟨_, _, calm⟩ := sound.run ontology parseFilter more
    exact (calm stopped).2.fades.live found live
  · intro policies entry member
    -- what is registered in the end was not there when the registry was cleared
    have cleared : s.step service sessions policies ontology parseFilter .clear =
        { s with table := .empty } := if_pos stopped
    obtain ⟨_, _, calm⟩ := sound.clear.run ontology parseFilter more
    obtain ⟨_, calm⟩ := calm stopped
    replace member : entry ∈ (run { s with table := .empty } more).registered := cleared ▸ member
    obtain ⟨_, _, listed, found⟩ := mem_registered.mp member
    by_contra live
    obtain ⟨_, old_found, _⟩ := calm.fades.live found (by simpa using live)
    rcases calm.registered listed with before | new
    · simp [Registry.empty] at before
    · rw [new] at old_found
      cases old_found

end

end State
end Subscription
end App
end Haystack
