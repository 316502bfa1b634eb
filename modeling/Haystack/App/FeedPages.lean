import Haystack.App.FeedCursor
import Haystack.Graph.Replay

/-!
# Pages of the change feed

A page takes complete units from its position on.  Following the cursors of the
pages, a reader collects what its policy shows of every diff after the position
at which it started, in the order of the revisions.
-/

namespace Haystack
namespace App

open Collections Haystack.Graph
open Haystack.Filter (FilterNode Ontology Arc)

namespace FeedService

variable {service : FeedService}

/-! ## One page -/

/-- A progress has moved over some units. -/
structure Took (policy : PolicySnapshot) (progress result : Progress)
    (units : List (List GraphDiff)) : Prop where
  used : result.used = progress.used + units.flatten.length
  position : result.position = progress.position + units.flatten.length
  changes : result.changes = progress.changes ++ units.flatten.filterMap policy.diff

theorem Took.nil (policy : PolicySnapshot) (progress : Progress) :
    Took policy progress progress [] := by
  constructor <;> simp

variable {policy : PolicySnapshot}

theorem Took.cons {progress next result : Progress} {unit : List GraphDiff}
    {units : List (List GraphDiff)} (used : next.used = progress.used + unit.length)
    (position : next.position = progress.position + unit.length)
    (changes : next.changes = progress.changes ++ unit.filterMap policy.diff)
    (rest : Took policy next result units) :
    Took policy progress result (unit :: units) where
  used := by
    rw [rest.used, used, List.flatten_cons, List.length_append, Nat.add_assoc]
  position := by
    rw [rest.position, position, List.flatten_cons, List.length_append, Nat.add_assoc]
  changes := by
    rw [rest.changes, changes, List.flatten_cons, List.filterMap_append, List.append_assoc]

variable {point : Nat}

/-- The loop takes the first of the units that are left.  If it leaves one, then
it has used a part of the page. -/
theorem takeUnits_eq_ok {reading : Reading} {units : List ChangeUnit} {progress result : Progress}
    (taken : service.takeUnits reading point units progress = .ok result)
    (spans : ∀ unit ∈ units, unit.len = unit.diffs.length ∧
      ∀ diff ∈ unit.diffs, diff.span = unit.span)
    (complete : Changelog.DiffUnits progress.position (units.map ChangeUnit.diffs))
    (fresh : progress.used = 0 → progress.encodedBound = 0) :
    ∃ older newer, units.map ChangeUnit.diffs = older ++ newer ∧
      Took reading.policy progress result older ∧
      (newer = [] ∨ result.used ≠ 0) := by
  induction units generalizing point progress with
  | nil =>
    obtain rfl := Except.ok.inj taken
    exact ⟨[], [], rfl, .nil _ _, .inl rfl⟩
  | cons unit units ih =>
    obtain ⟨nonempty, _, lasts, rest⟩ := complete
    obtain ⟨counted, same⟩ := spans unit List.mem_cons_self
    -- The span of a unit ends at its last revision.
    have last : unit.span.last = progress.position + unit.diffs.length := by
      obtain ⟨front, front_mem⟩ := List.exists_mem_of_ne_nil _ nonempty
      rw [← same front front_mem]
      exact (lasts front front_mem).2
    have size := List.length_pos_iff.mpr nonempty
    simp only [takeUnits] at taken
    split at taken
    · cases taken
    · split_ifs at taken with large unused
      · obtain rfl := Except.ok.inj taken
        exact ⟨[], _, rfl, .nil _ _, .inr unused⟩
      · split at taken
        · cases taken
        · split_ifs at taken with wide narrow
          · obtain rfl := Except.ok.inj taken
            refine ⟨[], _, rfl, .nil _ _, .inr fun unused => ?_⟩
            omega
          · obtain ⟨older, newer, split, took, left⟩ := ih
              taken (fun other member => spans other (.tail _ member))
              (last ▸ rest) (fun unused => by simp only at unused; omega)
            refine ⟨unit.diffs :: older, newer, by simp [split], ?_, left⟩
            exact took.cons (counted ▸ rfl) last rfl

/-- A page of complete units from a position of the log on. -/
structure Paged (policy : PolicySnapshot) (g : EntityGraph N C) (start : Nat)
    (page : ChangesPage) : Prop where
  units : ∃ older taken newer : List (List GraphDiff),
    Changelog.Retains g.log g.version (older ++ (taken ++ newer)) ∧
    start = g.log.floorVersion + older.flatten.length ∧
    page.position = start + taken.flatten.length ∧
    page.changes = taken.flatten.filterMap policy.diff
  head : page.head = g.version
  complete : page.complete = true ↔ page.position = page.head
  advances : page.complete = true ∨ start < page.position

variable {start : Nat}

section

variable {policy : PolicySnapshot} {principal : Principal}
variable {clock : Nat → Nat} {interrupt : Nat → Option ReadError}
variable {N C : Type} {g : EntityGraph N C} {units : List (List GraphDiff)}

variable {reading : Reading} {progress : Progress} {page : ChangesPage}

theorem finishPage_eq_ok (finished : service.finishPage reading point progress = .ok page) :
    page = service.page reading progress.position point progress.changes := by
  unfold finishPage at finished
  split at finished
  · cases finished
  · dsimp only at finished
    split at finished
    · cases finished
    · split at finished
      · cases finished
      · exact (Except.ok.inj finished).symm

theorem pageAfter_eq_ok (retains : Changelog.Retains g.log g.version units) {maxDiffs : Nat}
    (answered : service.pageAfter policy principal clock interrupt g maxDiffs start = .ok page) :
    Paged policy g start page ∧
      ∃ point, page.cursor = service.encodeCursor principal policy.scopeKey
        g.state page.position (clock point) := by
  unfold pageAfter at answered
  split at answered
  · cases answered
  · next iterator accepted =>
    dsimp only at answered
    split at answered
    · cases answered
    · next progress taken =>
      obtain rfl := finishPage_eq_ok answered
      refine ⟨?_, _, rfl⟩
      obtain ⟨_, _, older, newer, rfl, rfl⟩ :=
        (retains.changeUnitsSince_isOk_iff g.state start).mp ⟨_, accepted⟩
      obtain rfl := Except.ok.inj
        (accepted.symm.trans (retains.changeUnitsSince_boundary g.state))
      have complete := (unitsFrom_append.mp retains.complete).2
      have enough : newer.length ≤ g.log.entries.length := by
        have units := retains.complete.length_le
        rw [← retains.entries, List.length_append] at units
        omega
      obtain ⟨collected, spans⟩ := retains.collect_unitsAfter g.state enough
      obtain ⟨took, left, split, moved, stopped⟩ :=
        takeUnits_eq_ok taken spans (collected ▸ complete) (fun _ => rfl)
      obtain rfl := collected.symm.trans split
      refine ⟨⟨older, took, left, retains, rfl, moved.position, ?_⟩, rfl, ?_, ?_⟩
      · exact moved.changes.trans (List.nil_append _)
      · exact decide_eq_true_iff
      · have head := retains.head
        have position : progress.position =
            g.log.floorVersion + older.flatten.length + took.flatten.length :=
          moved.position
        have used : progress.used = 0 + took.flatten.length := moved.used
        rcases stopped with rfl | some
        · left
          simp only [List.append_nil, List.flatten_append, List.length_append] at head
          refine decide_eq_true_iff.mpr ?_
          change progress.position = g.version
          omega
        · right
          change _ < progress.position
          omega

variable {request : ChangesRequest}

/-- A page that is answered starts at the position of its cursor. -/
theorem feedPage_eq_ok (retains : Changelog.Retains g.log g.version units)
    (answered : service.feedPage policy principal clock interrupt g request = .ok page) :
    ∃ start, service.startOf policy principal g.state (clock 0) request.cursor = .ok start ∧
      Paged policy g start page ∧
      ∃ point, page.cursor = service.encodeCursor principal policy.scopeKey
        g.state page.position (clock point) := by
  unfold feedPage at answered
  split at answered
  · cases answered
  · split at answered
    · cases answered
    · split at answered
      · cases answered
      · split at answered
        · cases answered
        · next start started =>
          exact ⟨start, started, pageAfter_eq_ok retains answered⟩

variable {reason : ReadError}

theorem takeUnits_eq_error {collected : List ChangeUnit}
    (uninterrupted : ∀ point, reading.interrupt point = none)
    (failed : service.takeUnits reading point collected progress = .error reason) :
    reason = .unitTooLarge := by
  induction collected generalizing point progress with
  | nil => cases failed
  | cons unit collected ih =>
    simp only [takeUnits, uninterrupted] at failed
    split at failed
    · split at failed
      · exact (Except.error.inj failed).symm
      · cases failed
    · split at failed
      · exact (Except.error.inj failed).symm
      · split at failed
        · exact (Except.error.inj failed).symm
        · split at failed
          · cases failed
          · exact ih failed

theorem finishPage_eq_error (uninterrupted : ∀ point, reading.interrupt point = none)
    (failed : service.finishPage reading point progress = .error reason) :
    reason = .unitTooLarge := by
  simp only [finishPage, uninterrupted] at failed
  split at failed
  · exact (Except.error.inj failed).symm
  · split at failed
    · exact (Except.error.inj failed).symm
    · cases failed

/-- A request that is permitted and not interrupted fails on its cursor or on the
size of a unit. -/
theorem feedPage_eq_error (valid : request.isValid = true)
    (uninterrupted : ∀ point, interrupt point = none)
    (permitted : policy.operation .changes = true)
    (failed : service.feedPage policy principal clock interrupt g request = .error reason) :
    service.startOf policy principal g.state (clock 0) request.cursor = .error reason ∨
      (∃ start, service.startOf policy principal g.state (clock 0)
          request.cursor = .ok start ∧ reason = .staleCursor ∧
        ∀ iterator, g.changeUnitsSince start ≠ .ok iterator) ∨
      reason = .unitTooLarge := by
  unfold feedPage at failed
  simp only [valid, uninterrupted, permitted, Bool.not_true, Bool.false_eq_true,
    if_false] at failed
  split at failed
  · next other stopped =>
    rw [Except.error.inj failed] at stopped
    exact .inl stopped
  · next start started =>
    right
    unfold pageAfter at failed
    split at failed
    · next gap refused =>
      refine .inl ⟨start, started, (Except.error.inj failed).symm, ?_⟩
      rw [refused]
      nofun
    · right
      dsimp only at failed
      split at failed
      · next stopped =>
        obtain rfl := Except.error.inj failed
        exact takeUnits_eq_error uninterrupted stopped
      · exact finishPage_eq_error uninterrupted failed

end

/-! ## Following the cursors -/

/-- The part of a history between two positions. -/
def between (history : List GraphDiff) (start stop : Nat) : List GraphDiff :=
  (history.take stop).drop start

theorem between_self (history : List GraphDiff) (position : Nat) :
    between history position position = [] :=
  List.drop_eq_nil_of_le (List.length_take_le _ _)

variable {history : List GraphDiff}

theorem between_append {more : List GraphDiff} {stop : Nat} (within : stop ≤ history.length) :
    between (history ++ more) start stop = between history start stop := by
  rw [between, between, List.take_append_of_le_length within]

theorem between_append_between
    {middle stop : Nat} (before : start ≤ middle) (after : middle ≤ stop)
    (within : stop ≤ history.length) :
    between history start middle ++ between history middle stop = between history start stop := by
  have halves := List.take_append_drop middle (history.take stop)
  rw [List.take_take, Nat.min_eq_left after] at halves
  have long : start ≤ (history.take middle).length := by
    rw [List.length_take]
    omega
  simp only [between]
  rw [← List.drop_append_of_le_length long, halves]

/-- A position at which a commit of a history ends. -/
def Boundary (history : List GraphDiff) (position : Nat) : Prop :=
  position = 0 ∨ ∃ diff, history[position - 1]? = some diff ∧ diff.span.last = position

variable {position : Nat}

theorem Boundary.append (boundary : Boundary history position) (more : List GraphDiff) :
    Boundary (history ++ more) position := by
  refine boundary.imp_right ?_
  rintro ⟨diff, found, last⟩
  refine ⟨diff, ?_, last⟩
  rw [List.getElem?_append_left (List.getElem?_eq_some_iff.mp found).1, found]

/-- Complete units of a history end at its boundaries. -/
theorem boundary_of_units {floor : Nat} {older newer : List (List GraphDiff)}
    (complete : Changelog.DiffUnits floor (older ++ newer))
    (entries : (older ++ newer).flatten = history.drop floor) (nonempty : older ≠ []) :
    Boundary history (floor + older.flatten.length) := by
  have some := List.length_pos_iff.mpr nonempty
  have units := (unitsFrom_append.mp complete).1.length_le
  have bound : older.flatten.length - 1 < (older ++ newer).flatten.length := by
    rw [List.flatten_append, List.length_append]
    omega
  have found := List.getElem?_eq_getElem bound
  refine .inr ⟨_, ?_, complete.last_at_boundary found nonempty⟩
  rw [← found, entries, List.getElem?_drop]
  congr 1
  omega

section

variable {N C : Type} {origin g : EntityGraph N C} {history : List GraphDiff}

/-- A graph whose whole history is known. -/
structure Recalls (origin g : EntityGraph N C) (history : List GraphDiff) : Prop where
  traced : EntityGraph.Traced origin g history
  fresh : origin.version = 0
  retained : ∃ units, Changelog.Retains g.log g.version units

variable (recalls : Recalls origin g history)

include recalls

theorem Recalls.version : g.version = history.length := by
  rw [recalls.traced.version, recalls.fresh, Nat.zero_add]

/-- The log holds the part of the history after its floor. -/
theorem Recalls.entries : g.log.entries = history.drop g.log.floorVersion := by
  have tail := recalls.traced.retained g.log.floorVersion le_rfl (recalls.fresh ▸ Nat.zero_le _)
  rwa [recalls.fresh, Nat.sub_self] at tail

/-- The head of a graph is the end of its last commit. -/
theorem Recalls.boundary_head : Boundary history g.version := by
  obtain ⟨units, rfl, complete⟩ := recalls.traced.units
  rw [recalls.fresh] at complete
  rw [recalls.version]
  rcases eq_or_ne units [] with rfl | nonempty
  · exact .inl rfl
  · rw [← List.append_nil units] at complete
    simpa using boundary_of_units complete (by simp) nonempty

/-- The end of a commit is accepted until the floor passes it. -/
theorem Recalls.accepts (boundary : Boundary history position)
    (lower : g.log.floorVersion ≤ position) (upper : position ≤ g.version) :
    ∃ iterator, g.changeUnitsSince position = .ok iterator := by
  obtain ⟨units, retains⟩ := recalls.retained
  refine (retains.changeUnitsSince_isOk_iff g.state position).mpr ⟨lower, upper, ?_⟩
  have within : position ≤ g.log.floorVersion + units.flatten.length := retains.head ▸ upper
  refine (retains.complete.boundary_or_inside lower within).resolve_right ?_
  rintro ⟨entry, found, after, unequal⟩
  rw [← retains.entries, recalls.entries, List.getElem?_drop,
    show g.log.floorVersion + (position - g.log.floorVersion - 1) =
      position - 1 by omega] at found
  rcases boundary with zero | ⟨diff, same, last⟩
  · omega
  · obtain rfl := Option.some.inj (found.symm.trans same)
    exact unequal last

/-- The changes of a page are those of the history that it covers. -/
theorem Recalls.page {page : ChangesPage}
    (paged : Paged policy g start page) (boundary : Boundary history start) :
    start ≤ page.position ∧ page.position ≤ history.length ∧
      page.changes = (between history start page.position).filterMap policy.diff ∧
      Boundary history page.position := by
  obtain ⟨older, taken, _, retains, rfl, position, changes⟩ := paged.units
  have entries := retains.entries.symm.trans recalls.entries
  have head := retains.head
  rw [recalls.version, List.flatten_append, List.flatten_append,
    List.length_append, List.length_append] at head
  -- The units that are taken lie between the two positions.
  have covered : between history (g.log.floorVersion + older.flatten.length) page.position =
        taken.flatten := by
    rw [between, List.drop_take, ← List.drop_drop, ← entries, position,
      Nat.add_sub_cancel_left, List.flatten_append, List.flatten_append,
      List.drop_left, List.take_left]
  refine ⟨by omega, by omega, by rw [changes, covered], ?_⟩
  rcases eq_or_ne taken [] with rfl | nonempty
  · rw [position]
    exact boundary
  · rw [← List.append_assoc] at entries retains
    have ends := boundary_of_units retains.complete entries
      (List.append_ne_nil_of_right_ne_nil older nonempty)
    rwa [List.flatten_append, List.length_append, ← Nat.add_assoc, ← position] at ends

end

/-- What happens until the next page: some commands, and a request. -/
structure Turn (N C : Type) where
  commands : List (Command N C)
  maxDiffs : Nat
  clock : Nat → Nat
  interrupt : Nat → Option ReadError

/-- A reader of the feed with its last page and all changes that it was shown,
and the graph that it reads. -/
structure Following (N C : Type) where
  session : Session N C
  page : ChangesPage
  changes : List EntityDiff

section

variable {N C : Type} (ontology : Ontology N C) (parseFilter : String → Except String FilterNode)
variable (service : FeedService) (policy : PolicySnapshot) (principal : Principal)

/-- The answer to the request of a turn, which presents the last cursor. -/
def Following.answer (s : Following N C) (turn : Turn N C) : Except ReadError ChangesPage :=
  service.feedPage policy principal turn.clock turn.interrupt
    (s.session.run ontology parseFilter turn.commands).graph
    ⟨some s.page.cursor, turn.maxDiffs⟩

/-- A turn.  After an error the reader keeps its cursor. -/
def Following.step (s : Following N C) (turn : Turn N C) : Following N C :=
  let session := s.session.run ontology parseFilter turn.commands
  match s.answer ontology parseFilter service policy principal turn with
  | .ok page => ⟨session, page, s.changes ++ page.changes⟩
  | .error _ => { s with session }

variable {ontology parseFilter service policy principal}

/-- The reader was shown the history from its first position to its last one. -/
structure Follows (service : FeedService) (policy : PolicySnapshot) (principal : Principal)
    (origin : EntityGraph N C) (start : Nat) (s : Following N C)
    (history : List GraphDiff) : Prop where
  sound : s.session.Sound
  recalls : Recalls origin s.session.graph history
  minted : ∃ state clock, s.page.cursor =
    service.encodeCursor principal policy.scopeKey state s.page.position clock
  lower : start ≤ s.page.position
  upper : s.page.position ≤ history.length
  boundary : Boundary history s.page.position
  changes : s.changes = (between history start s.page.position).filterMap policy.diff

variable {origin : EntityGraph N C} {start : Nat} {s : Following N C} {history : List GraphDiff}

/-- Commands extend the history. -/
theorem Follows.run (ontology : Ontology N C) (parseFilter : String → Except String FilterNode)
    (follows : Follows service policy principal origin start s history)
    (commands : List (Command N C)) :
    ∃ more, Follows service policy principal origin start
      { s with session := s.session.run ontology parseFilter commands }
      (history ++ more) := by
  have sound : (s.session.run ontology parseFilter commands).Sound := follows.sound.run commands
  obtain ⟨more, traced⟩ := follows.sound.traced_run follows.recalls.traced commands
  refine ⟨more, sound, ⟨traced, follows.recalls.fresh, sound.retained⟩,
    follows.minted, follows.lower, ?_, follows.boundary.append more, ?_⟩
  · rw [List.length_append]
    exact follows.upper.trans (Nat.le_add_right _ _)
  · rw [between_append follows.upper]
    exact follows.changes

variable (follows : Follows service policy principal origin start s history)

include follows

/-- The last cursor leads to the last position only. -/
theorem Follows.start_eq {state : GraphState} {clock position : Nat}
    (started : service.startOf policy principal state clock (some s.page.cursor) = .ok position) :
    position = s.page.position := by
  obtain ⟨minting, minted, cursor⟩ := follows.minted
  have fits : s.page.position ≤ u64Max := by
    have bounded := follows.sound.bounded
    have upper := follows.upper
    rw [follows.recalls.version] at bounded
    omega
  rw [cursor] at started
  exact Reader.eq_of_present_mint ⟨service, principal, policy.scopeKey, minting⟩
    ⟨service, principal, policy.scopeKey, state⟩ fits started

/-- A page that is answered starts where the last one ended. -/
theorem Follows.paged {clock : Nat → Nat} {interrupt : Nat → Option ReadError} {maxDiffs : Nat}
    {page : ChangesPage}
    (answered : service.feedPage policy principal clock interrupt
      s.session.graph ⟨some s.page.cursor, maxDiffs⟩ = .ok page) :
    Paged policy s.session.graph s.page.position page ∧
      ∃ point, page.cursor = service.encodeCursor principal policy.scopeKey
        s.session.graph.state page.position (clock point) := by
  obtain ⟨_, retains⟩ := follows.sound.retained
  obtain ⟨_, started, paged, minted⟩ := feedPage_eq_ok retains answered
  obtain rfl := follows.start_eq started
  exact ⟨paged, minted⟩

theorem Follows.page {page : ChangesPage}
    (paged : Paged policy s.session.graph s.page.position page)
    (minted : ∃ state clock, page.cursor =
      service.encodeCursor principal policy.scopeKey state page.position clock) :
    Follows service policy principal origin start
      ⟨s.session, page, s.changes ++ page.changes⟩ history := by
  obtain ⟨lower, upper, changes, boundary⟩ := follows.recalls.page paged follows.boundary
  refine ⟨follows.sound, follows.recalls, minted, follows.lower.trans lower, upper, boundary, ?_⟩
  rw [follows.changes, changes, ← List.filterMap_append,
    between_append_between follows.lower lower upper]

theorem Follows.step (turn : Turn N C) :
    ∃ more, Follows service policy principal origin start
      (s.step ontology parseFilter service policy principal turn)
      (history ++ more) := by
  obtain ⟨more, later⟩ := follows.run ontology parseFilter turn.commands
  refine ⟨more, ?_⟩
  unfold Following.step
  split
  · next page answered =>
    obtain ⟨paged, _, minted⟩ := later.paged answered
    exact later.page paged ⟨_, _, minted⟩
  · exact later

theorem Follows.turns (turns : List (Turn N C)) :
    ∃ more, Follows service policy principal origin start
      (turns.foldl (Following.step ontology parseFilter service policy principal)
        s) (history ++ more) := by
  induction turns generalizing s history with
  | nil => exact ⟨[], by rwa [List.append_nil]⟩
  | cons turn turns ih =>
    obtain ⟨more, later⟩ := follows.step turn
    obtain ⟨rest, last⟩ := ih later
    exact ⟨more ++ rest, by rwa [List.append_assoc] at last⟩

end

/-! ## The feed -/

/-- The history of a graph, shown to a reader from one position to another, and
what the reader is answered next. -/
structure Shown (ontology : Ontology N C) (parseFilter : String → Except String FilterNode)
    (service : FeedService) (policy : PolicySnapshot) (principal : Principal)
    (origin : EntityGraph N C) (start : Nat) (s : Following N C)
    (history : List GraphDiff) : Prop where
  /-- The history consists of complete commits, and leads to the graph. -/
  traced : EntityGraph.Traced origin s.session.graph history
  lower : start ≤ s.page.position
  upper : s.page.position ≤ history.length
  boundary : Boundary history s.page.position
  changes : s.changes = (between history start s.page.position).filterMap policy.diff
  /-- A page has complete units from the last position on. -/
  page : ∀ turn page, s.answer ontology parseFilter service policy principal turn = .ok page →
    let g := (s.session.run ontology parseFilter turn.commands).graph
    Paged policy g s.page.position page ∧ ∃ clock, page.cursor =
        Reader.mint ⟨service, principal, policy.scopeKey, g.state⟩ page.position clock
  /-- An accepted cursor fails in a gap or on a large unit only. -/
  error : ∀ turn reason, s.answer ontology parseFilter service policy principal turn =
      .error reason →
    let g := (s.session.run ontology parseFilter turn.commands).graph
    ChangesRequest.isValid ⟨some s.page.cursor, turn.maxDiffs⟩ = true →
    (∀ point, turn.interrupt point = none) →
    policy.operation .changes = true →
    Reader.present ⟨service, principal, policy.scopeKey, g.state⟩ (turn.clock 0)
      s.page.cursor = .ok s.page.position →
    reason = .unitTooLarge ∨ reason = .staleCursor ∧ s.page.position < g.log.floorVersion

theorem Follows.shown {ontology : Ontology N C} {parseFilter : String → Except String FilterNode}
    {service : FeedService} {principal : Principal} {origin : EntityGraph N C} {s : Following N C}
    (follows : Follows service policy principal origin start s history) :
    Shown ontology parseFilter service policy principal origin start s history := by
  refine ⟨follows.recalls.traced, follows.lower, follows.upper,
    follows.boundary, follows.changes, ?_, ?_⟩
  · intro turn page answered g
    obtain ⟨_, later⟩ := follows.run ontology parseFilter turn.commands
    obtain ⟨paged, _, minted⟩ := later.paged answered
    exact ⟨paged, _, minted⟩
  · intro turn reason failed g valid uninterrupted permitted live
    obtain ⟨_, later⟩ := follows.run ontology parseFilter turn.commands
    rcases feedPage_eq_error valid uninterrupted permitted failed with
      refused | ⟨position, started, stale, rejected⟩ | large
    · exact absurd (live.symm.trans refused) (by simp)
    · obtain rfl := follows.start_eq started
      refine .inr ⟨stale, Nat.lt_of_not_le fun retained => ?_⟩
      have upper := later.upper
      obtain ⟨iterator, accepted⟩ := later.recalls.accepts later.boundary
        retained (later.recalls.version ▸ upper)
      exact rejected iterator accepted
    · exact .inl large

/-- Following its cursors from the head on, a reader is shown what its policy
allows of every later diff, in order and once. -/
theorem feed_exact (ontology : Ontology N C) (parseFilter : String → Except String FilterNode)
    (service : FeedService) (policy : PolicySnapshot) (principal : Principal)
    (capacity bytes : Nat) (incarnation : BitVec 128) (base : Option (Arc N))
    (before : List (Command N C)) (first : Turn N C) (turns : List (Turn N C)) :
    let origin : Session N C := .initial capacity bytes incarnation base
    let session := origin.run ontology parseFilter before
    (∀ page, service.feedPage policy principal first.clock first.interrupt
        session.graph ⟨none, first.maxDiffs⟩ = .ok page →
      page.position = session.graph.version ∧ page.complete = true ∧ page.changes = [] ∧
        ∃ history, Shown ontology parseFilter service policy principal origin.graph page.position
          (turns.foldl (Following.step ontology parseFilter service policy principal)
            ⟨session, page, page.changes⟩) history) ∧
      (∀ (reader : Reader) (position clock clock' : Nat),
        position ≤ u64Max → reader.state.catalogGeneration ≤ u64Max →
        reader.present clock' (reader.mint position clock) =
          if reader.service.expires clock ≤ clock' then .error .staleCursor
          else .ok position) ∧
      (∀ (reader other : Reader) (position clock clock' : Nat),
        position ≤ u64Max → reader.state.catalogGeneration ≤ u64Max →
        (reader.service.dataset ≠ other.service.dataset ∨
          reader.state.incarnation ≠ other.state.incarnation ∨
          reader.state.catalogGeneration ≠ other.state.catalogGeneration) →
        other.present clock' (reader.mint position clock) = .error .staleCursor) ∧
      ∀ (reader : Reader) (principal' : Principal) (scope' : String)
        (position clock clock' : Nat),
        position ≤ u64Max →
        reader.service.Fits reader.principal →
        reader.service.Fits principal' →
        (reader.principal ≠ principal' ∨ reader.scope ≠ scope') →
        (let bytes := reader.service.cursorBytes reader.state position clock
          let message := reader.service.macInput reader.principal reader.scope bytes
          let message' := reader.service.macInput principal' scope' bytes
          reader.service.hmac message' = reader.service.hmac message → message' = message) →
        Reader.present ⟨reader.service, principal', scope', reader.state⟩ clock'
            (reader.mint position clock) =
          .error .staleCursor := by
  intro origin session
  refine ⟨?_, ?_, ?_, ?_⟩
  · intro page answered
    have originSound : origin.Sound := Session.sound_initial capacity bytes incarnation base
    have sound : session.Sound := originSound.run before
    obtain ⟨_, nothing⟩ := originSound.retained
    obtain ⟨history, traced⟩ := originSound.traced_run (.refl nothing) before
    obtain ⟨_, retains⟩ := sound.retained
    have recalls : Recalls origin.graph session.graph ([] ++ history) :=
      ⟨traced, rfl, sound.retained⟩
    obtain ⟨start, started, paged, _, minted⟩ := feedPage_eq_ok retains answered
    obtain rfl : session.graph.version = start := Except.ok.inj started
    obtain ⟨lower, upper, changes, boundary⟩ := recalls.page paged recalls.boundary_head
    rw [← recalls.version] at upper
    have position := Nat.le_antisymm upper lower
    have nothingShown : page.changes = [] := by
      rw [changes, position, between_self, List.filterMap_nil]
    refine ⟨position, paged.complete.mpr (position.trans paged.head.symm), nothingShown, ?_⟩
    have follows : Follows service policy principal origin.graph page.position
        ⟨session, page, page.changes⟩ ([] ++ history) :=
      ⟨sound, recalls, ⟨_, _, minted⟩, le_rfl, recalls.version ▸ upper,
        boundary, by rw [nothingShown, between_self, List.filterMap_nil]⟩
    obtain ⟨_, last⟩ := follows.turns turns
    exact ⟨_, last.shown⟩
  · intro reader position clock clock' positionFits generationFits
    exact reader.present_mint_self positionFits generationFits clock clock'
  · intro reader other position clock clock' positionFits generationFits elsewhere
    exact reader.present_mint_elsewhere other positionFits generationFits elsewhere clock clock'
  · intro reader principal' scope' position clock clock' positionFits fits fits'
      stranger collisionFree
    exact reader.present_mint_stranger _ positionFits clock clock' rfl fits fits'
      stranger collisionFree

/-- A bootstrap page whose cursor its own reader can no longer present. -/
theorem cursor_expires :
    let service : FeedService := {
      dataset := 1
      cursorTtl := 10
      pageBytes := 100
      printable := fun _ => true
      hmac := fun _ => List.replicate 32 0
      length_hmac := fun _ => rfl
      codec := ⟨fun _ => none, fun _ => none, fun _ => some []⟩ }
    let policy : PolicySnapshot := {
      scopeKey := "all"
      operation := fun _ => true
      entity := fun _ => true
      tag := fun _ _ => true
      reference := fun _ => true
      referenceDisplay := fun _ => true
      catalog := fun _ _ => true
      nominalProvenance := fun _ => true }
    let s : Session Unit Unit := .initial 3 3000 2 none
    ∃ page, service.feedPage policy .anonymous (fun _ => 5) (fun _ => none)
        s.graph ⟨none, 1⟩ = .ok page ∧ page.position = 0 ∧
      service.decodeCursor .anonymous policy.scopeKey s.graph.state 14
        page.cursor = .ok page.position ∧
      service.decodeCursor .anonymous policy.scopeKey s.graph.state 15
        page.cursor = .error .staleCursor := by
  intro service policy s
  refine ⟨_, rfl, rfl, ?_, ?_⟩
  · exact Reader.present_mint_self ⟨service, .anonymous, "all", s.graph.state⟩
      (Nat.zero_le _) (Nat.zero_le _) 5 14
  · exact Reader.present_mint_self ⟨service, .anonymous, "all", s.graph.state⟩
      (Nat.zero_le _) (Nat.zero_le _) 5 15

end FeedService
end App
end Haystack
