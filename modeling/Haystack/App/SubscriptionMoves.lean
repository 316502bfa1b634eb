import Haystack.App.Subscription

/-!
# Moves of a record

What a native operation can prepare: a first delivery, the delivery that is
already outstanding, a new one, nothing, an acknowledgement, another scope,
another lease, or the end of the subscription.
-/

namespace Haystack
namespace App
namespace Subscription

open Collections Haystack.Graph

/-- The acknowledgement that a delivery asks for. -/
def SubscriptionDelivery.ack (delivery : SubscriptionDelivery) : Ack :=
  ⟨delivery.scopeGeneration, delivery.token, delivery.through⟩

/-- An outcome that tells nothing about the state of the entities. -/
def SubscriptionOutcome.isPlain : SubscriptionOutcome → Bool
  | .delivery _ | .idle .. | .acknowledged .. => false
  | _ => true

section

variable (service : Service) (identity : SubscriptionId)
variable (request : SubscriptionRequest) (ids : List String) (capture : Capture)
variable (now : Nat) (token : BitVec 128)

/-- The subscription that a creation begins. -/
def Live.created (create : SubscriptionCreate) : Live where
  ids
  graph := capture.graph
  policy := capture.policy
  scope := 1
  acknowledged := capture.graph.revision
  projection := ∅
  prepared := none
  lastAck := none
  leaseUntil := now + create.leaseMs * millisecond

/-- The subscription with its next scope. -/
def Live.replaced (live : Live) : Live :=
  { live with
    ids
    graph := capture.graph
    scope := live.scope + 1
    acknowledged := capture.graph.revision
    projection := ∅
    lastAck := none }

/-- What a native operation makes of the state of a record. -/
inductive Moves : Status → Status → SubscriptionOutcome → Prop
  | created {create : SubscriptionCreate} {prepared : Prepared}
      (requested : request = .create create)
      (delivery : service.delivery identity (.created ids capture now create)
        capture true token = .ok prepared) :
      Moves .preparing (.live { Live.created ids capture now create with
          prepared := some prepared })
        (.delivery prepared.delivery)
  | redelivered {live : Live} {prepared : Prepared}
      (outstanding : live.prepared = some prepared) :
      Moves (.live live) (.live { live with graph := capture.graph })
        (.delivery prepared.delivery)
  | idle {live : Live} (settled : live.prepared = none)
      (acknowledged : capture.graph.revision = live.acknowledged)
      (same : sameProjection live.projection capture.projection = true) :
      Moves (.live live) (.live { live with graph := capture.graph })
        (.idle identity live.scope live.acknowledged)
  | delivered {live : Live} {prepared : Prepared} (settled : live.prepared = none)
      (kept : ∀ watch scope ids, request ≠ .replace watch scope ids)
      (delivery : service.delivery identity
        { live with graph := capture.graph } capture false token = .ok prepared) :
      Moves (.live live) (.live { live with graph := capture.graph, prepared := some prepared })
        (.delivery prepared.delivery)
  | repeated {live : Live} {ack : Ack} (last : live.lastAck = some ack) :
      Moves (.live live) (.live { live with graph := capture.graph })
        (.acknowledged identity ack.scope ack.token ack.through)
  | acknowledged {live : Live} {prepared : Prepared} (outstanding : live.prepared = some prepared)
      (scope : prepared.delivery.scopeGeneration = live.scope) :
      Moves (.live live) (.live { live with
          graph := capture.graph
          prepared := none
          acknowledged := prepared.delivery.through
          projection := prepared.projection
          lastAck := some prepared.delivery.ack })
        (.acknowledged identity prepared.delivery.scopeGeneration
          prepared.delivery.token prepared.delivery.through)
  | replaced {live : Live} {watch : SubscriptionId} {expected : Nat}
      {wanted : List String} {prepared : Prepared}
      (requested : request = .replace watch expected wanted)
      (counted : live.scope + 1 ≤ u64Max)
      (delivery : service.delivery identity (live.replaced ids capture) capture
        true token = .ok prepared) :
      Moves (.live live) (.live { live.replaced ids capture with prepared := some prepared })
        (.delivery prepared.delivery)
  | kept {live : Live} {outcome : SubscriptionOutcome} (leaseUntil : Nat)
      (plain : outcome.isPlain = true) :
      Moves (.live live) (.live { live with graph := capture.graph, leaseUntil }) outcome
  | closed {live : Live} : Moves (.live live) .closed (.closed identity)

end

namespace Service

variable {service : Service} {identity : SubscriptionId}
variable {request : SubscriptionRequest} {ids : List String} {capture : Capture}
variable {now : Nat} {token : BitVec 128} {live : Live}
variable {status : Status} {outcome : SubscriptionOutcome}

theorem deliver_eq_ok_iff {initial : Bool} :
    service.deliver identity live capture initial token = .ok (status, outcome) ↔
      ∃ prepared, service.delivery identity live capture initial token = .ok prepared ∧
        status = .live { live with prepared := some prepared } ∧
        outcome = .delivery prepared.delivery := by
  unfold deliver
  split
  · next failed => simp [failed]
  · next prepared made => simp [made, eq_comm]

theorem moves_poll (kept : ∀ watch scope ids, request ≠ .replace watch scope ids)
    (result : service.preparePoll identity { live with graph := capture.graph }
      capture token = .ok (status, outcome)) :
    Moves service identity request ids capture now token (.live live) status outcome := by
  unfold preparePoll at result
  split at result
  · next prepared outstanding =>
    cases result
    exact .redelivered outstanding
  · next settled =>
    split at result
    · next same =>
      cases result
      exact .idle settled same.1 same.2
    · obtain ⟨_, delivery, rfl, rfl⟩ := deliver_eq_ok_iff.mp result
      exact .delivered settled kept delivery

theorem moves_acknowledge {ack : Ack}
    (result : prepareAcknowledge identity { live with graph := capture.graph }
      ack = (status, outcome)) :
    Moves service identity request ids capture now token (.live live) status outcome := by
  unfold prepareAcknowledge at result
  split at result
  · cases result
    exact .kept live.leaseUntil rfl
  · next scope =>
    split at result
    · next last =>
      cases result
      exact .repeated last
    · split at result
      · next prepared outstanding =>
        split at result
        · next accepted =>
          subst accepted
          cases result
          exact .acknowledged outstanding (not_not.mp scope)
        · cases result
          exact .kept live.leaseUntil rfl
      · cases result
        exact .kept live.leaseUntil rfl

theorem moves_live (result : service.prepareLive identity request
      { live with graph := capture.graph } ids capture now token = .ok (status, outcome)) :
    Moves service identity request ids capture now token (.live live) status outcome := by
  cases request with
  | describe => cases result
  | create create | poll watch => exact moves_poll nofun result
  | resume =>
    unfold prepareLive at result
    dsimp only at result
    split at result
    · cases result
      exact .kept live.leaseUntil rfl
    · exact moves_poll nofun result
  | acknowledge =>
    exact moves_acknowledge (Except.ok.inj result)
  | renew watch leaseMs =>
    unfold prepareLive at result
    dsimp only at result
    split at result
    · cases result
      exact .kept live.leaseUntil rfl
    · cases result
      exact .kept (now + leaseMs * millisecond) rfl
  | replace =>
    replace result : service.prepareReplace identity
      { live with graph := capture.graph } ids capture token = .ok (status, outcome) := result
    unfold prepareReplace at result
    split at result
    · cases result
    · next scope counted =>
      obtain ⟨rfl, bound⟩ := checkedAdd_eq_some_iff.mp counted
      obtain ⟨_, delivery, rfl, rfl⟩ := deliver_eq_ok_iff.mp result
      exact .replaced rfl bound delivery
  | unsubscribe =>
    cases result
    exact .closed

variable {record next : Record}

/-- What a native operation prepares. -/
theorem moves_prepare (result : service.prepare identity request record ids capture now token =
      .ok (next, outcome)) :
    next.revision = record.revision + 1 ∧ next.revision ≤ u64Max ∧
      Moves service identity request ids capture now token record.status
        next.status outcome := by
  unfold prepare at result
  split at result
  · cases result
  · next revision counted =>
    obtain ⟨rfl, bound⟩ := checkedAdd_eq_some_iff.mp counted
    dsimp only at result
    split at result
    · cases result
    · next status outcome made =>
      cases result
      refine ⟨rfl, bound, ?_⟩
      split at made
      · next create started =>
        obtain ⟨_, delivery, rfl, rfl⟩ := deliver_eq_ok_iff.mp made
        rw [started]
        exact .created rfl delivery
      · next live _ started =>
        rw [started]
        exact moves_live made
      · cases made

/-- What an operation on a typed watch prepares. -/
theorem prepareWatch_eq_ok {watch : BitVec 128} {request : WatchRequest}
    {previous : Option WatchLive} {details : Captured} {expires : Option Nat} {grid : WatchGrid}
    (result : service.prepareWatch watch request record previous capture details
      expires now = .ok (next, grid)) :
    next.revision = record.revision + 1 ∧ next.revision ≤ u64Max ∧ ∃ lease responded,
        respond watch request (previous.getD (newWatch capture lease now)) capture
          details lease = (responded, grid) ∧
        next.status = .watch { responded with
          observed := capture.graph
          policy := capture.policy
          projection := retain (fun id _ => responded.members.contains id) capture.projection
          lease
          leaseUntil := now + lease } := by
  unfold prepareWatch at result
  dsimp only at result
  split at result
  · cases result
  · split at result
    · cases result
    · next revision counted =>
      obtain ⟨rfl, bound⟩ := checkedAdd_eq_some_iff.mp counted
      cases result
      exact ⟨rfl, bound, _, _, rfl, rfl⟩

end Service

/-- A record that an operation has moved is in use or over. -/
theorem Moves.isOver {service : Service} {identity : SubscriptionId}
    {request : SubscriptionRequest} {ids : List String} {capture : Capture}
    {now : Nat} {token : BitVec 128} {status next : Status} {outcome : SubscriptionOutcome}
    (moves : Moves service identity request ids capture now token status next outcome)
    (stopped : next.isLive = false) : next.isOver = true := by
  cases moves
  case closed => rfl
  all_goals cases stopped

end Subscription
end App
end Haystack
