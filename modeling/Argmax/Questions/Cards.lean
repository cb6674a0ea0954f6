import Argmax.Persistence.Approvals

/-!
# Question cards

The cards of blocking questions in `questions/service.rs`. A card is a timeline event. It is
open until an event of its session completes it: the one that names the same item, the same
invocation and the same request of the provider.
-/

namespace Argmax.Questions

open Argmax.Lib Argmax.Persistence Argmax.Providers

/-- `a = b` of two extracted values: a missing value equals nothing. -/
def sqlEq (a b : Option Json) : Bool := a.isSome && a == b

theorem sqlEq_iff {a b : Option Json} : sqlEq a b = true ↔ ∃ value, a = some value ∧ b = some value := by
  cases a with
  | none => simp [sqlEq]
  | some value => simpa [sqlEq] using eq_comm

/-- The event completes the card. -/
def completes (completed requested : PersistTimelineEventInput) : Bool :=
  completed.sessionId == requested.sessionId && completed.type == "command.completed" &&
    sqlEq (jsonExtract completed.payload ["id"]) (jsonExtract requested.payload ["id"]) &&
    sqlEq (jsonExtract completed.payload ["providerInvocationId"])
      (jsonExtract requested.payload ["providerInvocationId"]) &&
    sqlEq (jsonExtract completed.payload ["providerRequestId"])
      (jsonExtract requested.payload ["providerRequestId"])

/-- The event is the card of a blocking question. -/
def isCard (event : PersistTimelineEventInput) : Bool :=
  event.type == "command.started" &&
    jsonExtract event.payload ["input", "delivery"] == some (.string "blocking")

def listDurablePending (events : List PersistTimelineEventInput) (sessionId : String) : List Json :=
  (events.filter fun requested => requested.sessionId == sessionId && isCard requested &&
    !events.any fun completed => completes completed requested).map (·.payload)

def hasDurablePending (events : List PersistTimelineEventInput) (sessionId : String) : Bool :=
  !(listDurablePending events sessionId).isEmpty

def hasDurableRequest (events : List PersistTimelineEventInput)
    (sessionId invocationId requestId : String) : Bool :=
  events.any fun event => event.sessionId == sessionId && event.type == "command.started" &&
    jsonExtract event.payload ["providerInvocationId"] == some (.string invocationId) &&
    jsonExtract event.payload ["providerRequestId"] == some (.string requestId)

/-- An event that is no card and completes none leaves the open cards. -/
theorem listDurablePending_append {events : List PersistTimelineEventInput}
    {event : PersistTimelineEventInput} (hcard : isCard event = false)
    (htype : event.type ≠ "command.completed") (sessionId : String) :
    listDurablePending (events ++ [event]) sessionId = listDurablePending events sessionId := by
  have hnone : ∀ requested, completes event requested = false := by
    simp [completes, beq_eq_false_iff_ne.mpr htype]
  simp [listDurablePending, hcard, hnone]

/-- Nothing of the session is pending. -/
def Settled (db : Database) (sessionId : String) : Prop :=
  db.listApprovalsForSession sessionId "pending" = [] ∧ hasDurablePending db.events sessionId = false

theorem settled_congr {db db' : Database} {sessionId : String}
    (happrovals : db'.approvals = db.approvals) (hevents : db'.events = db.events)
    (h : Settled db sessionId) : Settled db' sessionId := by
  rw [Settled, Database.listApprovalsForSession, happrovals, hevents]
  exact h

/-- No card of the session is open. -/
theorem hasDurablePending_eq_false {events : List PersistTimelineEventInput} {sessionId : String} :
    hasDurablePending events sessionId = false ↔ ∀ card ∈ events, card.sessionId = sessionId →
      isCard card = true → ∃ event ∈ events, completes event card = true := by
  simp [hasDurablePending, listDurablePending]

end Argmax.Questions
