import Argmax.Questions.Service

/-!
# The life of a question

A card is completed at most once, and an answer goes to its provider with the completion. The
transcript is the book in which this is kept: a request has one card, and a completion
answers a card that was open.

An operation that fails changes nothing, except that the cancellation of a session drops its
responders first. A session runs again when no other question of it waits in memory, and
there may be cards that are open without a responder. `Harmless` says when neither matters.
-/

namespace Argmax.Questions

open Argmax.Lib Argmax.Persistence Argmax.Providers

/-! ## Keys of requests -/

/-- Elements that share a key are the same when keys are distinct. -/
theorem eq_of_filterMap_nodup {α κ : Type*} {f : α → Option κ} {xs : List α}
    (h : (xs.filterMap f).Nodup) {a b : α} {k : κ} (ha : a ∈ xs) (hb : b ∈ xs)
    (hfa : f a = some k) (hfb : f b = some k) : a = b := by
  induction xs with
  | nil => simp at ha
  | cons x xs ih =>
    have hrest : (xs.filterMap f).Nodup :=
      h.sublist ((List.sublist_cons_self x xs).filterMap f)
    have hhead : ∀ y ∈ xs, f x = some k → f y ≠ some k := by
      intro y hy hx hfy
      rw [List.filterMap_cons_some hx, List.nodup_cons] at h
      exact h.1 (List.mem_filterMap.mpr ⟨y, hy, hfy⟩)
    rcases List.mem_cons.mp ha with rfl | ha' <;> rcases List.mem_cons.mp hb with rfl | hb'
    · rfl
    · exact absurd hfb (hhead b hb' hfa)
    · exact absurd hfa (hhead a ha' hfb)
    · exact ih hrest ha' hb'

/-- A selection of elements with one key has one element at most. -/
theorem length_filter_le_one {α κ : Type*} {f : α → Option κ} {p : α → Bool} {k : κ} {xs : List α}
    (h : (xs.filterMap f).Nodup) (hp : ∀ x ∈ xs, p x = true → f x = some k) :
    (xs.filter p).length ≤ 1 := by
  induction xs with
  | nil => simp
  | cons x xs ih =>
    have hrest : (xs.filterMap f).Nodup :=
      h.sublist ((List.sublist_cons_self x xs).filterMap f)
    obtain ⟨hx, hxs⟩ := List.forall_mem_cons.mp hp
    cases hsel : p x with
    | false => simpa [hsel] using ih hrest hxs
    | true =>
      have hnone : xs.filter p = [] := by
        rw [List.filter_eq_nil_iff]
        intro y hy hpy
        rw [List.filterMap_cons_some (hx hsel), List.nodup_cons] at h
        exact h.1 (List.mem_filterMap.mpr ⟨y, hy, hxs y hy hpy⟩)
      simp [hsel, hnone]

def textAt (event : PersistTimelineEventInput) (field : String) : Option String :=
  (jsonExtract event.payload [field]).bind Json.asStr

variable {event card : PersistTimelineEventInput} {k : String × String × String}
  {events : List PersistTimelineEventInput} {sessionId invocationId requestId : String}
  {question : PendingQuestion} {s s' : State} {fault : Option Call}

theorem textAt_eq_some {field text : String} :
    textAt event field = some text ↔ jsonExtract event.payload [field] = some (.string text) := by
  rw [textAt, Option.bind_eq_some_iff]
  constructor
  · rintro ⟨value, hvalue, htext⟩
    cases value <;> simp_all [Json.asStr]
  · exact fun h => ⟨_, h, rfl⟩

/-- The session, the invocation and the request that an event names. -/
def requestKey (event : PersistTimelineEventInput) : Option (String × String × String) :=
  (textAt event "providerInvocationId").bind fun invocationId =>
    (textAt event "providerRequestId").map fun requestId =>
      (event.sessionId, invocationId, requestId)

theorem requestKey_eq_some :
    requestKey event = some k ↔ event.sessionId = k.1 ∧
      jsonExtract event.payload ["providerInvocationId"] = some (.string k.2.1) ∧
      jsonExtract event.payload ["providerRequestId"] = some (.string k.2.2) := by
  obtain ⟨sessionId, invocationId, requestId⟩ := k
  simp only [requestKey, Option.bind_eq_some_iff, Option.map_eq_some_iff, textAt_eq_some,
    Prod.mk.injEq]
  constructor
  · rintro ⟨_, hinv, _, hreq, hsession, rfl, rfl⟩
    exact ⟨hsession, hinv, hreq⟩
  · rintro ⟨hsession, hinv, hreq⟩
    exact ⟨_, hinv, _, hreq, hsession, rfl, rfl⟩

def startKey (event : PersistTimelineEventInput) : Option (String × String × String) :=
  if event.type = "command.started" then requestKey event else none

def doneKey (event : PersistTimelineEventInput) : Option (String × String × String) :=
  if event.type = "command.completed" then requestKey event else none

theorem startKey_eq_some :
    startKey event = some k ↔ event.type = "command.started" ∧ requestKey event = some k := by
  rw [startKey]
  split <;> simp_all

theorem doneKey_eq_some :
    doneKey event = some k ↔ event.type = "command.completed" ∧ requestKey event = some k := by
  rw [doneKey]
  split <;> simp_all

/-- What completes a card has its key. -/
theorem doneKey_of_completes {completed requested : PersistTimelineEventInput}
    (h : completes completed requested = true) (hk : startKey requested = some k) :
    doneKey completed = some k := by
  obtain ⟨-, hk⟩ := startKey_eq_some.mp hk
  obtain ⟨hsession, hinv, hreq⟩ := requestKey_eq_some.mp hk
  simp only [completes, Bool.and_eq_true, beq_iff_eq, sqlEq_iff] at h
  obtain ⟨⟨⟨⟨hsame, htype⟩, -⟩, _, hinv', hinv''⟩, _, hreq', hreq''⟩ := h
  rw [doneKey_eq_some, requestKey_eq_some]
  refine ⟨htype, hsame.trans hsession, ?_, ?_⟩
  · rw [hinv', ← hinv'', hinv]
  · rw [hreq', ← hreq'', hreq]

/-- What is completed has the key of its completion. -/
theorem startKey_of_completes {completed requested : PersistTimelineEventInput}
    (h : completes completed requested = true) (hk : doneKey completed = some k)
    (htype : requested.type = "command.started") : startKey requested = some k := by
  obtain ⟨-, hk⟩ := doneKey_eq_some.mp hk
  obtain ⟨hsession, hinv, hreq⟩ := requestKey_eq_some.mp hk
  simp only [completes, Bool.and_eq_true, beq_iff_eq, sqlEq_iff] at h
  obtain ⟨⟨⟨⟨hsame, -⟩, -⟩, _, hinv', hinv''⟩, _, hreq', hreq''⟩ := h
  rw [startKey_eq_some, requestKey_eq_some]
  refine ⟨htype, hsame.symm.trans hsession, ?_, ?_⟩
  · rw [hinv'', ← hinv', hinv]
  · rw [hreq'', ← hreq', hreq]

/-- An event with the key and the item of a card completes it. -/
theorem completes_of_keys {completed requested : PersistTimelineEventInput} {item : Json}
    (hdone : doneKey completed = some k) (hstart : startKey requested = some k)
    (hid : jsonExtract completed.payload ["id"] = some item)
    (hid' : jsonExtract requested.payload ["id"] = some item) :
    completes completed requested = true := by
  obtain ⟨htype, hk⟩ := doneKey_eq_some.mp hdone
  obtain ⟨hsession, hinv, hreq⟩ := requestKey_eq_some.mp hk
  obtain ⟨-, hk'⟩ := startKey_eq_some.mp hstart
  obtain ⟨hsession', hinv', hreq'⟩ := requestKey_eq_some.mp hk'
  simp [completes, sqlEq, htype, hsession, hsession', hinv, hinv', hreq, hreq', hid, hid']

theorem hasDurableRequest_iff :
    hasDurableRequest events sessionId invocationId requestId = true ↔
      ∃ event ∈ events, startKey event = some (sessionId, invocationId, requestId) := by
  simp only [hasDurableRequest, List.any_eq_true, Bool.and_eq_true, beq_iff_eq, startKey_eq_some,
    requestKey_eq_some]
  exact exists_congr fun event => and_congr_right fun _ => by tauto

/-! ## The book -/

/-- The card is open. -/
def IsOpen (events : List PersistTimelineEventInput) (card : PersistTimelineEventInput) : Prop :=
  ∀ event ∈ events, completes event card = false

/-- What holds of the cards and completions of a transcript. -/
structure Book (events : List PersistTimelineEventInput) : Prop where
  /-- A request has one card. -/
  started : (events.filterMap startKey).Nodup
  /-- A card without a key cannot be completed, and one with a key has an item. -/
  named : ∀ card ∈ events, card.type = "command.started" →
    jsonExtract card.payload ["providerRequestId"] = none ∨
      (startKey card).isSome ∧ (jsonExtract card.payload ["id"]).isSome
  /-- A request is completed once. -/
  done : (events.filterMap doneKey).Nodup
  /-- A completion answers a card. -/
  answers : ∀ event ∈ events, ∀ k, doneKey event = some k →
    ∃ card ∈ events, startKey card = some k ∧ completes event card = true

namespace Book

variable {events added : List PersistTimelineEventInput}

theorem nil : Book [] := by constructor <;> simp

/-- **A card is completed at most once.** -/
theorem once (h : Book events) (hcard : card ∈ events) (htype : card.type = "command.started") :
    (events.filter fun event => completes event card).length ≤ 1 := by
  rcases h.named card hcard htype with hnone | ⟨hsome, -⟩
  · have hnil : events.filter (fun event => completes event card) = [] := by
      rw [List.filter_eq_nil_iff]
      intro event _ hcompletes
      simp [completes, sqlEq_iff, hnone] at hcompletes
    simp [hnil]
  · obtain ⟨k, hk⟩ := Option.isSome_iff_exists.mp hsome
    exact length_filter_le_one h.done fun event _ hcompletes => doneKey_of_completes hcompletes hk

/-- A request without a card has no completion. -/
theorem doneKey_ne (h : Book events) (hnew : ∀ event ∈ events, startKey event ≠ some k) :
    ∀ event ∈ events, doneKey event ≠ some k := by
  intro event he hdone
  obtain ⟨card, hcard, hstart, -⟩ := h.answers event he k hdone
  exact hnew card hcard hstart

/-- Events that are no cards, and complete open cards, each its own. -/
theorem append (h : Book events) (hstart : ∀ event ∈ added, startKey event = none)
    (hnamed : ∀ card ∈ added, card.type = "command.started" →
      jsonExtract card.payload ["providerRequestId"] = none)
    (hdone : (added.filterMap doneKey).Nodup)
    (hanswers : ∀ event ∈ added, ∀ k, doneKey event = some k →
      ∃ card ∈ events, startKey card = some k ∧ completes event card = true ∧
        IsOpen events card) : Book (events ++ added) := by
  constructor
  case started =>
    rw [List.filterMap_append, List.filterMap_eq_nil_iff.mpr hstart, List.append_nil]
    exact h.started
  case named =>
    intro card hcard htype
    rcases List.mem_append.mp hcard with hcard | hcard
    · exact h.named card hcard htype
    · exact .inl (hnamed card hcard htype)
  case done =>
    rw [List.filterMap_append]
    refine h.done.append hdone fun k hk hk' => ?_
    obtain ⟨event, he, hdone⟩ := List.mem_filterMap.mp hk
    obtain ⟨event', he', hdone'⟩ := List.mem_filterMap.mp hk'
    -- An earlier completion would have closed the card.
    obtain ⟨card, hcard, hstart, hcompletes⟩ := h.answers event he k hdone
    obtain ⟨card', hcard', hstart', -, hopen⟩ := hanswers event' he' k hdone'
    obtain rfl := eq_of_filterMap_nodup h.started hcard hcard' hstart hstart'
    simp [hopen event he] at hcompletes
  case answers =>
    intro event he k hk
    rcases List.mem_append.mp he with he | he
    · obtain ⟨card, hcard, hrest⟩ := h.answers event he k hk
      exact ⟨card, List.mem_append_left _ hcard, hrest⟩
    · obtain ⟨card, hcard, hstart, hcompletes, -⟩ := hanswers event he k hk
      exact ⟨card, List.mem_append_left _ hcard, hstart, hcompletes⟩

/-- The card of a new request. -/
theorem start (h : Book events) (hk : startKey card = some k)
    (hid : (jsonExtract card.payload ["id"]).isSome)
    (hnew : ∀ event ∈ events, startKey event ≠ some k) : Book (events ++ [card]) := by
  have htype := (startKey_eq_some.mp hk).1
  have hdone : doneKey card = none := by simp [doneKey, htype]
  constructor
  case started =>
    rw [List.filterMap_append, List.filterMap_cons_some hk]
    refine h.started.append (List.nodup_singleton _) ?_
    simpa [List.disjoint_singleton] using hnew
  case named =>
    intro card' hcard' htype'
    rcases List.mem_append.mp hcard' with hcard' | hcard'
    · exact h.named card' hcard' htype'
    · obtain rfl := List.mem_singleton.mp hcard'
      exact .inr ⟨by simp [hk], hid⟩
  case done =>
    rw [List.filterMap_append, List.filterMap_cons_none hdone]
    simpa using h.done
  case answers =>
    intro event he k' hk'
    rcases List.mem_append.mp he with he | he
    · obtain ⟨other, ho, hrest⟩ := h.answers event he k' hk'
      exact ⟨other, List.mem_append_left _ ho, hrest⟩
    · rw [List.mem_singleton.mp he, hdone] at hk'
      simp at hk'

end Book

/-! ## Events of the service -/

section Events

variable (sessionId invocationId requestId : String) (parsed : ParsedRequest)

theorem startKey_started (number : ℕ) :
    startKey (questionEvent sessionId "command.started"
      (questionStartedPayload parsed invocationId number requestId)) =
        some (sessionId, invocationId, requestId) := rfl

theorem startKey_asyncStarted :
    startKey (questionEvent sessionId "command.started"
      (asyncQuestionStartedPayload parsed invocationId requestId)) =
        some (sessionId, invocationId, requestId) := rfl

theorem doneKey_asyncCompleted :
    doneKey (questionEvent sessionId "command.completed"
      (asyncQuestionCompletedPayload parsed invocationId requestId)) =
        some (sessionId, invocationId, requestId) := rfl

theorem doneKey_completed (question : PendingQuestion) (status : String) :
    doneKey (questionEvent question.sessionId "command.completed"
      (questionCompletedPayload question status)) =
        some (question.sessionId, question.invocationId, question.providerRequestId) := rfl

/-- The fields that name a card are copied to the event that closes it. -/
theorem jsonExtract_cancelledPayload (payload : Json) {field : String}
    (h : field ∈ ["id", "providerInvocationId", "providerRequestId"]) :
    jsonExtract (cancelledPayload payload) [field] = jsonExtract payload [field] := by
  have hfield : (cancelledPayload payload).get field = some ((payload.get field).getD .null) := by
    simp only [List.mem_cons, List.not_mem_nil, or_false] at h
    rcases h with rfl | rfl | rfl <;> rfl
  rw [jsonExtract, hfield, jsonExtract]
  cases payload.get field <;> simp [jsonExtract]

theorem doneKey_cancelled (h : card.type = "command.started") :
    doneKey (questionEvent card.sessionId "command.completed" (cancelledPayload card.payload)) =
      startKey card := by
  rw [doneKey, startKey, if_pos h, questionEvent, if_pos rfl]
  simp only [requestKey, textAt]
  rw [jsonExtract_cancelledPayload _ (by simp), jsonExtract_cancelledPayload _ (by simp)]

/-- The event that closes a card completes it. -/
theorem completes_cancelled (hk : startKey card = some k)
    (hid : (jsonExtract card.payload ["id"]).isSome) :
    completes (questionEvent card.sessionId "command.completed" (cancelledPayload card.payload))
      card = true := by
  obtain ⟨item, hitem⟩ := Option.isSome_iff_exists.mp hid
  refine completes_of_keys ((doneKey_cancelled (startKey_eq_some.mp hk).1).trans hk) hk ?_ hitem
  rw [questionEvent, jsonExtract_cancelledPayload _ (by simp), hitem]

end Events

/-! ## The invariant -/

/-- The request that a responder waits for. -/
def PendingQuestion.request (question : PendingQuestion) : String × String × String :=
  (question.sessionId, question.invocationId, question.providerRequestId)

/-- The responder has an open card. -/
structure Waits (events : List PersistTimelineEventInput) (question : PendingQuestion) : Prop where
  card : ∃ card ∈ events, startKey card = some question.request ∧
    jsonExtract card.payload ["id"] = some (.string question.itemId)
  unanswered : ∀ event ∈ events, doneKey event ≠ some question.request

/-- What every state that is reached satisfies. -/
structure Inv (s : State) : Prop where
  book : Book s.db.events
  waits : ∀ question ∈ s.pending, Waits s.db.events question
  distinct : ∀ question ∈ s.pending, ∀ other ∈ s.pending,
    other.request = question.request → other = question
  ids : ∀ question ∈ s.pending, question.requestId < s.requestIds
  answeredIds : ∀ answer ∈ s.answered, answer.1.2 < s.requestIds
  /-- Who was answered does not wait. -/
  gone : ∀ answer ∈ s.answered, ∀ question ∈ s.pending, question.key ≠ answer.1
  once : (s.answered.map (·.1)).Nodup

theorem inv_start (sessions : Table SessionRow.id) (workspaces : Table WorkspaceRow.id) :
    Inv (.start sessions workspaces) := by
  constructor
  case book => exact .nil
  all_goals simp [State.start]

theorem Waits.append {added : List PersistTimelineEventInput} (h : Waits events question)
    (hadded : ∀ event ∈ added, doneKey event ≠ some question.request) :
    Waits (events ++ added) question := by
  obtain ⟨card, hcard, hrest⟩ := h.card
  refine ⟨⟨card, List.mem_append_left _ hcard, hrest⟩, fun event he => ?_⟩
  rcases List.mem_append.mp he with he | he
  · exact h.unanswered event he
  · exact hadded event he

/-- The card of a responder is open. -/
theorem Waits.open (h : Waits events question) (hstart : startKey card = some question.request) :
    IsOpen events card := by
  intro event he
  rw [← Bool.not_eq_true]
  exact fun hcompletes => h.unanswered event he (doneKey_of_completes hcompletes hstart)

/-- Responders go or hang up, and those that stay wait for their cards. -/
theorem inv_of_pending (h : Inv s) (hbook : Book s'.db.events)
    (hpending : ∀ question ∈ s'.pending, Waits s'.db.events question ∧ ∃ before ∈ s.pending,
      before.key = question.key ∧ before.request = question.request)
    (hids : s'.requestIds = s.requestIds) (hanswered : s'.answered = s.answered) : Inv s' := by
  constructor
  case book => exact hbook
  case waits => exact fun question hq => (hpending question hq).1
  case distinct =>
    intro question hq other ho heq
    obtain ⟨-, before, hb, hkey, hrequest⟩ := hpending question hq
    obtain ⟨-, before', hb', hkey', hrequest'⟩ := hpending other ho
    have hsame := h.distinct before hb before' hb' (by rw [hrequest, hrequest', heq])
    exact Table.eq_of_key ho hq (by rw [← hkey', hsame, hkey])
  case ids =>
    intro question hq
    obtain ⟨-, before, hb, hkey, -⟩ := hpending question hq
    have hid : before.requestId = question.requestId := congrArg Prod.snd hkey
    exact hids ▸ hid ▸ h.ids before hb
  case answeredIds => exact hanswered ▸ hids ▸ h.answeredIds
  case gone =>
    rw [hanswered]
    intro answer ha question hq
    obtain ⟨-, before, hb, hkey, -⟩ := hpending question hq
    exact hkey ▸ h.gone answer ha before hb
  case once => exact hanswered ▸ h.once

/-! ## Acts -/

section

variable {hasOutstandingCardAsk : List PersistTimelineEventInput → String → Bool}

theorem checkRequest_eq_ok {db : Database}
    (h : checkRequest db sessionId invocationId requestId = .ok ()) :
    ∀ event ∈ db.events, startKey event ≠ some (sessionId, invocationId, requestId) := by
  obtain ⟨current, -, h⟩ := ArgmaxResult.bind_eq_ok.mp h
  split at h
  · simp at h
  split at h
  · simp at h
  · rename_i hnew
    intro event he hk
    exact hnew (hasDurableRequest_iff.mpr ⟨event, he, hk⟩)

theorem inv_registerNative (h : Inv s) {parsed : ParsedRequest}
    (hok : registerNative hasOutstandingCardAsk fault s sessionId invocationId requestId parsed =
      .ok s') : Inv s' ∧ s'.answered = s.answered ∧
        ∀ session ∈ s'.db.sessions, session.state = .running → session ∈ s.db.sessions := by
  obtain ⟨_, -, hok⟩ := ArgmaxResult.bind_eq_ok.mp hok
  obtain ⟨_, hcheck, hok⟩ := ArgmaxResult.bind_eq_ok.mp hok
  obtain ⟨⟨session, db⟩, hupdate, hok⟩ := ArgmaxResult.bind_eq_ok.mp hok
  obtain ⟨_, -, hok⟩ := ArgmaxResult.bind_eq_ok.mp hok
  obtain rfl := Except.ok.inj hok
  obtain ⟨-, hevents, -⟩ := Database.updateSessionState_keeps hupdate
  have hnew := checkRequest_eq_ok hcheck
  have hkey := startKey_started sessionId invocationId requestId parsed s.requestIds
  refine ⟨?_, rfl, ?_⟩
  · have hbook := h.book.start hkey rfl hnew
    have hold : ∀ {question : PendingQuestion}, question ∈ s.pending →
        question.request ≠ (sessionId, invocationId, requestId) := by
      intro question hq heq
      obtain ⟨card, hcard, hstart, -⟩ := (h.waits question hq).card
      exact hnew card hcard (heq ▸ hstart)
    have hmem : ∀ {question : PendingQuestion}, question ∈ s.pending.put
        ⟨sessionId, invocationId, s.requestIds, requestId, parsed.itemId, parsed.provider,
          parsed.questions, false⟩ →
        question = ⟨sessionId, invocationId, s.requestIds, requestId, parsed.itemId,
          parsed.provider, parsed.questions, false⟩ ∨ question ∈ s.pending := fun hq =>
      (Table.mem_put.mp hq).imp_right And.left
    constructor
    case book =>
      rw [hevents]
      exact hbook
    case waits =>
      rw [hevents]
      intro question hq
      rcases hmem hq with rfl | hq
      · refine ⟨⟨_, List.mem_append_right _ (List.mem_singleton_self _), hkey, rfl⟩, ?_⟩
        intro event he hdone
        rcases List.mem_append.mp he with he | he
        · exact h.book.doneKey_ne hnew event he hdone
        · rw [List.mem_singleton.mp he] at hdone
          simp [doneKey, questionEvent] at hdone
      · refine (h.waits question hq).append fun event he hdone => ?_
        rw [List.mem_singleton.mp he] at hdone
        simp [doneKey, questionEvent] at hdone
    case distinct =>
      intro question hq other ho heq
      rcases hmem hq with rfl | hq <;> rcases hmem ho with rfl | ho
      · rfl
      · exact absurd heq (hold ho)
      · exact absurd heq.symm (hold hq)
      · exact h.distinct question hq other ho heq
    case ids =>
      intro question hq
      rcases hmem hq with rfl | hq
      · exact Nat.lt_succ_self _
      · exact Nat.lt_succ_of_lt (h.ids question hq)
    case answeredIds => exact fun answer ha => Nat.lt_succ_of_lt (h.answeredIds answer ha)
    case gone =>
      intro answer ha question hq heq
      rcases hmem hq with rfl | hq
      · have hlt := h.answeredIds answer ha
        rw [← heq] at hlt
        exact absurd hlt (Nat.lt_irrefl _)
      · exact h.gone answer ha question hq heq
    case once => exact h.once
  · -- A session with a new question waits.
    intro row hrow hrunning
    rcases Database.mem_sessions_updateSessionState hupdate row hrow with hold | ⟨-, hstate⟩
    · exact hold
    · rw [hstate] at hrunning
      split at hrunning <;>
        simp [SessionStateInput.withBlockingQuestion, SessionStateInput.withPendingApproval,
          SessionStateInput.transition] at hrunning

theorem inv_recordAsync (h : Inv s) {parsed : ParsedRequest}
    (hok : recordAsync fault s sessionId invocationId requestId parsed = .ok s') :
    Inv s' ∧ s'.answered = s.answered ∧ s'.db.sessions = s.db.sessions := by
  obtain ⟨_, -, hok⟩ := ArgmaxResult.bind_eq_ok.mp hok
  obtain ⟨_, hcheck, hok⟩ := ArgmaxResult.bind_eq_ok.mp hok
  obtain ⟨_, -, hok⟩ := ArgmaxResult.bind_eq_ok.mp hok
  obtain rfl := Except.ok.inj hok
  have hnew := checkRequest_eq_ok hcheck
  have hkey := startKey_asyncStarted sessionId invocationId requestId parsed
  have hdone := doneKey_asyncCompleted sessionId invocationId requestId parsed
  refine ⟨inv_of_pending h ?_ (fun question hq => ⟨?_, question, hq, rfl, rfl⟩) rfl rfl, rfl, rfl⟩
  · -- The card first, and then its completion.
    have hbook : Book (_ ++ [questionEvent sessionId "command.completed"
        (asyncQuestionCompletedPayload parsed invocationId requestId)]) :=
      (h.book.start hkey rfl hnew).append (by simp [startKey, questionEvent])
        (by simp [questionEvent]) (by simp [List.filterMap_cons_some hdone]) ?_
    · simpa using hbook
    intro event he k hk
    rw [List.mem_singleton.mp he] at hk
    obtain rfl := Option.some.inj hk
    obtain rfl := List.mem_singleton.mp he
    refine ⟨_, List.mem_append_right _ (List.mem_singleton_self _), hkey,
      completes_of_keys hdone hkey rfl rfl, fun event he => ?_⟩
    rw [← Bool.not_eq_true]
    intro hcompletes
    have hdone' := doneKey_of_completes hcompletes hkey
    rcases List.mem_append.mp he with he | he
    · exact h.book.doneKey_ne hnew event he hdone'
    · rw [List.mem_singleton.mp he] at hdone'
      simp [doneKey, questionEvent] at hdone'
  · refine (h.waits question hq).append fun event he hdone' => ?_
    obtain ⟨card, hcard, hstart, -⟩ := (h.waits question hq).card
    simp only [List.mem_cons, List.not_mem_nil, or_false] at he
    rcases he with rfl | rfl
    · simp [doneKey, questionEvent] at hdone'
    · exact hnew card hcard (hdone.symm.trans hdone' ▸ hstart)

/-- The event with which `resolve` completes a card. -/
def completedEvent (question : PendingQuestion) (dismissed : Bool) : PersistTimelineEventInput :=
  questionEvent question.sessionId "command.completed"
    (questionCompletedPayload question (if dismissed then "dismissed" else "completed"))

theorem doneKey_completedEvent (question : PendingQuestion) (dismissed : Bool) :
    doneKey (completedEvent question dismissed) = some question.request :=
  doneKey_completed question _

/-- No call of the store failed. -/
theorem fault_eq_none {u v : Unit} (hread : attempt fault .read = .ok u)
    (hcommit : attempt fault .commit = .ok v) : fault = none := by
  rw [attempt_eq_ok] at hread hcommit
  cases fault with
  | none => rfl
  | some call => cases call <;> simp_all

theorem resolveCard_eq_ok {dismissed : Bool} {db : Database}
    (h : resolveCard hasOutstandingCardAsk fault s question dismissed = .ok db) :
    fault = none ∧ db.events = s.db.events ++ [completedEvent question dismissed] ∧
      db.approvals = s.db.approvals ∧
      ∃ current, s.db.findSessionById question.sessionId = .ok current ∧
        (Resumes s question current →
          ∃ session ∈ db.sessions, session.id = question.sessionId ∧ session.state = .running) ∧
        ∀ session ∈ db.sessions, session.state = .running → session ∈ s.db.sessions ∨
          session.id = question.sessionId ∧ Resumes s question current := by
  obtain ⟨_, hread, h⟩ := ArgmaxResult.bind_eq_ok.mp h
  obtain ⟨current, hcurrent, h⟩ := ArgmaxResult.bind_eq_ok.mp h
  split at h
  · simp at h
  dsimp only at h
  split at h
  · rename_i hresumes
    obtain ⟨updated, hupdated, h⟩ := ArgmaxResult.bind_eq_ok.mp h
    obtain ⟨_, hcommit, h⟩ := ArgmaxResult.bind_eq_ok.mp h
    obtain rfl := Except.ok.inj h
    refine ⟨fault_eq_none hread hcommit, ?_⟩
    obtain ⟨⟨session, db⟩, hupdate, rfl⟩ := ArgmaxResult.map_eq_ok.mp hupdated
    obtain ⟨happrovals, hevents, -⟩ := Database.updateSessionState_keeps hupdate
    obtain ⟨-, hstate, -⟩ := Database.updateSessionState_eq_ok hupdate
    refine ⟨hevents, happrovals, current, hcurrent, fun _ => ?_, fun row hrow _ => ?_⟩
    · obtain ⟨found, hfound, hrest⟩ := ArgmaxResult.bind_eq_ok.mp hupdate
      obtain ⟨rfl, rfl⟩ := Prod.mk.inj (Except.ok.inj hrest)
      obtain ⟨hmem, hid⟩ := Database.findSessionById_eq_ok.mp hfound
      exact ⟨_, hmem, hid, hstate⟩
    · exact (Database.mem_sessions_updateSessionState hupdate row hrow).imp_right fun hr =>
        ⟨hr.1, hresumes⟩
  · rename_i hresumes
    obtain ⟨updated, hupdated, h⟩ := ArgmaxResult.bind_eq_ok.mp h
    obtain ⟨_, hcommit, h⟩ := ArgmaxResult.bind_eq_ok.mp h
    obtain rfl := Except.ok.inj h
    obtain rfl := Except.ok.inj hupdated
    exact ⟨fault_eq_none hread hcommit, rfl, rfl, current, hcurrent, fun h => absurd h hresumes, fun row hrow _ => .inl hrow⟩

theorem resolve_eq_ok {requestId : ℕ} {answers : Answers} {dismissed : Bool}
    (h : resolve hasOutstandingCardAsk fault s sessionId requestId answers dismissed = .ok s') :
    ∃ question db, s.pending.find? (sessionId, requestId) = some question ∧
      question.isClosed = false ∧ validateAnswers question.questions answers dismissed = .ok () ∧
      resolveCard hasOutstandingCardAsk fault s question dismissed = .ok db ∧
      s' = { s with
        db := db
        pending := s.pending.delete fun other => other.key == question.key
        answered := (question.key, response answers dismissed) :: s.answered } := by
  rw [resolve] at h
  cases hfind : s.pending.find? (sessionId, requestId) with
  | none => simp [hfind] at h
  | some question =>
    simp only [hfind] at h
    split at h
    · simp at h
    rename_i hopen
    obtain ⟨_, hvalid, h⟩ := ArgmaxResult.bind_eq_ok.mp h
    obtain ⟨db, hdb, h⟩ := ArgmaxResult.bind_eq_ok.mp h
    exact ⟨question, db, rfl, by simpa using hopen, hvalid, hdb, (Except.ok.inj h).symm⟩

/-- The completion of a card whose responder waits. -/
theorem Book.complete (h : Book events) (hwaits : Waits events question) (dismissed : Bool) :
    Book (events ++ [completedEvent question dismissed]) := by
  have hdone := doneKey_completedEvent question dismissed
  obtain ⟨card, hcard, hstart, hid⟩ := hwaits.card
  refine h.append (by simp [startKey, completedEvent, questionEvent])
    (by simp [completedEvent, questionEvent]) (by simp [List.filterMap_cons_some hdone]) ?_
  intro event he k hk
  obtain rfl := List.mem_singleton.mp he
  obtain rfl := Option.some.inj (hdone.symm.trans hk)
  exact ⟨card, hcard, hstart, completes_of_keys hdone hstart rfl hid, hwaits.open hstart⟩

theorem inv_resolve (h : Inv s) {requestId : ℕ} {answers : Answers} {dismissed : Bool}
    (hok : resolve hasOutstandingCardAsk fault s sessionId requestId answers dismissed = .ok s') :
    Inv s' ∧ ∃ question ∈ s.pending, ∃ answer, s'.answered = (question.key, answer) :: s.answered ∧
      s'.db.events = s.db.events ++ [completedEvent question dismissed] := by
  obtain ⟨question, db, hfind, -, -, hcard, rfl⟩ := resolve_eq_ok hok
  obtain ⟨-, hevents, -⟩ := resolveCard_eq_ok hcard
  obtain ⟨hmem, -⟩ := Table.find?_eq_some.mp hfind
  have hwaits := h.waits question hmem
  refine ⟨?_, question, hmem, _, rfl, hevents⟩
  have hrest : ∀ {other : PendingQuestion}, other ∈ s.pending.delete (fun other => other.key == question.key) →
      other ∈ s.pending ∧ other.key ≠ question.key := by
    simp
  have hbase : Inv { s with
      db := db, pending := s.pending.delete fun other => other.key == question.key } := by
    refine inv_of_pending h ?_ (fun other ho => ⟨?_, other, (hrest ho).1, rfl, rfl⟩) rfl rfl
    · rw [hevents]
      exact h.book.complete hwaits dismissed
    · rw [hevents]
      refine (h.waits other (hrest ho).1).append fun event he hdone => ?_
      rw [List.mem_singleton.mp he] at hdone
      -- Another responder waits for another request.
      have hsame := h.distinct other (hrest ho).1 question hmem (Option.some.inj hdone)
      exact (hrest ho).2 (congrArg PendingQuestion.key hsame).symm
  exact
    { book := hbase.book
      waits := hbase.waits
      distinct := hbase.distinct
      ids := hbase.ids
      answeredIds := List.forall_mem_cons.mpr ⟨h.ids question hmem, h.answeredIds⟩
      gone := List.forall_mem_cons.mpr ⟨fun other ho => (hrest ho).2, hbase.gone⟩
      once := by
        rw [List.map_cons, List.nodup_cons]
        refine ⟨fun hin => ?_, h.once⟩
        obtain ⟨answer, ha, heq⟩ := List.mem_map.mp hin
        exact h.gone answer ha question hmem heq.symm }

/-- The transaction of a cancellation fails. -/
def CloseFails (fault : Option Call) (db : Database) (sessionId : String) : Prop :=
  fault = some .read ∨ listDurablePending db.events sessionId ≠ [] ∧
    (fault = some .commit ∨ sessionId ∉ db.sessions.rows.map (·.id))

/-- The events with which a cancellation closes the open cards. -/
def closingEvents (events : List PersistTimelineEventInput) (sessionId : String) :
    List PersistTimelineEventInput :=
  (listDurablePending events sessionId).map fun payload =>
    questionEvent sessionId "command.completed" (cancelledPayload payload)

theorem closeCards_cases (fault : Option Call) (db : Database) (sessionId : String) :
    (CloseFails fault db sessionId ∧ ∃ error,
      closeCards hasOutstandingCardAsk fault db sessionId = .error error) ∨
    (¬ CloseFails fault db sessionId ∧ ∃ db',
      closeCards hasOutstandingCardAsk fault db sessionId = .ok db' ∧
      db'.events = db.events ++ closingEvents db.events sessionId ∧
      ∀ session ∈ db'.sessions, ∃ before ∈ db.sessions, before.id = session.id ∧
        before.state = session.state) := by
  rw [closeCards]
  by_cases hread : fault = some .read
  · rw [attempt, if_pos hread]
    exact .inl ⟨.inl hread, _, rfl⟩
  rw [attempt, if_neg hread]
  simp only [bind, Except.bind]
  by_cases hnil : listDurablePending db.events sessionId = []
  · rw [if_pos hnil]
    refine .inr ⟨by simp [CloseFails, hread, hnil], db, rfl, by simp [closingEvents, hnil], ?_⟩
    exact fun session hs => ⟨session, hs, rfl, rfl⟩
  rw [if_neg hnil]
  cases hfind : db.sessions.find? sessionId with
  | none =>
    have hgone : sessionId ∉ db.sessions.rows.map (·.id) := by
      intro hmem
      obtain ⟨session, hsession, hid⟩ := List.mem_map.mp hmem
      exact Table.find?_eq_none.mp hfind session hsession hid
    simp only [Database.findSessionById, hfind]
    exact .inl ⟨.inr ⟨hnil, .inr hgone⟩, _, rfl⟩
  | some current =>
    obtain ⟨hcurrent, hid⟩ := Table.find?_eq_some.mp hfind
    have hthere : sessionId ∈ db.sessions.rows.map (·.id) :=
      List.mem_map.mpr ⟨current, hcurrent, hid⟩
    simp only [Database.findSessionById, hfind]
    cases hupdate : Database.updateSessionState
        { db with events := db.events ++ closingEvents db.events sessionId } hasOutstandingCardAsk
        sessionId (.transition current.state) with
    | error error =>
      -- The session is there, so its row is found again.
      rw [Database.updateSessionState] at hupdate
      simp [bind, Except.bind, Database.findSessionById, hfind, pure, Except.pure] at hupdate
    | ok written =>
      obtain ⟨session, db'⟩ := written
      obtain ⟨-, hevents, -⟩ := Database.updateSessionState_keeps hupdate
      rw [closingEvents] at hupdate
      rw [hupdate]
      by_cases hcommit : fault = some .commit
      · rw [attempt, if_pos hcommit]
        exact .inl ⟨.inr ⟨hnil, .inl hcommit⟩, _, rfl⟩
      · rw [attempt, if_neg hcommit]
        refine .inr ⟨?_, db', rfl, hevents, fun row hrow => ?_⟩
        · rintro (h | ⟨-, h | h⟩)
          · exact hread h
          · exact hcommit h
          · exact h hthere
        · rcases Database.mem_sessions_updateSessionState hupdate row hrow with hold | ⟨hid', hstate⟩
          · exact ⟨row, hold, rfl, rfl⟩
          · exact ⟨current, hcurrent, hid.trans hid'.symm, hstate.symm⟩

/-- A cancellation closes the open cards of its session. -/
theorem book_closingEvents (h : Book events) (sessionId : String) :
    Book (events ++ closingEvents events sessionId) ∧
      ∀ event ∈ closingEvents events sessionId, ∀ k, doneKey event = some k → k.1 = sessionId := by
  have hcards : ∀ event ∈ closingEvents events sessionId, ∃ card ∈ events,
      card.sessionId = sessionId ∧ card.type = "command.started" ∧ IsOpen events card ∧
      event = questionEvent card.sessionId "command.completed" (cancelledPayload card.payload) := by
    intro event he
    simp only [closingEvents, listDurablePending, List.map_map, List.mem_map, List.mem_filter,
      Bool.and_eq_true, beq_iff_eq, isCard, Bool.not_eq_true', List.any_eq_false,
      Bool.not_eq_true] at he
    obtain ⟨card, ⟨hcard, ⟨hsession, htype, -⟩, hopen⟩, rfl⟩ := he
    exact ⟨card, hcard, hsession, htype, hopen, by rw [hsession]; rfl⟩
  refine ⟨h.append ?_ ?_ ?_ ?_, ?_⟩
  · intro event he
    obtain ⟨card, -, -, -, -, rfl⟩ := hcards event he
    simp [startKey, questionEvent]
  · intro event he htype
    obtain ⟨card, -, -, -, -, rfl⟩ := hcards event he
    simp [questionEvent] at htype
  · -- Each closing event has the key of its card.
    have hkeys : (closingEvents events sessionId).filterMap doneKey =
        (events.filter fun requested => requested.sessionId == sessionId && isCard requested &&
          !events.any fun completed => completes completed requested).filterMap startKey := by
      rw [closingEvents, listDurablePending, List.map_map, List.filterMap_map]
      refine List.filterMap_congr fun card hcard => ?_
      simp only [List.mem_filter, Bool.and_eq_true, beq_iff_eq, isCard] at hcard
      rw [← hcard.2.1.1]
      exact doneKey_cancelled hcard.2.1.2.1
    rw [hkeys]
    exact h.started.sublist (List.filter_sublist.filterMap _)
  · intro event he k hk
    obtain ⟨card, hcard, -, htype, hopen, rfl⟩ := hcards event he
    rw [doneKey_cancelled htype] at hk
    refine ⟨card, hcard, hk, completes_cancelled hk ?_, hopen⟩
    rcases h.named card hcard htype with hnone | ⟨-, hid⟩
    · have hreq := (requestKey_eq_some.mp (startKey_eq_some.mp hk).2).2.2
      simp [hnone] at hreq
    · exact hid
  · intro event he k hk
    obtain ⟨card, -, hsession, htype, -, rfl⟩ := hcards event he
    exact (requestKey_eq_some.mp (doneKey_eq_some.mp hk).2).1.symm.trans hsession

theorem inv_of_subset (h : Inv s) (pending : Table PendingQuestion.key)
    (hpending : ∀ question ∈ pending, question ∈ s.pending) : Inv { s with pending := pending } :=
  inv_of_pending h h.book
    (fun question hq => ⟨h.waits question (hpending question hq), question, hpending question hq,
      rfl, rfl⟩) rfl rfl

theorem inv_cancelSessionPending {s : State} (h : Inv s) (fault : Option Call)
    (sessionId : String) :
    Inv (cancelSessionPending hasOutstandingCardAsk fault s sessionId).2 ∧
      (cancelSessionPending hasOutstandingCardAsk fault s sessionId).2.answered = s.answered ∧
      ∀ session ∈ (cancelSessionPending hasOutstandingCardAsk fault s sessionId).2.db.sessions,
        ∃ before ∈ s.db.sessions, before.id = session.id ∧ before.state = session.state := by
  have hmem : ∀ {question : PendingQuestion},
      question ∈ s.pending.delete (fun question => question.sessionId == sessionId) →
      question ∈ s.pending ∧ question.sessionId ≠ sessionId := by
    simp
  have hdrop := inv_of_subset h (s.pending.delete fun question => question.sessionId == sessionId)
    fun question hq => (hmem hq).1
  rw [cancelSessionPending]
  rcases @closeCards_cases hasOutstandingCardAsk fault s.db sessionId with
    ⟨-, error, heq⟩ | ⟨-, db, heq, hevents, hsessions⟩
  · simp only [heq]
    exact ⟨hdrop, trivial, fun session hs => ⟨session, hs, rfl, rfl⟩⟩
  · simp only [heq]
    obtain ⟨hbook, hkeys⟩ := book_closingEvents h.book sessionId
    refine ⟨inv_of_pending hdrop (by simpa only [hevents] using hbook)
      (fun question hq => ⟨?_, question, hq, rfl, rfl⟩) rfl rfl, trivial, hsessions⟩
    simp only [hevents]
    exact (h.waits question (hmem hq).1).append fun event he hdone =>
      (hmem hq).2 (hkeys event he _ hdone)

/-- **A cancellation that fails leaves everything**, unless it dropped a responder. -/
theorem kept_cancelSessionPending (s : State) (fault : Option Call) (sessionId : String) :
    (∀ error, (cancelSessionPending hasOutstandingCardAsk fault s sessionId).1 = .error error →
      (cancelSessionPending hasOutstandingCardAsk fault s sessionId).2 = s) ↔
    (CloseFails fault s.db sessionId → ∀ question ∈ s.pending, question.sessionId ≠ sessionId) := by
  have hsame : { s with
      pending := s.pending.delete fun question => question.sessionId == sessionId } = s ↔
      ∀ question ∈ s.pending, question.sessionId ≠ sessionId := by
    have hdelete := Table.delete_eq_self (t := s.pending)
      (p := fun question => question.sessionId == sessionId)
    simp only [beq_eq_false_iff_ne] at hdelete
    rw [← hdelete]
    exact ⟨fun heq => congrArg State.pending heq, fun heq => by rw [heq]⟩
  rw [cancelSessionPending]
  rcases @closeCards_cases hasOutstandingCardAsk fault s.db sessionId with
    ⟨hfails, error, heq⟩ | ⟨hgoes, db, heq, -⟩
  · simp [heq, hfails, hsame]
  · simp [heq, hgoes]

end

/-! ## Every act -/

section

variable (hasOutstandingCardAsk : List PersistTimelineEventInput → String → Bool)

/-- Other code does not act through the service. -/
def Act.isOperation : Act → Bool
  | .write _ _ _ _ => false
  | _ => true

/-- What every act owes. -/
structure Sound (s : State) (act : Act) : Prop where
  /-- Who is told of an error finds the responders and the database as they were. -/
  kept : ∀ error, (perform hasOutstandingCardAsk s act).1 = .error error →
    step hasOutstandingCardAsk s act = s
  /-- A card is completed at most once. -/
  completed : ∀ card ∈ (step hasOutstandingCardAsk s act).db.events,
    card.type = "command.started" →
      ((step hasOutstandingCardAsk s act).db.events.filter fun event =>
        completes event card).length ≤ 1
  /-- No provider is answered twice. -/
  once : ((step hasOutstandingCardAsk s act).answered.map (·.1)).Nodup
  /-- A provider is answered when the completion of its card is committed. -/
  answered : (step hasOutstandingCardAsk s act).answered = s.answered ∨
    ∃ question ∈ s.pending, ∃ answer dismissed,
      (step hasOutstandingCardAsk s act).answered = (question.key, answer) :: s.answered ∧
      (step hasOutstandingCardAsk s act).db.events =
        s.db.events ++ [completedEvent question dismissed]
  /-- A request that is known is refused. -/
  repeated : ∀ fault sessionId invocationId requestId parsed,
    act = .requestNative fault sessionId invocationId requestId parsed →
    hasDurableRequest s.db.events sessionId invocationId requestId = true →
      (perform hasOutstandingCardAsk s act).1 ≠ .ok () ∧ step hasOutstandingCardAsk s act = s
  /-- The service lets a session run when nothing of it is pending. -/
  resumes : act.isOperation = true → ∀ session ∈ (step hasOutstandingCardAsk s act).db.sessions,
    session.state = .running →
      (∃ before ∈ s.db.sessions, before.id = session.id ∧ before.state = .running) ∨
        Settled (step hasOutstandingCardAsk s act).db session.id

/-- A cancellation that fails has no responder to drop, and an answer that lets a session run
leaves no card open. -/
def Harmless (s : State) : Act → Prop
  | .resolve fault sessionId requestId answers dismissed =>
    ∀ question, s.pending.find? (sessionId, requestId) = some question → question.isClosed = false →
      validateAnswers question.questions answers dismissed = .ok () → fault = none →
      ∀ current, s.db.findSessionById sessionId = .ok current → Resumes s question current →
        ∀ card ∈ s.db.events, card.sessionId = sessionId → isCard card = true →
          IsOpen s.db.events card → startKey card = some question.request
  | .cancelSessionPending fault sessionId =>
    CloseFails fault s.db sessionId → ∀ question ∈ s.pending, question.sessionId ≠ sessionId
  | _ => True

theorem committed_error {result : ArgmaxResult State} {error : ArgmaxError}
    (h : (committed s result).1 = .error error) : (committed s result).2 = s := by
  cases result with
  | ok after => simp [committed] at h
  | error _ => rfl

/-- Whatever a request comes to. -/
theorem inv_requestNative (h : Inv s) {parsed : ParsedRequest}
    (hok : requestNative hasOutstandingCardAsk fault s sessionId invocationId requestId parsed =
      .ok s') : Inv s' ∧ s'.answered = s.answered ∧
        ∀ session ∈ s'.db.sessions, session.state = .running → session ∈ s.db.sessions := by
  rw [requestNative] at hok
  split at hok
  · exact inv_registerNative h hok
  · obtain ⟨hinv, hanswered, hsessions⟩ := inv_recordAsync h hok
    exact ⟨hinv, hanswered, fun session hs _ => hsessions ▸ hs⟩

/-- A request that is known is refused. -/
theorem requestNative_of_known
    (h : hasDurableRequest s.db.events sessionId invocationId requestId = true)
    (fault : Option Call) (parsed : ParsedRequest) (s' : State) :
    requestNative hasOutstandingCardAsk fault s sessionId invocationId requestId parsed ≠ .ok s' := by
  obtain ⟨event, he, hk⟩ := hasDurableRequest_iff.mp h
  intro hok
  have hcheck : checkRequest s.db sessionId invocationId requestId = .ok () := by
    rw [requestNative] at hok
    split at hok
    all_goals
      obtain ⟨_, -, hok⟩ := ArgmaxResult.bind_eq_ok.mp hok
      obtain ⟨_, hcheck, -⟩ := ArgmaxResult.bind_eq_ok.mp hok
      exact hcheck
  exact checkRequest_eq_ok hcheck event he hk

/-- A transaction of `resolve` that no call fails. -/
theorem resolveCard_of_session {s : State} {question : PendingQuestion} {current : SessionRow}
    (hcurrent : s.db.findSessionById question.sessionId = .ok current)
    (hlive : current.state.isLive = true) (dismissed : Bool) :
    ∃ db, resolveCard hasOutstandingCardAsk none s question dismissed = .ok db := by
  obtain ⟨hmem, hid⟩ := Database.findSessionById_eq_ok.mp hcurrent
  have hfind : s.db.sessions.find? question.sessionId = some current :=
    Table.find?_eq_some.mpr ⟨hmem, hid⟩
  rw [resolveCard]
  simp only [attempt_none, bind, Except.bind, hcurrent, hlive, Bool.not_true, Bool.false_eq_true,
    if_false]
  split
  · simp only [Database.updateSessionState, Database.findSessionById, Table.find?_update, hfind]
    exact ⟨_, rfl⟩
  · exact ⟨_, rfl⟩

/-- An answer that lets its session run leaves no card open, or is not taken. -/
theorem resumes_resolve_iff (h : Inv s) (fault : Option Call) (sessionId : String) (requestId : ℕ)
    (answers : Answers) (dismissed : Bool) :
    (∀ s', resolve hasOutstandingCardAsk fault s sessionId requestId answers dismissed = .ok s' →
      ∀ session ∈ s'.db.sessions, session.state = .running →
        (∃ before ∈ s.db.sessions, before.id = session.id ∧ before.state = .running) ∨
          Settled s'.db session.id) ↔
    Harmless s (.resolve fault sessionId requestId answers dismissed) := by
  constructor
  · intro hsound question hfind hopen hvalid hfault current hcurrent hresumes card hcard hsession
      hisCard hisOpen
    subst hfault
    obtain ⟨hmem, hkey⟩ := Table.find?_eq_some.mp hfind
    have howner : question.sessionId = sessionId := congrArg Prod.fst hkey
    subst howner
    have hlive : current.state.isLive = true := by rw [hresumes.1]; rfl
    obtain ⟨db, hdb⟩ := @resolveCard_of_session hasOutstandingCardAsk _ _ _ hcurrent hlive dismissed
    have hok : resolve hasOutstandingCardAsk none s question.sessionId requestId answers dismissed =
        .ok { s with
          db := db
          pending := s.pending.delete fun other => other.key == question.key
          answered := (question.key, response answers dismissed) :: s.answered } := by
      rw [resolve]
      simp only [hfind, hopen, hvalid, hdb]
      rfl
    obtain ⟨-, hevents, -, current', hcurrent', hrun, -⟩ := resolveCard_eq_ok hdb
    obtain rfl := Except.ok.inj (hcurrent.symm.trans hcurrent')
    obtain ⟨session, hs, hid, hrunning⟩ := hrun hresumes
    rcases hsound _ hok session hs hrunning with ⟨before, hbefore, hbid, hstate⟩ | hsettled
    · -- The session waited before.
      obtain ⟨hcur, hcurid⟩ := Database.findSessionById_eq_ok.mp hcurrent
      rw [Table.eq_of_key hbefore hcur (by rw [hbid, hid, hcurid]), hresumes.1] at hstate
      simp at hstate
    · obtain ⟨event, he, hcompletes⟩ := hasDurablePending_eq_false.mp hsettled.2 card
        (by rw [hevents]; exact List.mem_append_left _ hcard) (hsession.trans hid.symm) hisCard
      rw [hevents, List.mem_append, List.mem_singleton] at he
      rcases he with he | rfl
      · simp [hisOpen event he] at hcompletes
      · simp only [isCard, Bool.and_eq_true, beq_iff_eq] at hisCard
        exact startKey_of_completes hcompletes (doneKey_completedEvent _ _) hisCard.1
  · intro hharmless s' hok session hs hrunning
    obtain ⟨question, db, hfind, hopen, hvalid, hdb, rfl⟩ := resolve_eq_ok hok
    obtain ⟨hmem, hkey⟩ := Table.find?_eq_some.mp hfind
    have howner : question.sessionId = sessionId := congrArg Prod.fst hkey
    subst howner
    obtain ⟨hfault, hevents, happrovals, current, hcurrent, -, hsessions⟩ := resolveCard_eq_ok hdb
    rcases hsessions session hs hrunning with hold | ⟨hid, hresumes⟩
    · exact .inl ⟨session, hold, rfl, hrunning⟩
    · refine .inr ⟨?_, hasDurablePending_eq_false.mpr fun card hcard hsession hisCard => ?_⟩
      · rw [Database.listApprovalsForSession, happrovals, hid]
        exact hresumes.2.2
      · dsimp only at hcard ⊢
        rw [hevents] at hcard ⊢
        have hstarted : card.type = "command.started" := by
          simp only [isCard, Bool.and_eq_true, beq_iff_eq] at hisCard
          exact hisCard.1
        rcases List.mem_append.mp hcard with hcard | hcard
        · by_cases hisOpen : IsOpen s.db.events card
          · -- The only open card is the one that is answered.
            have hstart := hharmless question hfind hopen hvalid hfault current hcurrent hresumes
              card hcard (hsession.trans hid) hisCard hisOpen
            obtain ⟨own, hown, hstart', hitem⟩ := (h.waits question hmem).card
            obtain rfl := eq_of_filterMap_nodup h.book.started hcard hown hstart hstart'
            exact ⟨_, List.mem_append_right _ (List.mem_singleton_self _),
              completes_of_keys (doneKey_completedEvent question dismissed) hstart' rfl hitem⟩
          · simp only [IsOpen, not_forall, Bool.not_eq_false] at hisOpen
            obtain ⟨event, he, hcompletes⟩ := hisOpen
            exact ⟨event, List.mem_append_left _ he, hcompletes⟩
        · rw [List.mem_singleton.mp hcard] at hstarted
          simp [completedEvent, questionEvent] at hstarted

/-- Foreign events leave the book as it is. -/
theorem book_foreign (h : Book events) (added : List PersistTimelineEventInput) :
    Book (events ++ added.filter isForeign) ∧ ∀ event ∈ added.filter isForeign, doneKey event = none := by
  have hkey : ∀ event ∈ added.filter isForeign,
      event.type = "command.started" ∨ event.type = "command.completed" →
        jsonExtract event.payload ["providerRequestId"] = none := by
    intro event he htype
    have hforeign := (List.mem_filter.mp he).2
    rw [isForeign, Bool.or_eq_true] at hforeign
    rcases hforeign with hother | hnone
    · rcases htype with htype | htype <;> simp [htype] at hother
    · exact Option.isNone_iff_eq_none.mp hnone
  have hrequest : ∀ event ∈ added.filter isForeign,
      event.type = "command.started" ∨ event.type = "command.completed" → requestKey event = none := by
    intro event he htype
    cases hk : requestKey event with
    | none => rfl
    | some k =>
      have hrequest := (requestKey_eq_some.mp hk).2.2
      simp [hkey event he htype] at hrequest
  have hdone : ∀ event ∈ added.filter isForeign, doneKey event = none := by
    intro event he
    rw [doneKey]
    split
    · exact hrequest event he (.inr ‹_›)
    · rfl
  refine ⟨h.append (fun event he => ?_) (fun event he htype => hkey event he (.inl htype)) ?_ ?_, hdone⟩
  · rw [startKey]
    split
    · exact hrequest event he (.inl ‹_›)
    · rfl
  · rw [List.filterMap_eq_nil_iff.mpr hdone]
    exact List.nodup_nil
  · intro event he k hk
    simp [hdone event he] at hk

/-- What every act does: the invariant, and who is answered. -/
theorem inv_step (h : Inv s) (act : Act) :
    Inv (step hasOutstandingCardAsk s act) ∧
      ((step hasOutstandingCardAsk s act).answered = s.answered ∨
        ∃ question ∈ s.pending, ∃ answer dismissed,
          (step hasOutstandingCardAsk s act).answered = (question.key, answer) :: s.answered ∧
          (step hasOutstandingCardAsk s act).db.events =
            s.db.events ++ [completedEvent question dismissed]) := by
  cases act with
  | requestNative fault sessionId invocationId requestId parsed =>
    rw [step, perform]
    cases hok : requestNative hasOutstandingCardAsk fault s sessionId invocationId requestId parsed with
    | error error => exact ⟨h, .inl rfl⟩
    | ok s' =>
      obtain ⟨hinv, hanswered, -⟩ := inv_requestNative hasOutstandingCardAsk h hok
      exact ⟨hinv, .inl hanswered⟩
  | resolve fault sessionId requestId answers dismissed =>
    rw [step, perform]
    cases hok : resolve hasOutstandingCardAsk fault s sessionId requestId answers dismissed with
    | error error => exact ⟨h, .inl rfl⟩
    | ok s' =>
      obtain ⟨hinv, question, hmem, answer, hanswered, hevents⟩ := inv_resolve h hok
      exact ⟨hinv, .inr ⟨question, hmem, answer, dismissed, hanswered, hevents⟩⟩
  | cancelSessionPending fault sessionId =>
    obtain ⟨hinv, hanswered, -⟩ := inv_cancelSessionPending h fault sessionId
    exact ⟨hinv, .inl hanswered⟩
  | hangUp sessionId requestId =>
    refine ⟨inv_of_pending h h.book (fun question hq => ?_) rfl rfl, .inl rfl⟩
    simp only [step, perform, Table.mem_update] at hq
    obtain ⟨before, hbefore, rfl⟩ := hq
    have hwaits := h.waits before hbefore
    rw [hungUp]
    split
    · exact ⟨⟨hwaits.card, hwaits.unanswered⟩, before, hbefore, rfl, rfl⟩
    · exact ⟨hwaits, before, hbefore, rfl, rfl⟩
  | restart => exact ⟨inv_of_subset h .empty fun _ hq => absurd hq (Table.not_mem_empty _), .inl rfl⟩
  | write sessions workspaces approvals events =>
    obtain ⟨hbook, hdone⟩ := book_foreign h.book events
    refine ⟨inv_of_pending h hbook (fun question hq => ⟨?_, question, hq, rfl, rfl⟩) rfl rfl, .inl rfl⟩
    exact (h.waits question hq).append fun event he => by simp [hdone event he]

/-- **An act is sound when it is harmless, and only then.** -/
theorem sound_iff_harmless (h : Inv s) (act : Act) :
    Sound hasOutstandingCardAsk s act ↔ Harmless s act := by
  obtain ⟨hinv, hanswered⟩ := inv_step hasOutstandingCardAsk h act
  -- A request that is known fails, and what fails changes nothing.
  have hrepeated : ∀ fault sessionId invocationId requestId parsed,
      act = .requestNative fault sessionId invocationId requestId parsed →
      hasDurableRequest s.db.events sessionId invocationId requestId = true →
        (perform hasOutstandingCardAsk s act).1 ≠ .ok () ∧ step hasOutstandingCardAsk s act = s := by
    rintro fault sessionId invocationId requestId parsed rfl hknown
    cases hok : requestNative hasOutstandingCardAsk fault s sessionId invocationId requestId parsed with
    | error error => simp [step, perform, hok, committed]
    | ok s' => exact absurd hok (requestNative_of_known hasOutstandingCardAsk hknown fault parsed s')
  have hrest : (∀ error, (perform hasOutstandingCardAsk s act).1 = .error error →
      step hasOutstandingCardAsk s act = s) →
      (act.isOperation = true → ∀ session ∈ (step hasOutstandingCardAsk s act).db.sessions,
        session.state = .running →
          (∃ before ∈ s.db.sessions, before.id = session.id ∧ before.state = .running) ∨
            Settled (step hasOutstandingCardAsk s act).db session.id) →
      Sound hasOutstandingCardAsk s act := fun hkept hresumes =>
    ⟨hkept, fun card hcard htype => hinv.book.once hcard htype, hinv.once, hanswered, hrepeated,
      hresumes⟩
  cases act with
  | requestNative fault sessionId invocationId requestId parsed =>
    refine iff_of_true (hrest (fun error => committed_error) fun _ session hs hrunning => .inl ?_) trivial
    rw [step, perform] at hs
    cases hok : requestNative hasOutstandingCardAsk fault s sessionId invocationId requestId parsed with
    | error error =>
      rw [hok] at hs
      exact ⟨session, hs, rfl, hrunning⟩
    | ok s' =>
      rw [hok] at hs
      obtain ⟨-, -, hsessions⟩ := inv_requestNative hasOutstandingCardAsk h hok
      exact ⟨session, hsessions session hs hrunning, rfl, hrunning⟩
  | resolve fault sessionId requestId answers dismissed =>
    rw [← resumes_resolve_iff hasOutstandingCardAsk h]
    constructor
    · intro hsound s' hok session hs hrunning
      have hresumes := hsound.resumes rfl session
      rw [step, perform, hok] at hresumes
      exact hresumes hs hrunning
    · intro hresumes
      refine hrest (fun error => committed_error) fun _ session hs hrunning => ?_
      rw [step, perform] at hs ⊢
      cases hok : resolve hasOutstandingCardAsk fault s sessionId requestId answers dismissed with
      | error error =>
        rw [hok] at hs
        exact .inl ⟨session, hs, rfl, hrunning⟩
      | ok s' =>
        rw [hok] at hs
        exact hresumes s' hok session hs hrunning
  | cancelSessionPending fault sessionId =>
    refine Iff.trans ⟨Sound.kept, fun hkept => hrest hkept fun _ session hs hrunning => .inl ?_⟩
      (kept_cancelSessionPending s fault sessionId)
    obtain ⟨-, -, hsessions⟩ := @inv_cancelSessionPending hasOutstandingCardAsk _ h fault sessionId
    obtain ⟨before, hbefore, hid, hstate⟩ := hsessions session hs
    exact ⟨before, hbefore, hid, hstate.trans hrunning⟩
  | hangUp | restart =>
    exact iff_of_true (hrest (by simp [perform]) fun _ session hs hrunning =>
      .inl ⟨session, hs, rfl, hrunning⟩) trivial
  | write => exact iff_of_true (hrest (by simp [perform]) (by simp [Act.isOperation])) trivial

/-- **Questions are sound in every run of harmless acts, and in no other.** -/
theorem questions_sound_iff (sessions : Table SessionRow.id) (workspaces : Table WorkspaceRow.id)
    (acts : List Act) :
    Legal (step hasOutstandingCardAsk) (Sound hasOutstandingCardAsk) (.start sessions workspaces)
        acts ↔
      Legal (step hasOutstandingCardAsk) Harmless (.start sessions workspaces) acts :=
  legal_congr (I := Inv) (fun _ act h => (inv_step hasOutstandingCardAsk h act).1)
    (fun _ act h => sound_iff_harmless hasOutstandingCardAsk h act)
    (inv_start sessions workspaces) acts

end

/-- A question of one kind. -/
def askTarget : ParsedRequest where
  provider := "codex"
  isBlocking := true
  itemId := "ask-1"
  threadId := "thread-1"
  turnId := "turn-1"
  normalizedQuestions := []
  questions := [⟨"target", false⟩]

/-- A question waits for its answer when the store fails the cancellation of its session. -/
def cancelledRun : List Act :=
  [.requestNative none "s" "invocation-1" "rpc-1" askTarget, .cancelSessionPending (some .read) "s"]

/-- **A cancellation that fails cuts the provider off**, and its card stays open. -/
theorem questions_not_sound :
    ¬ Legal (step fun _ _ => false) (Sound fun _ _ => false)
      (.start ⟨[⟨"s", "w", .running, .normal⟩], by decide⟩ .empty) cancelledRun := by
  intro h
  have hkept := h.2.1.kept _ rfl
  revert hkept
  decide

end Argmax.Questions
