import Argmax.Providers.ContinuityRows

/-!
# What the conversations of a session hold

The invariant of a session whose acts are careful, and the acts other than sends. The live
conversation holds everything but what it is owed. A parked one holds everything up to its
boundary.
-/

namespace Argmax.Providers.Continuity

open Argmax.Lib Argmax.Persistence Argmax.Persistence.Continuity

/-- A send to the conversation that the session holds, and owes nothing, comes after the answer
to the newest prompt. A launch of a fresh conversation that reported its id shows output before
it ends. A conversation that is owed something keeps its id. -/
def Careful (s : State) : Act → Prop
  | .send input => s.launch = none → input.provider = s.db.provider →
      s.db.providerConversationId.isSome → owedSince s.db s.db.provider = none →
        s.db.answered = true
  | .report conversationId _ => (owedSince s.db s.db.provider).isSome →
      s.db.providerConversationId = some conversationId
  | .finish _ _ => ∀ launch ∈ s.launch, launch.resumeConversationId = none →
      launch.reported.isSome → s.db.answered = true
  | _ => True

instance (s : State) (act : Act) : Decidable (Careful s act) := by
  cases act <;> unfold Careful <;> infer_instance

/-! ## Later states -/

/-- A visible message, other than the error of a provider that had answered and went away. -/
def State.Message (s : State) (event : EventRow) : Prop :=
  event ∈ s.db.events ∧ visible s.db event = true ∧ event ∉ s.lateErrors

/-- Rows are added at the end, and nothing is forgotten. -/
structure Later (s t : State) : Prop where
  grows : Grows s.db t.db
  memory : ∀ entry ∈ s.memory, entry ∈ t.memory
  lateErrors : ∀ event ∈ s.lateErrors, event ∈ t.lateErrors

variable {s : State} {id : String} {launch : Launch}

theorem Later.message {t : State} (h : Later s t) {event : EventRow} (hm : t.Message event)
    (he : event ∈ s.db.events) : s.Message event :=
  ⟨he, visible_of_later h.grows.sessionId h.grows.events hm.2.1,
    fun hl => hm.2.2 (h.lateErrors event hl)⟩

/-- The conversation holds every message up to an event. -/
def Holds (s : State) (key : String × String) (eventId : String) : Prop :=
  ∃ rowid, eventRowid s.db.events eventId = some rowid ∧
    ∀ event, s.Message event → event.rowid ≤ rowid → (key, event) ∈ s.memory

theorem Later.holds {t : State} (h : Later s t) {key : String × String} {eventId : String}
    (hh : Holds s key eventId) : Holds t key eventId := by
  obtain ⟨rowid, hrow, hall⟩ := hh
  refine ⟨rowid, eventRowid_of_subset h.grows.events hrow, fun event hm hle => ?_⟩
  obtain ⟨old, hold, rfl⟩ := Option.map_eq_some_iff.mp hrow
  rcases h.grows.newer event hm.1 with he | hnew
  · exact h.memory _ (hall event (h.message hm he) hle)
  · exact absurd (hnew old (Table.mem_of_find? hold)) (by omega)

/-! ## The invariant -/

/-- The boundary that the binding is owed from. -/
def owed (binding : ProviderBinding) : Option String :=
  match binding.state with
  | .active => binding.pendingSinceEventId
  | .parked => binding.deliveredThroughEventId
  | .invalid => none

/-- How the bindings stand to the session. -/
structure Wired (db : SessionTables) (conversations : List (String × String)) : Prop where
  /-- The session has one conversation with a provider. -/
  single : ∀ binding ∈ db.bindings, ∀ other ∈ db.bindings,
    binding.provider = other.provider → binding = other
  active : ∀ binding ∈ db.bindings, binding.state = .active →
    binding.provider = db.provider ∧ db.providerConversationId = some binding.conversationId
  pointer : ∀ id, db.providerConversationId = some id → ∃ binding ∈ db.bindings,
    binding.key = (db.provider, id) ∧ binding.state = .active
  parked : ∀ binding ∈ db.bindings, binding.state = .parked → binding.provider ≠ db.provider
  known : ∀ binding ∈ db.bindings, binding.key ∈ conversations

structure LaunchInv (s : State) (launch : Launch) : Prop where
  newestPrompt : s.db.newestPrompt = some launch.prompt
  admitted : s.db.answered = launch.admitted
  conversation : s.db.providerConversationId = launch.conversation
  history : ∀ id, launch.conversation = some id → ∀ event ∈ launch.history,
    ((s.db.provider, id), event) ∈ s.memory
  told : ∀ event, s.Message event → event.rowid < launch.prompt.rowid →
    event ∈ launch.held ∨ event ∈ launch.retold
  shown : ∀ event, s.Message event → launch.prompt.rowid < event.rowid → event ∈ launch.shown
  since : launch.resumeConversationId.isSome → ∀ event, s.Message event →
    event.rowid < launch.prompt.rowid → event ∈ launch.held ∨
      ∃ since rowid, launch.sinceEventId = some since ∧
        eventRowid s.db.events since = some rowid ∧ rowid < event.rowid
  fallback : ∀ rows ∈ launch.freshFallback, ∀ event, s.Message event →
    event.rowid < launch.prompt.rowid → event ∈ rows
  debt : ∀ binding ∈ s.db.bindings, binding.state = .active →
    ∀ since, binding.pendingSinceEventId = some since → launch.sinceEventId = some since ∧
      launch.resumeConversationId = some binding.conversationId
  owed : launch.admitted = false → ∀ since, launch.sinceEventId = some since →
    owedSince s.db s.db.provider = some since

/-- A fresh launch that showed no output. -/
def Unproven (launch : Launch) : Prop :=
  launch.resumeConversationId = none ∧ launch.admitted = false

/-- The message is answered, or an older one. -/
def Settled (s : State) (event : EventRow) : Prop :=
  s.db.answered = true ∨ ∀ prompt, s.db.newestPrompt = some prompt → event.rowid < prompt.rowid

structure Inv (s : State) : Prop where
  distinct : Distinct s.db.events
  wired : Wired s.db s.conversations
  holds : ∀ binding ∈ s.db.bindings, ∀ eventId, owed binding = some eventId →
    Holds s binding.key eventId
  /-- The live conversation holds everything, except for a prompt that was not answered. -/
  live : ∀ binding ∈ s.db.bindings, binding.state = .active →
    binding.pendingSinceEventId = none → (∀ launch, s.launch = some launch → ¬ Unproven launch) →
    ∀ event, s.Message event → Settled s event → (binding.key, event) ∈ s.memory
  launched : ∀ launch, s.launch = some launch → LaunchInv s launch

theorem inv_start (sessionId provider workspacePath : String)
    (configIdentity : String → String) :
    Inv (State.start sessionId provider workspacePath configIdentity) where
  distinct _ he := absurd he (Table.not_mem_empty _)
  wired :=
    { single _ hb := absurd hb (Table.not_mem_empty _)
      active _ hb := absurd hb (Table.not_mem_empty _)
      pointer _ h := by cases h
      parked _ hb := absurd hb (Table.not_mem_empty _)
      known _ hb := absurd hb (Table.not_mem_empty _) }
  holds _ hb := absurd hb (Table.not_mem_empty _)
  live _ hb := absurd hb (Table.not_mem_empty _)
  launched _ h := by cases h

/-! ## The live conversation -/

section Live

variable {db : SessionTables} {conversations : List (String × String)} {binding : ProviderBinding}

/-- The debt of the session is that of its live conversation. -/
theorem Wired.owedSince_eq (h : Wired db conversations) (hb : binding ∈ db.bindings)
    (hactive : binding.state = .active) :
    owedSince db db.provider = binding.pendingSinceEventId := by
  obtain ⟨hprovider, hpointer⟩ := h.active binding hb hactive
  have hfind : db.findBinding db.provider binding.conversationId = some binding :=
    SessionTables.findBinding_eq_some.mpr ⟨hb, by rw [ProviderBinding.key, hprovider]⟩
  rw [owedSince, hpointer, Option.bind_some, hfind, Option.bind_some]

theorem Wired.exists_active (h : Wired db conversations)
    (hpointer : db.providerConversationId = some id) :
    ∃ binding ∈ db.bindings, binding.key = (db.provider, id) ∧ binding.state = .active ∧
      binding.pendingSinceEventId = owedSince db db.provider := by
  obtain ⟨binding, hb, hkey, hactive⟩ := h.pointer id hpointer
  exact ⟨binding, hb, hkey, hactive, (h.owedSince_eq hb hactive).symm⟩

end Live

section Launched

variable {s : State} {launch : Launch} {event : EventRow}

/-- A message of the session is the newest prompt, or before it or after it. -/
theorem LaunchInv.trichotomy (hl : LaunchInv s launch) (hd : Distinct s.db.events)
    (hm : s.Message event) : event.rowid < launch.prompt.rowid ∨ event = launch.prompt ∨
      launch.prompt.rowid < event.rowid := by
  rcases lt_trichotomy event.rowid launch.prompt.rowid with hlt | heq | hgt
  · exact .inl hlt
  · exact .inr (.inl (hd event hm.1 _ (newest_eq_some hl.newestPrompt).1 heq))
  · exact .inr (.inr hgt)

/-- What an admitted launch holds. -/
theorem LaunchInv.mem_history (hl : LaunchInv s launch) (hd : Distinct s.db.events)
    (hadmitted : launch.admitted = true) (hm : s.Message event) : event ∈ launch.history := by
  simp only [Launch.history, hadmitted, if_true, List.mem_append, List.mem_cons]
  rcases hl.trichotomy hd hm with hlt | rfl | hgt
  · rcases hl.told event hm hlt with hheld | hretold
    · exact .inl hheld
    · exact .inr (.inl hretold)
  · exact .inr (.inr (.inl rfl))
  · exact .inr (.inr (.inr (hl.shown event hm hgt)))

end Launched

/-! ## Acts that leave the conversations -/

section Same

variable {s t : State}

/-- Nothing but events that are no messages. -/
structure Same (s t : State) : Prop where
  later : Later s t
  bindings : t.db.bindings = s.db.bindings
  provider : t.db.provider = s.db.provider
  pointer : t.db.providerConversationId = s.db.providerConversationId
  conversations : t.conversations = s.conversations
  newestPrompt : t.db.newestPrompt = s.db.newestPrompt
  answered : t.db.answered = s.db.answered
  message : ∀ event, t.Message event → event ∈ s.db.events

theorem Same.wired (h : Same s t) (hw : Wired s.db s.conversations) :
    Wired t.db t.conversations := by
  obtain ⟨hsingle, hactive, hpointer, hparked, hknown⟩ := hw
  constructor
  all_goals rw [h.bindings]
  · exact hsingle
  · rw [h.provider, h.pointer]
    exact hactive
  · rw [h.provider, h.pointer]
    exact hpointer
  · rw [h.provider]
    exact hparked
  · rw [h.conversations]
    exact hknown

theorem Same.owedSince (h : Same s t) (provider : String) :
    owedSince t.db provider = Continuity.owedSince s.db provider := by
  rw [Continuity.owedSince, Continuity.owedSince, h.pointer]
  simp [SessionTables.findBinding, h.bindings]

theorem Same.settled (h : Same s t) {event : EventRow} (hs : Settled t event) :
    Settled s event := by
  rw [Settled, h.answered, h.newestPrompt] at hs
  exact hs

theorem Same.message' (h : Same s t) {event : EventRow} (hm : t.Message event) : s.Message event :=
  h.later.message hm (h.message event hm)

theorem Same.launchInv (h : Same s t) (hl : LaunchInv s launch) : LaunchInv t launch where
  newestPrompt := h.newestPrompt.trans hl.newestPrompt
  admitted := h.answered.trans hl.admitted
  conversation := h.pointer.trans hl.conversation
  history id hid event he := by
    rw [h.provider]
    exact h.later.memory _ (hl.history id hid event he)
  told event hm := hl.told event (h.message' hm)
  shown event hm := hl.shown event (h.message' hm)
  since hresume event hm hlt := by
    rcases hl.since hresume event (h.message' hm) hlt with hheld | ⟨since, rowid, hs, hrow, hlt⟩
    · exact .inl hheld
    · exact .inr ⟨since, rowid, hs, eventRowid_of_subset h.later.grows.events hrow, hlt⟩
  fallback rows hr event hm := hl.fallback rows hr event (h.message' hm)
  debt := by
    rw [h.bindings]
    exact hl.debt
  owed := by
    rw [h.provider, h.owedSince]
    exact hl.owed

theorem Same.inv (h : Same s t) (hi : Inv s) (hlaunch : t.launch = s.launch) : Inv t where
  distinct := h.later.grows.distinct hi.distinct
  wired := h.wired hi.wired
  holds := by
    rw [h.bindings]
    exact fun binding hb eventId howed => h.later.holds (hi.holds binding hb eventId howed)
  live := by
    rw [h.bindings, hlaunch]
    exact fun binding hb hactive hpending hproven event hm hsettled =>
      h.later.memory _
        (hi.live binding hb hactive hpending hproven event (h.message' hm) (h.settled hsettled))
  launched := by
    rw [hlaunch]
    exact fun launch hl => h.launchInv (hi.launched launch hl)

/-- The tables of the session did not change. -/
theorem Same.of_eq (hsession : t.db.sessionId = s.db.sessionId)
    (hevents : t.db.events = s.db.events) (hbindings : t.db.bindings = s.db.bindings)
    (hprovider : t.db.provider = s.db.provider)
    (hpointer : t.db.providerConversationId = s.db.providerConversationId)
    (hconversations : t.conversations = s.conversations) (hmemory : t.memory = s.memory)
    (hlate : t.lateErrors = s.lateErrors) : Same s t where
  later := ⟨.of_eq hsession hevents, fun _ => hmemory ▸ id, fun _ => hlate ▸ id⟩
  bindings := hbindings
  provider := hprovider
  pointer := hpointer
  conversations := hconversations
  newestPrompt := by simp only [SessionTables.newestPrompt, hsession, hevents]
  answered := by simp only [SessionTables.answered, SessionTables.newestPrompt, hsession, hevents]
  message _ hm := hevents ▸ hm.1

/-- A row that is neither a message nor output. -/
theorem Same.of_persist {event : NewEvent} {row : EventRow} {db : SessionTables}
    (h : persist s.db event = some (row, db))
    (hsession : "session.".toList.isPrefixOf event.type.toList = true)
    (hdb : t.db = db) (hmemory : t.memory = s.memory)
    (hconversations : t.conversations = s.conversations) (hlate : t.lateErrors = s.lateErrors) :
    Same s t := by
  obtain ⟨huser, hmessage, herror, houtput⟩ := session_type hsession
  obtain ⟨heq, -, -, -, htype⟩ := persist_eq_some h
  obtain ⟨hprompt, hanswered⟩ := answered_persist h huser
  subst hdb
  refine
    { later := ⟨grows_persist h, fun _ => hmemory ▸ id, fun _ => hlate ▸ id⟩
      bindings := by rw [heq]
      provider := by rw [heq]
      pointer := by rw [heq]
      conversations := hconversations
      newestPrompt := hprompt
      answered := by rw [hanswered, houtput, Bool.or_false]
      message := fun e hm => ?_ }
  rcases (mem_events_persist h e).mp hm.1 with hold | rfl
  · exact hold
  · have := type_of_visible hm.2.1
    rw [htype] at this
    tauto

end Same

theorem inv_mark (h : Inv s) {event : NewEvent}
    (hsession : "session.".toList.isPrefixOf event.type.toList = true) : Inv (mark s event) := by
  unfold mark
  cases hpersist : persist s.db event with
  | none => exact h
  | some stored =>
    obtain ⟨row, db⟩ := stored
    have hsame : Same s { s with db := db } :=
      .of_persist hpersist hsession rfl rfl rfl rfl
    exact hsame.inv h rfl

theorem inv_turnStarted (h : Inv s) (threadId turnId : String) :
    Inv { s with db := observeProviderLine s.db threadId turnId } := by
  have hdb : ∃ turns, observeProviderLine s.db threadId turnId = { s.db with turns := turns } := by
    unfold observeProviderLine SessionTables.recordBindingTurn
    split
    · exact ⟨_, rfl⟩
    · split
      · exact ⟨_, rfl⟩
      · split <;> exact ⟨_, rfl⟩
  obtain ⟨turns, hdb⟩ := hdb
  have hsame : Same s { s with db := { s.db with turns := turns } } :=
    .of_eq rfl rfl rfl rfl rfl rfl rfl rfl
  rw [hdb]
  exact hsame.inv h rfl

theorem inv_reconfigure (h : Inv s) (workspacePath : String) (configIdentity : String → String) :
    Inv { s with
      db := { s.db with workspacePath := workspacePath, configIdentity := configIdentity } } := by
  have hsame : Same s { s with
      db := { s.db with workspacePath := workspacePath, configIdentity := configIdentity } } :=
    .of_eq rfl rfl rfl rfl rfl rfl rfl rfl
  exact hsame.inv h rfl

/-! ## The end of a launch -/

theorem not_unproven_of_finish (h : Inv s) (hlaunch : s.launch = some launch)
    (hcareful : launch.resumeConversationId = none →
      launch.reported.isSome → s.db.answered = true) {binding : ProviderBinding}
    (hb : binding ∈ s.db.bindings) (hactive : binding.state = .active) : ¬ Unproven launch := by
  rintro ⟨hresume, hadmitted⟩
  have hl := h.launched launch hlaunch
  have hconversation := hl.conversation
  rw [(h.wired.active binding hb hactive).2, Launch.conversation, hresume, Option.or_none]
    at hconversation
  have hanswered := hcareful hresume (by rw [← hconversation]; rfl)
  rw [hl.admitted, hadmitted] at hanswered
  cases hanswered

theorem Ending.type_event (ending : Ending) (eventId : String) :
    (ending.event eventId).type ≠ "user.message" ∧ isOutput (ending.event eventId).type = false ∧
      ((ending.event eventId).type = "error" ∨
        "session.".toList.isPrefixOf (ending.event eventId).type.toList = true) := by
  cases ending <;> simp only [Ending.event] <;> decide

theorem inv_finish (h : Inv s) {ending : Ending} {eventId : String}
    (hcareful : Careful s (.finish ending eventId)) : Inv (finish s ending eventId) := by
  unfold finish
  cases hlaunch : s.launch with
  | none => exact h
  | some launch =>
    cases hpersist : persist s.db (ending.event eventId) with
    | none => exact h
    | some stored =>
      obtain ⟨row, db⟩ := stored
      obtain ⟨huser, houtput, htype⟩ := ending.type_event eventId
      obtain ⟨heq, -, hrow, -, hrowType⟩ := persist_eq_some hpersist
      obtain ⟨hprompt, hanswered⟩ := answered_persist hpersist huser
      rw [houtput, Bool.or_false] at hanswered
      have hl := h.launched launch hlaunch
      dsimp only
      set t : State :=
        { s with
          db := db
          launch := none
          lateErrors :=
            if launch.admitted && row.type == "error" then row :: s.lateErrors
            else s.lateErrors } with ht
      have hlater : Later s t := by
        refine ⟨grows_persist hpersist, fun _ => id, fun e he => ?_⟩
        rw [ht]
        split
        · exact List.mem_cons_of_mem _ he
        · exact he
      have hbindings : t.db.bindings = s.db.bindings := by rw [ht, heq]
      refine ⟨hlater.grows.distinct h.distinct, ?_, ?_, ?_, fun launch hnone => by cases hnone⟩
      · rw [ht, heq]
        exact { h.wired with }
      · rw [hbindings]
        exact fun binding hb id howed => hlater.holds (h.holds binding hb id howed)
      · rw [hbindings]
        intro binding hb hactive hpending _ event hm hsettled
        have hproven := not_unproven_of_finish h hlaunch (hcareful launch hlaunch) hb hactive
        have hsettled' : Settled s event := by
          rw [Settled, ← hanswered, ← hprompt]
          exact hsettled
        rcases (mem_events_persist hpersist event).mp hm.1 with hold | rfl
        · refine h.live binding hb hactive hpending ?_ event (hlater.message hm hold) hsettled'
          rintro other hother
          rwa [Option.some.inj (hother.symm.trans hlaunch)]
        · -- The stored row: no message, unless the provider never answered.
          exfalso
          rcases htype with herror | hmarker
          · cases hadmitted : launch.admitted with
            | true =>
              refine hm.2.2 ?_
              rw [ht]
              simp [hadmitted, hrowType, herror]
            | false =>
              rcases hsettled' with hanswered' | hbefore
              · rw [hl.admitted, hadmitted] at hanswered'
                cases hanswered'
              · have hlt := hbefore _ hl.newestPrompt
                have := rowid_lt_nextRowid (newest_eq_some hl.newestPrompt).1
                omega
          · have hvisible := type_of_visible hm.2.1
            rw [hrowType] at hvisible
            have := session_type hmarker
            tauto

theorem inv_clear (h : Inv s) (hidle : s.launch = none) (eventId now : String) :
    Inv (clear s eventId now) := by
  unfold clear
  cases hpersist : persist s.db ⟨eventId, "session.cleared", "", .null⟩ with
  | none => exact h
  | some stored =>
    obtain ⟨row, db⟩ := stored
    obtain ⟨heq, -⟩ := persist_eq_some hpersist
    have hbindings : db.bindings = s.db.bindings := by rw [heq]
    have hinvalid : ∀ binding : ProviderBinding, (if binding.state ≠ .invalid then
        { binding with state := .invalid, invalidReason := some "cleared", updatedAt := now }
        else binding).state = .invalid := by
      intro binding
      split
      · rfl
      · simpa using ‹¬ binding.state ≠ .invalid›
    have hkey : ∀ binding : ProviderBinding, (if binding.state ≠ .invalid then
        { binding with state := .invalid, invalidReason := some "cleared", updatedAt := now }
        else binding).key = binding.key := by
      intro binding
      split <;> rfl
    refine ⟨(grows_persist hpersist).distinct h.distinct, ⟨?_, ?_, nofun, ?_, ?_⟩, ?_, ?_,
      fun launch hl => by simp [hidle] at hl⟩
    all_goals simp only [Table.mem_update, hbindings]
    · rintro _ ⟨before, hb, rfl⟩ _ ⟨other, ho, rfl⟩ heq
      have hprovider := (congrArg Prod.fst (hkey before)).symm.trans
        (heq.trans (congrArg Prod.fst (hkey other)))
      rw [h.wired.single before hb other ho hprovider]
    · rintro _ ⟨before, hb, rfl⟩ hactive
      rw [hinvalid] at hactive
      cases hactive
    · rintro _ ⟨before, hb, rfl⟩ hparked
      rw [hinvalid] at hparked
      cases hparked
    · rintro _ ⟨before, hb, rfl⟩
      rw [hkey]
      exact h.wired.known before hb
    · rintro _ ⟨before, hb, rfl⟩ id howed
      rw [owed, hinvalid] at howed
      cases howed
    · rintro _ ⟨before, hb, rfl⟩ hactive
      rw [hinvalid] at hactive
      cases hactive

/-! ## The fresh retry -/

theorem inv_reject (h : Inv s) {now : String}
    (hfirst : ∀ launch, s.launch = some launch → launch.reported = none) : Inv (reject s now) := by
  unfold reject
  cases hlaunch : s.launch with
  | none => exact h
  | some launch =>
    dsimp only
    split
    case h_2 => exact h
    case h_1 rejected fallback hresume hfallback =>
    have hl := h.launched launch hlaunch
    have hpointer : s.db.providerConversationId = some rejected := by
      rw [hl.conversation, Launch.conversation, hfirst launch hlaunch, hresume, Option.none_or]
    set db := recordResumeRejected s.db rejected now with hdb
    have hof : ∀ binding ∈ db.bindings, ∃ before ∈ s.db.bindings, binding.key = before.key ∧
        (before.key = (s.db.provider, rejected) ∧ binding.state = .invalid ∨
          before.key ≠ (s.db.provider, rejected) ∧ binding = before) :=
      fun _ => SessionTables.of_mem_invalidateBinding
    -- The live conversation is the one that was rejected.
    have hnone : ∀ binding ∈ db.bindings, binding.state ≠ .active := by
      intro binding hb hactive
      obtain ⟨before, hbefore, -, ⟨-, hinvalid⟩ | ⟨hne, rfl⟩⟩ := hof binding hb
      · rw [hinvalid] at hactive
        cases hactive
      · obtain ⟨hprovider, hid⟩ := h.wired.active binding hbefore hactive
        rw [hpointer] at hid
        exact hne (Prod.ext hprovider (Option.some.inj hid).symm)
    refine ⟨h.distinct, ⟨?_, ?_, nofun, ?_, ?_⟩, ?_, ?_, ?_⟩
    · intro binding hb other ho hprovider
      obtain ⟨before, hbefore, hkey, hcase⟩ := hof binding hb
      obtain ⟨before', hbefore', hkey', hcase'⟩ := hof other ho
      have heq := h.wired.single before hbefore before' hbefore'
        ((congrArg Prod.fst hkey).symm.trans (hprovider.trans (congrArg Prod.fst hkey')))
      subst heq
      exact db.bindings.eq_of_key hb ho (hkey.trans hkey'.symm)
    · exact fun binding hb hactive => absurd hactive (hnone binding hb)
    · intro binding hb hparked
      obtain ⟨before, hbefore, -, ⟨-, hinvalid⟩ | ⟨-, rfl⟩⟩ := hof binding hb
      · rw [hinvalid] at hparked
        cases hparked
      · exact h.wired.parked binding hbefore hparked
    · intro binding hb
      obtain ⟨before, hbefore, heq, -⟩ := hof binding hb
      rw [heq]
      exact h.wired.known before hbefore
    · intro binding hb id howed
      obtain ⟨before, hbefore, -, ⟨-, hinvalid⟩ | ⟨-, rfl⟩⟩ := hof binding hb
      · rw [owed, hinvalid] at howed
        cases howed
      · exact h.holds binding hbefore id howed
    · exact fun binding hb hactive => absurd hactive (hnone binding hb)
    · rintro _ ⟨⟩
      exact
        { newestPrompt := hl.newestPrompt
          admitted := hl.admitted
          conversation := by rw [hfirst launch hlaunch]; rfl
          history := by
            rw [hfirst launch hlaunch]
            exact nofun
          told := fun event hm hlt => .inr (hl.fallback fallback hfallback event hm hlt)
          shown := hl.shown
          since := nofun
          fallback := nofun
          debt := fun binding hb hactive => absurd hactive (hnone binding hb)
          owed := nofun }

/-! ## A conversation is bound -/

section Bind

variable {db : SessionTables} {conversations : List (String × String)} {binding : ProviderBinding}
  {conversationId now : String}

theorem mem_updateConversationId :
    binding ∈ (db.updateSessionProviderConversationId conversationId now).bindings ↔
      binding = db.boundRow conversationId now (db.findBinding db.provider conversationId) ∨
        (binding ∈ db.bindings ∧ binding.provider ≠ db.provider) :=
  SessionTables.mem_bindActive

theorem key_bound : (db.boundRow conversationId now
    (db.findBinding db.provider conversationId)).key = (db.provider, conversationId) :=
  SessionTables.key_boundRow fun _ h => (SessionTables.findBinding_eq_some.mp h).2

/-- The bound conversation is the live one, and the only one with the provider. -/
theorem wired_bind (hsingle : ∀ binding ∈ db.bindings, ∀ other ∈ db.bindings,
      binding.provider = other.provider → binding = other)
    (hactive : ∀ binding ∈ db.bindings, binding.state = .active → binding.provider = db.provider)
    (hknown : ∀ binding ∈ db.bindings, binding.key ∈ conversations)
    (hnew : (db.provider, conversationId) ∈ conversations) :
    Wired (db.updateSessionProviderConversationId conversationId now) conversations := by
  have hkey := @key_bound db conversationId now
  have hprovider := congrArg Prod.fst hkey
  constructor
  case single =>
    intro binding hb other ho heq
    rcases mem_updateConversationId.mp hb with rfl | ⟨hb, hne⟩
    · rcases mem_updateConversationId.mp ho with rfl | ⟨-, hne⟩
      · rfl
      · exact absurd (heq.symm.trans hprovider) hne
    · rcases mem_updateConversationId.mp ho with rfl | ⟨ho, -⟩
      · exact absurd (heq.trans hprovider) hne
      · exact hsingle binding hb other ho heq
  case active =>
    intro binding hb hstate
    rcases mem_updateConversationId.mp hb with rfl | ⟨hb, hne⟩
    · exact ⟨hprovider, congrArg some (congrArg Prod.snd hkey).symm⟩
    · exact absurd (hactive binding hb hstate) hne
  case pointer =>
    rintro _ ⟨⟩
    exact ⟨_, mem_updateConversationId.mpr (.inl rfl), hkey, SessionTables.state_boundRow⟩
  case parked =>
    intro binding hb hstate
    rcases mem_updateConversationId.mp hb with rfl | ⟨-, hne⟩
    · rw [SessionTables.state_boundRow] at hstate
      cases hstate
    · exact hne
  case known =>
    intro binding hb
    rcases mem_updateConversationId.mp hb with rfl | ⟨hb, -⟩
    · rwa [hkey]
    · exact hknown binding hb

end Bind

/-- What the conversation learned, and everything else as it was. -/
theorem mem_learn (hid : launch.conversation = some id) {entry : (String × String) × EventRow} :
    entry ∈ (s.learn launch).memory ↔
      (∃ event ∈ launch.history, ((s.db.provider, id), event) = entry) ∨ entry ∈ s.memory := by
  simp only [State.learn, hid, List.mem_append, List.mem_map]

theorem mem_learn_of_mem {entry : (String × String) × EventRow} (h : entry ∈ s.memory) :
    entry ∈ (s.learn launch).memory := by
  cases hid : launch.conversation with
  | none => simpa only [State.learn, hid] using h
  | some id => exact (mem_learn hid).mpr (.inr h)

/-- What the conversation that a launch reports holds. A new one of which nothing is known is
there only when nothing was owed. -/
theorem findBinding_report (h : Inv s) (hl : LaunchInv s launch)
    (hreportable : launch.conversation = some id ∨ (s.db.provider, id) ∉ s.conversations) :
    (∃ binding, s.db.findBinding s.db.provider id = some binding ∧ binding ∈ s.db.bindings ∧
      binding.key = (s.db.provider, id) ∧ binding.state = .active ∧
      binding.pendingSinceEventId = owedSince s.db s.db.provider) ∨
    (s.db.findBinding s.db.provider id = none ∧ launch.conversation ≠ some id) := by
  rcases hreportable with hsome | hnew
  · obtain ⟨binding, hb, hkey, hactive, hpending⟩ :=
      h.wired.exists_active (hl.conversation.trans hsome)
    exact .inl ⟨binding, SessionTables.findBinding_eq_some.mpr ⟨hb, hkey⟩, hb, hkey, hactive, hpending⟩
  · have hnone : s.db.findBinding s.db.provider id = none := by
      cases hfind : s.db.findBinding s.db.provider id with
      | none => rfl
      | some binding =>
        obtain ⟨hb, hkey⟩ := SessionTables.findBinding_eq_some.mp hfind
        exact absurd (hkey ▸ h.wired.known binding hb) hnew
    refine .inr ⟨hnone, fun hsome => ?_⟩
    obtain ⟨binding, hb, hkey, -⟩ := h.wired.exists_active (hl.conversation.trans hsome)
    exact hnew (hkey ▸ h.wired.known binding hb)

theorem inv_report (h : Inv s) {now : String} (hreportable : s.reportable id = true)
    (hcareful : Careful s (.report id now)) : Inv (report s id now) := by
  unfold report
  cases hlaunch : s.launch with
  | none => exact h
  | some launch =>
    have hl := h.launched launch hlaunch
    set mid : State :=
      { s with
        db := s.db.updateSessionProviderConversationId id now
        conversations := (s.db.provider, id) :: s.conversations } with hmid
    set launch' : Launch := { launch with reported := some id } with hlaunch'
    have hid : launch'.conversation = some id := rfl
    have hwired : Wired mid.db mid.conversations :=
      wired_bind h.wired.single (fun b hb ha => (h.wired.active b hb ha).1)
        (fun b hb => List.mem_cons_of_mem _ (h.wired.known b hb)) List.mem_cons_self
    have hrow : ∀ binding ∈ mid.db.bindings, binding.state = .active →
        binding = s.db.boundRow id now (s.db.findBinding s.db.provider id) := by
      intro binding hb hactive
      rcases mem_updateConversationId.mp hb with rfl | ⟨hb, hne⟩
      · rfl
      · exact absurd (h.wired.active binding hb hactive).1 hne
    have hid' : launch.conversation = some id ∨ (s.db.provider, id) ∉ s.conversations := by
      simpa [State.reportable, hlaunch] using hreportable
    have hexisting := findBinding_report h hl hid'
    set row := s.db.boundRow id now (s.db.findBinding s.db.provider id) with hrowDef
    have hmemRow : row ∈ mid.db.bindings := mem_updateConversationId.mpr (.inl rfl)
    have hkeyRow : row.key = (s.db.provider, id) := key_bound
    have hstateRow : row.state = .active := SessionTables.state_boundRow
    have hunbound : s.db.findBinding s.db.provider id = none ∧ launch.conversation ≠ some id →
        owedSince s.db s.db.provider = none := by
      rintro ⟨-, hne⟩
      by_contra howes
      exact hne (hl.conversation ▸ hcareful (Option.ne_none_iff_isSome.mp howes))
    have hdebt : row.pendingSinceEventId = owedSince s.db s.db.provider := by
      rw [SessionTables.pendingSince_boundRow]
      rcases hexisting with ⟨binding, hfind, -, -, -, hpending⟩ | hnone
      · rw [hfind, Option.bind_some, hpending]
      · rw [hnone.1, Option.bind_none, hunbound hnone]
    have hlater : Later s (mid.learn launch') :=
      ⟨.of_eq rfl rfl, fun _ hx => mem_learn_of_mem hx, fun _ hx => hx⟩
    have hmessage : ∀ event, (mid.learn launch').Message event → s.Message event :=
      fun event hm => hlater.message hm hm.1
    refine ⟨h.distinct, hwired, ?_, ?_, ?_⟩
    · intro binding hb eventId howed
      rcases mem_updateConversationId.mp hb with rfl | ⟨hb, -⟩
      · rw [owed, hstateRow] at howed
        rcases hexisting with ⟨before, -, hbefore, hkey, hactive, hpending⟩ | hnone
        · rw [hkeyRow, ← hkey]
          refine hlater.holds (h.holds before hbefore eventId ?_)
          rw [owed, hactive]
          exact hpending.trans (hdebt.symm.trans howed)
        · exact absurd (howed.symm.trans (hdebt.trans (hunbound hnone))) (by simp)
      · exact hlater.holds (h.holds binding hb eventId howed)
    · intro binding hb hactive hpending hproven event hm hsettled
      obtain rfl := hrow binding hb hactive
      have hnot : ¬ Unproven launch := hproven launch' rfl
      rw [hkeyRow]
      rcases hexisting with ⟨before, -, hbefore, hkey, hactive', hpending'⟩ | hnone
      · refine mem_learn_of_mem (hkey ▸ h.live before hbefore hactive' ?_ ?_ event
          (hmessage event hm) hsettled)
        · rw [hpending', ← hdebt, hpending]
        · rintro other hother
          rwa [Option.some.inj (hother.symm.trans hlaunch)]
      · refine (mem_learn hid).mpr (.inl ⟨event, ?_, rfl⟩)
        cases hadmitted : launch.admitted with
        | true => exact hl.mem_history h.distinct hadmitted (hmessage event hm)
        | false =>
          rcases hsettled with hanswered | hbefore
          · exact absurd (hanswered.symm.trans (hl.admitted.trans hadmitted)) (by simp)
          · have hresume : launch.resumeConversationId.isSome :=
              Option.ne_none_iff_isSome.mp fun hresume => hnot ⟨hresume, hadmitted⟩
            rcases hl.since hresume event (hmessage event hm) (hbefore _ hl.newestPrompt) with
              hheld | ⟨since, _, hsince, -⟩
            · exact List.mem_append_left _ hheld
            · have howes := hl.owed hadmitted since hsince
              rw [hunbound hnone] at howes
              cases howes
    · rintro _ ⟨⟩
      exact
        { newestPrompt := hl.newestPrompt
          admitted := hl.admitted
          conversation := rfl
          history := by
            rintro _ ⟨⟩ event he
            exact (mem_learn hid).mpr (.inl ⟨event, he, rfl⟩)
          told := fun event hm => hl.told event (hmessage event hm)
          shown := fun event hm => hl.shown event (hmessage event hm)
          since := fun hresume event hm => hl.since hresume event (hmessage event hm)
          fallback := fun rows hrows event hm => hl.fallback rows hrows event (hmessage event hm)
          debt := by
            intro binding hb hactive since hsince
            obtain rfl := hrow binding hb hactive
            rcases hexisting with ⟨before, -, hbefore, hkey, hactive', hpending⟩ | hnone
            · obtain ⟨hs, hresume⟩ := hl.debt before hbefore hactive' since
                (hpending.trans (hdebt.symm.trans hsince))
              refine ⟨hs, hresume.trans (congrArg some ?_)⟩
              exact (congrArg Prod.snd hkey).trans (congrArg Prod.snd hkeyRow).symm
            · exact absurd (hsince.symm.trans (hdebt.trans (hunbound hnone))) (by simp)
          owed := fun hadmitted since hsince =>
            (hwired.owedSince_eq hmemRow hstateRow).trans
              (hdebt.trans (hl.owed hadmitted since hsince)) }

/-! ## Output -/

/-- What noting a batch leaves. -/
theorem noted_cases (db : SessionTables) (types : List String) (noted : Bool) :
    (if noted then noteProviderOutput db types else db) = db ∨
      types.any isOutput = true ∧
        (if noted then noteProviderOutput db types else db) = db.clearPendingSince := by
  unfold noteProviderOutput
  split
  · split
    case isTrue hany => exact .inr ⟨hany, rfl⟩
    case isFalse => exact .inl rfl
  · exact .inl rfl

section Settle

variable {db : SessionTables} {conversations : List (String × String)} {binding : ProviderBinding}

/-- Rows that keep their conversations and their states. -/
theorem Wired.of_update {db' : SessionTables} (h : Wired db conversations)
    (f : ProviderBinding → ProviderBinding) (hkey : ∀ binding, (f binding).key = binding.key)
    (hstate : ∀ binding, (f binding).state = binding.state)
    (hmem : ∀ binding, binding ∈ db'.bindings ↔ ∃ before ∈ db.bindings, f before = binding)
    (hprovider : db'.provider = db.provider)
    (hpointer : db'.providerConversationId = db.providerConversationId) :
    Wired db' conversations := by
  constructor
  all_goals simp only [hmem, hprovider, hpointer]
  case single =>
    rintro _ ⟨before, hb, rfl⟩ _ ⟨other, ho, rfl⟩ heq
    rw [h.single before hb other ho ((congrArg Prod.fst (hkey before)).symm.trans
      (heq.trans (congrArg Prod.fst (hkey other))))]
  case active =>
    rintro _ ⟨before, hb, rfl⟩ hactive
    rw [hstate] at hactive
    obtain ⟨hprovider, hid⟩ := h.active before hb hactive
    exact ⟨(congrArg Prod.fst (hkey before)).trans hprovider,
      hid.trans (congrArg some (congrArg Prod.snd (hkey before)).symm)⟩
  case pointer =>
    intro id hid
    obtain ⟨before, hb, hbefore, hactive⟩ := h.pointer id hid
    exact ⟨_, ⟨before, hb, rfl⟩, (hkey before).trans hbefore, (hstate before).trans hactive⟩
  case parked =>
    rintro _ ⟨before, hb, rfl⟩ hparked heq
    rw [hstate] at hparked
    exact h.parked before hb hparked ((congrArg Prod.fst (hkey before)).symm.trans heq)
  case known =>
    rintro _ ⟨before, hb, rfl⟩
    rw [hkey]
    exact h.known before hb

theorem Wired.clearPendingSince (h : Wired db conversations) :
    Wired db.clearPendingSince conversations :=
  h.of_update ProviderBinding.settle ProviderBinding.key_settle ProviderBinding.state_settle
    (fun _ => SessionTables.mem_clearPendingSince) rfl rfl

end Settle

theorem inv_output (h : Inv s) {events : List NewEvent} {noted : Bool}
    (hne : ∀ event ∈ events, event.type ≠ "user.message") : Inv (output s events noted) := by
  unfold output
  cases hlaunch : s.launch with
  | none => exact h
  | some launch =>
    cases hpersist : persistAll s.db events with
    | none => exact h
    | some stored =>
      obtain ⟨rows, db⟩ := stored
      have hl := h.launched launch hlaunch
      obtain ⟨hdb, hgrows, hmem, hprompt, hanswered⟩ := persistAll_eq_some hpersist hne
      have hany : (events.map (·.type)).any isOutput = events.any fun event => isOutput event.type :=
        List.any_map
      dsimp only
      rw [hany]
      set launch' : Launch :=
        { launch with
          admitted := launch.admitted || events.any fun event => isOutput event.type
          shown := launch.shown ++ rows } with hlaunch'
      set noteDb := if noted then noteProviderOutput db (events.map (·.type)) else db with hnote
      -- The rows of the bindings, at most without their debt.
      have hcases : noteDb = db ∨
          (events.any fun event => isOutput event.type) = true ∧ noteDb = db.clearPendingSince :=
        hany ▸ noted_cases db _ noted
      have hfields : noteDb.sessionId = db.sessionId ∧ noteDb.events = db.events ∧
          noteDb.provider = s.db.provider ∧
          noteDb.providerConversationId = s.db.providerConversationId := by
        rcases hcases with heq | ⟨-, heq⟩ <;> rw [heq, hdb] <;> exact ⟨rfl, rfl, rfl, rfl⟩
      obtain ⟨hsession, hevents, hprovider, hpointer⟩ := hfields
      have hof : ∀ binding ∈ noteDb.bindings, ∃ before ∈ s.db.bindings,
          binding = before ∨ launch'.admitted = true ∧ binding = before.settle := by
        intro binding hb
        rcases hcases with heq | ⟨htypes, heq⟩
        · rw [heq, hdb] at hb
          exact ⟨binding, hb, .inl rfl⟩
        · rw [heq, SessionTables.mem_clearPendingSince, hdb] at hb
          obtain ⟨before, hbefore, rfl⟩ := hb
          exact ⟨before, hbefore, .inr ⟨by rw [hlaunch', htypes, Bool.or_true], rfl⟩⟩
      have hwired : Wired noteDb s.conversations := by
        have hstored : Wired db s.conversations := by
          rw [hdb]
          exact { h.wired with }
        rcases hcases with heq | ⟨-, heq⟩ <;> rw [heq]
        · exact hstored
        · exact hstored.clearPendingSince
      have hgrows' : Grows s.db noteDb := hgrows.trans (.of_eq hsession hevents)
      set t := State.learn { s with db := noteDb } launch' with ht
      have hdbT : t.db = noteDb := rfl
      have hlater : Later s t := ⟨hgrows', fun _ hx => mem_learn_of_mem hx, fun _ he => he⟩
      have hpromptT : t.db.newestPrompt = some launch.prompt := by
        rw [hdbT, SessionTables.newestPrompt, hsession, hevents]
        exact hprompt.trans hl.newestPrompt
      have hansweredT : t.db.answered = launch'.admitted := by
        rw [hdbT, hlaunch', ← hl.admitted, ← hanswered]
        simp [SessionTables.answered, SessionTables.newestPrompt, hsession, hevents]
      have hold : ∀ event, t.Message event → event.rowid < launch.prompt.rowid →
          s.Message event := by
        intro event hm hlt
        rcases hgrows'.newer event hm.1 with he | hnew
        · exact hlater.message hm he
        · exact absurd (hnew _ (newest_eq_some hl.newestPrompt).1) (by omega)
      have hlT : LaunchInv t launch' :=
        { newestPrompt := hpromptT
          admitted := hansweredT
          conversation := hpointer.trans hl.conversation
          history := fun id hid event he => (mem_learn hid).mpr (.inl ⟨event, he, rfl⟩)
          told := fun event hm hlt => hl.told event (hold event hm hlt) hlt
          shown := by
            intro event hm hlt
            have hmem' : event ∈ s.db.events ∨ event ∈ rows := (hmem event).mp (hevents ▸ hm.1)
            rcases hmem' with he | he
            · exact List.mem_append_left _ (hl.shown event (hlater.message hm he) hlt)
            · exact List.mem_append_right _ he
          since := by
            intro hresume event hm hlt
            rcases hl.since hresume event (hold event hm hlt) hlt with
              hheld | ⟨since, rowid, hsince, hrow, hlt'⟩
            · exact .inl hheld
            · exact .inr ⟨since, rowid, hsince, eventRowid_of_subset hgrows'.events hrow, hlt'⟩
          fallback := fun rows hrows event hm hlt =>
            hl.fallback rows hrows event (hold event hm hlt) hlt
          debt := by
            intro binding hb hactive since hsince
            obtain ⟨before, hbefore, rfl | ⟨-, rfl⟩⟩ := hof binding hb
            · exact hl.debt binding hbefore hactive since hsince
            · rw [before.state_settle] at hactive
              simp [ProviderBinding.settle, hactive] at hsince
          owed := by
            intro hadmitted since hsince
            obtain ⟨hbefore, hnone⟩ := Bool.or_eq_false_iff.mp hadmitted
            rcases hcases with heq | ⟨htypes, -⟩
            · have howed := hl.owed hbefore since hsince
              rw [hdbT, heq, hdb]
              exact howed
            · rw [hnone] at htypes
              cases htypes }
      refine ⟨hgrows'.distinct h.distinct, hwired, ?_, ?_, ?_⟩
      · intro binding hb eventId howed
        obtain ⟨before, hbefore, rfl | ⟨-, rfl⟩⟩ := hof binding hb
        · exact hlater.holds (h.holds binding hbefore eventId howed)
        · rw [before.key_settle]
          refine hlater.holds (h.holds before hbefore eventId ?_)
          unfold ProviderBinding.settle at howed
          split at howed
          case isTrue hactive => simp [owed, hactive] at howed
          case isFalse => exact howed
      · intro binding hb hactive hpending hproven event hm hsettled
        obtain ⟨hprovider', hid⟩ := hwired.active binding hb hactive
        cases hadmitted : launch'.admitted with
        | true =>
          have hconversation := (hlT.conversation).symm.trans hid
          refine (mem_learn hconversation).mpr (.inl ⟨event, ?_, ?_⟩)
          · exact hlT.mem_history (hgrows'.distinct h.distinct) hadmitted hm
          · rw [ProviderBinding.key, hprovider']
        | false =>
          obtain ⟨before, hbefore, rfl | ⟨htypes, -⟩⟩ := hof binding hb
          · have hlt : event.rowid < launch.prompt.rowid := by
              rcases hsettled with hanswered | hbefore
              · exact absurd (hansweredT.symm.trans hanswered) (by simp [hadmitted])
              · exact hbefore _ hpromptT
            refine mem_learn_of_mem (h.live binding hbefore hactive hpending ?_ event
              (hold event hm hlt) (.inr fun prompt hp => ?_))
            · rintro other hother ⟨hresume, -⟩
              obtain rfl := Option.some.inj (hother.symm.trans hlaunch)
              exact hproven launch' rfl ⟨hresume, hadmitted⟩
            · rwa [← Option.some.inj (hl.newestPrompt.symm.trans hp)]
          · rw [htypes] at hadmitted
            cases hadmitted
      · rintro _ ⟨⟩
        exact hlT

end Argmax.Providers.Continuity
