import Argmax.Providers.ForkPlanHeld

/-!
# The native plan of a fork

An untouched fork is continued from its source's conversation only where that stands at the
fork boundary, or where the provider is told the turn to fork at. Every other launch starts
from the copied events, or resumes a conversation that was reported to the fork itself. What
the provider reports spends the plan, and so do a refused resume that starts again, a clear
and a plan that is dropped.

A fork that has a message of its own and still has its flag is out of account: the code does
not look at the source for its launches.
-/

namespace Argmax.Providers.ForkPlan

open Argmax.Lib Argmax.Persistence Argmax.Persistence.Continuity Argmax.Providers.Continuity
  Argmax.Providers.FollowUp Argmax.Workspaces.Fork

variable {s s' : State} {conversationId now : String}

/-! ## A plan that is used up -/

/-- A fork without the flag on a conversation, and without a turn it could still be forked at. -/
structure Spent (s : State) : Prop where
  unflagged : s.child.resumeFork = true → s.child.providerConversationId = none
  recorded : s.fork.nativeMode = .codexLastTurn → childUntouched s = false

/-- A fork stays touched. -/
theorem touched_of_follows (hforked : Forked s) (hfollows : Follows s s')
    (h : childUntouched s = false) : childUntouched s' = false := by
  rw [childUntouched, Bool.not_eq_false', List.any_eq_true] at h ⊢
  obtain ⟨event, hevent, hown⟩ := h
  rw [hforked.childSessionId] at hown
  simp only [Bool.and_eq_true, beq_iff_eq] at hown
  obtain ⟨⟨hchild, htype⟩, hfloor⟩ := hown
  refine ⟨event, hfollows.kept event hevent hchild, ?_⟩
  rw [hfollows.childSessionId, hfollows.childBaseEventId, hforked.childSessionId]
  simp only [Bool.and_eq_true, beq_iff_eq]
  refine ⟨⟨hchild, htype⟩, ?_⟩
  cases hbase : s.fork.childBaseEventId with
  | none => simpa [hbase] using hfloor
  | some eventId =>
    obtain ⟨base, hmem, hid, hsession⟩ := hforked.base eventId hbase
    have hrow : eventRowid s.events eventId = some base.rowid := hid ▸ eventRowid_of_mem hmem
    have hrow' : eventRowid s'.events eventId = some base.rowid :=
      hid ▸ eventRowid_of_mem (hfollows.kept base hmem hsession)
    simpa [hbase, hrow, hrow'] using hfloor

/-- A message of its own touches a fork. -/
theorem touched_persistEvent {event : NewEvent} (hforked : Forked s)
    (htype : event.type = "user.message")
    (h : persistEvent s s.child.id event = some s') : childUntouched s' = false := by
  obtain ⟨hs, hmem⟩ := persistEvent_eq_some h
  have hfork : s'.fork = s.fork := by rw [hs]
  rw [childUntouched, Bool.not_eq_false', List.any_eq_true]
  refine ⟨_, (hmem _).mpr (.inr rfl), ?_⟩
  rw [hfork, hforked.childSessionId]
  simp only [Bool.and_eq_true, beq_iff_eq, decide_eq_true_eq]
  refine ⟨⟨trivial, htype⟩, ?_⟩
  cases hbase : s.fork.childBaseEventId with
  | none => exact Nat.succ_pos _
  | some eventId =>
    obtain ⟨base, hbaseMem, hid, _⟩ := hforked.base eventId hbase
    have hrow : eventRowid s'.events eventId = some base.rowid :=
      hid ▸ eventRowid_of_mem ((hmem base).mpr (.inl hbaseMem))
    simpa [hrow] using rowid_lt_nextRowid hbaseMem

theorem Spent.of_follows (h : Spent s) (hforked : Forked s) (hfollows : Follows s s')
    (hunflagged : s'.child.resumeFork = true → s'.child.providerConversationId = none)
    (hmode : s'.fork.nativeMode = .codexLastTurn → s.fork.nativeMode = .codexLastTurn) :
    Spent s' :=
  ⟨hunflagged, fun hcodex => touched_of_follows hforked hfollows (h.recorded (hmode hcodex))⟩

/-- A plan that was dropped is spent. -/
theorem Held.spent (h : Held s) (hmode : s.fork.nativeMode = .none) : Spent s :=
  ⟨h.unplanned hmode, by simp [hmode]⟩

section Uses

variable {plan : LaunchPlan} {provider : String}

theorem Spent.planForkFirstTurn (h : Spent s) (hheld : Held s) (hreads : Reads s plan) :
    Spent (planForkFirstTurn s provider plan).1 ∧
      (planForkFirstTurn s provider plan).2.resumeFork = false := by
  have hplan : plan.resumeFork = false := by
    rw [hreads.flag]
    cases hflag : s.child.resumeFork with
    | false => simp
    | true => simp [h.unflagged hflag]
  have ⟨hdropped, hnone, _⟩ := @dropNativePlan_spec s plan provider hheld hreads
  have hmode : (dropNativePlan s plan).1.fork.nativeMode = .none := by
    rw [dropNativePlan]
    split <;> rfl
  have hdrop := hdropped.spent hmode
  simp only [ForkPlan.planForkFirstTurn]
  split
  · exact ⟨h, hplan⟩
  case isFalse hskip =>
    split
    · exact ⟨hdrop, hnone⟩
    · split
      · split
        · exact ⟨hdrop, hnone⟩
        · split <;> exact ⟨h, hplan⟩
      case h_2 hcodex => simp [h.recorded hcodex] at hskip
      · exact ⟨h, hplan⟩

theorem Spent.restoreParked (h : Spent s) (hforked : Forked s) :
    Spent (restoreParked s provider now) := by
  refine h.of_follows hforked (.of_frame (frame_restoreParked s provider now)) ?_ ?_
  · simp only [ForkPlan.restoreParked]
    split
    · simp
    case isFalse hnone => exact fun _ => Option.not_isSome_iff_eq_none.mp hnone
  · simp only [ForkPlan.restoreParked]
    split <;> exact id

theorem Spent.planLaunch (h : Spent s) (hheld : Held s) (hforked : Forked s) {switched : Bool}
    {freshId : String} (hnone : switched = true → s.child.providerConversationId = none) :
    Spent (planLaunch s provider switched freshId now).1 ∧
      (planLaunch s provider switched freshId now).2.resumeFork = false := by
  have hspent : Spent (planned s provider switched now).1 := by
    simp only [planned]
    split
    · exact h.restoreParked hforked
    · exact h
  exact hspent.planForkFirstTurn (@planned_spec s now provider hheld hforked switched hnone).1
    (reads_planned s provider switched now)

end Uses

/-! ## Statements -/

/-- What a statement leaves of a fork: its conversations come from where they came from, and
a spent plan stays spent. -/
structure Keeps (s s' : State) : Prop where
  held : Held s'
  forked : Forked s'
  spent : Spent s → Spent s'

theorem Keeps.of_eq (h : Held s) (hforked : Forked s) (hfollows : Follows s s')
    (heq : s'.holding = s.holding) : Keeps s s' where
  held := h.of_eq heq
  forked := hforked.of_follows hfollows
  spent hspent := by
    simp only [State.holding, Prod.mk.injEq] at heq
    obtain ⟨_, _, hconversation, hflag, _, hmode, _⟩ := heq
    refine hspent.of_follows hforked hfollows ?_ ?_
    · rw [hconversation, hflag]
      exact hspent.unflagged
    · rw [hmode]
      exact id

theorem keeps_adopt (h : Held s) (hforked : Forked s) : Keeps s (adopt s conversationId now) where
  held := h.adopt
  forked := hforked.of_follows (.of_frame rfl)
  spent hspent := by
    refine hspent.of_follows hforked (.of_frame rfl) ?_ id
    intro hflag
    cases hflag

/-- A statement on the tables of the fork. -/
theorem keeps_withTables (h : Held s) (hforked : Forked s) {db : SessionTables}
    (hconversation : db.providerConversationId = s.child.providerConversationId)
    (htrusted : Trusted s.own db) : Keeps s (s.withTables db) := by
  have hflag : (s.withTables db).child.resumeFork = s.child.resumeFork := rfl
  have hsame : (s.withTables db).child.providerConversationId =
      s.child.providerConversationId := hconversation
  refine ⟨?_, hforked.of_follows (.of_frame rfl), fun hspent => ?_⟩
  · constructor
    case flagged => rw [hsame]; exact h.flagged
    case unflagged => rw [hsame]; exact h.unflagged
    case trusted => exact htrusted
    case unplanned => rw [hsame]; exact h.unplanned
    case provider => exact h.provider
    case latest => exact h.latest
    case recorded => exact h.recorded
  · refine hspent.of_follows hforked (.of_frame rfl) ?_ id
    rw [hsame]
    exact hspent.unflagged

theorem Keeps.of_cleared (hforked : Forked s) (hfollows : Follows s s')
    (hmode : s'.fork.nativeMode = .none) (hnone : s'.child.providerConversationId = none)
    (htrusted : Trusted s'.own s'.tables) : Keeps s s' where
  held := held_of_cleared hmode hnone htrusted
  forked := hforked.of_follows hfollows
  spent _ := (held_of_cleared hmode hnone htrusted).spent hmode

theorem Keeps.refl (h : Held s) (hforked : Forked s) : Keeps s s := ⟨h, hforked, id⟩

theorem Keeps.trans {s'' : State} (h : Keeps s s') (h' : Keeps s' s'') : Keeps s s'' :=
  ⟨h'.held, h'.forked, fun hspent => h'.spent (h.spent hspent)⟩

theorem keeps_updateProvider (h : Held s) (hforked : Forked s) (provider : String) :
    Keeps s (updateProvider s provider now) where
  held := h.updateProvider provider
  forked := hforked.of_follows (.of_frame rfl)
  spent hspent := hspent.of_follows hforked (.of_frame rfl) (fun _ => rfl) id

theorem keeps_persistEvent {sessionId : String} {event : NewEvent} (h : Held s)
    (hforked : Forked s) (hstored : persistEvent s sessionId event = some s') : Keeps s s' := by
  refine .of_eq h hforked (follows_persistEvent hstored) ?_
  rw [(persistEvent_eq_some hstored).1]
  rfl

theorem keeps_inferCursor (h : Held s) (hforked : Forked s) (input : SendInput) :
    Keeps s (inferCursor s input) := by
  rw [inferCursor]
  split
  · split
    · exact keeps_adopt h hforked
    · exact .refl h hforked
  · exact .refl h hforked

/-! ## Sends -/

/-- What a send makes of the fork before it plans. -/
theorem prepare_cases (h : Held s) (hforked : Forked s) (input : SendInput) :
    ∃ before, Keeps s before ∧ (prepare s input = (before, none) ∨
      ∃ switched : Bool, (switched = true → before.child.providerConversationId = none) ∧
        prepare s input =
          ((planLaunch before before.child.provider switched input.freshId input.now).1,
            some
              (planLaunch before before.child.provider switched input.freshId input.now).2)) := by
  rw [prepare]
  split
  case h_1 provider _ =>
    have hupdated := @keeps_updateProvider s input.now h hforked provider
    simp only
    split
    · exact ⟨_, hupdated, .inl rfl⟩
    case h_2 stored hstored =>
      have hs := (persistEvent_eq_some hstored).1
      have hnone : stored.child.providerConversationId = none := by rw [hs]; rfl
      have hprovider : stored.child.provider = provider := by rw [hs]; rfl
      exact ⟨stored, hupdated.trans (keeps_persistEvent hupdated.held hupdated.forked hstored),
        .inr ⟨true, fun _ => hnone, by rw [hprovider]⟩⟩
  case h_2 =>
    exact ⟨inferCursor s input, keeps_inferCursor h hforked input, .inr ⟨false, by simp, rfl⟩⟩

/-- **The plan of a send.** -/
theorem prepare_spec (h : Held s) (hforked : Forked s) (input : SendInput) :
    Held (prepare s input).1 ∧ ∀ plan, (prepare s input).2 = some plan →
      SoundPlan (prepare s input).1 (prepare s input).1.child.provider plan := by
  have ⟨before, hbefore, hcases⟩ := prepare_cases h hforked input
  rcases hcases with heq | ⟨switched, hnone, heq⟩ <;> rw [heq]
  · exact ⟨hbefore.held, by simp⟩
  · have ⟨hheld, hsound, hprovider⟩ := @planLaunch_spec before input.now
      before.child.provider hbefore.held hbefore.forked switched input.freshId hnone
    refine ⟨hheld, fun plan hplan => ?_⟩
    cases hplan
    rw [hprovider]
    exact hsound

/-- A spent plan stays spent, and is not chosen. -/
theorem Spent.prepare (h : Spent s) (hheld : Held s) (hforked : Forked s) (input : SendInput) :
    Spent (prepare s input).1 ∧ ∀ plan, (prepare s input).2 = some plan →
      plan.resumeFork = false := by
  have ⟨before, hbefore, hcases⟩ := prepare_cases hheld hforked input
  rcases hcases with heq | ⟨switched, hnone, heq⟩ <;> rw [heq]
  · exact ⟨hbefore.spent h, by simp⟩
  · have ⟨hspent, hflag⟩ := @Spent.planLaunch before input.now before.child.provider
      (hbefore.spent h) hbefore.held hbefore.forked switched input.freshId hnone
    refine ⟨hspent, fun plan hplan => ?_⟩
    cases hplan
    exact hflag

@[simp] theorem launch_dropNativePlan (s : State) (plan : LaunchPlan) :
    (dropNativePlan s plan).1.launch = s.launch := by
  rw [dropNativePlan]
  split <;> rfl

@[simp] theorem launch_planLaunch (s : State) (provider : String) (switched : Bool)
    (freshId now : String) :
    (planLaunch s provider switched freshId now).1.launch = s.launch := by
  have hplanned : (planned s provider switched now).1.launch = s.launch := by
    simp only [planned, restoreParked]
    split
    · split <;> rfl
    · rfl
  rw [planLaunch_eq]
  rcases planForkFirstTurn_fst (planned s provider switched now).1 provider
    (planned s provider switched now).2 with heq | heq <;> simp only [heq]
  · exact hplanned
  · rw [launch_dropNativePlan, hplanned]

@[simp] theorem launch_prepare (s : State) (input : SendInput) :
    (prepare s input).1.launch = s.launch := by
  rw [prepare]
  split
  · simp only
    split
    · rfl
    · rename_i hstored
      rw [launch_planLaunch, (persistEvent_eq_some hstored).1]
      rfl
  · simp only [launch_planLaunch, inferCursor]
    split
    · split <;> rfl
    · rfl

section Launches

variable {jsonText : Json → String} {input : SendInput} {launch : Launch}

/-- What a send leaves, with a launch and without one. -/
theorem send_cases (jsonText : Json → String) (s : State) (input : SendInput) :
    send jsonText s input = s ∨
      send jsonText s input = (prepare s input).1 ∨
      ∃ plan launch stored, s.launch = none ∧ (prepare s input).2 = some plan ∧
        composePrompts jsonText (prepare s input).1 input plan =
          .ok (launch.prompt, launch.freshFallbackPrompt) ∧
        launch.provider = (prepare s input).1.child.provider ∧
        launch.resumeConversationId = plan.resumeConversationId ∧
        launch.resumeFork = plan.resumeFork ∧ launch.forkLastTurnId = plan.forkLastTurnId ∧
        persistEvent (prepare s input).1 (prepare s input).1.child.id
          ⟨input.userEventId, "user.message", input.message, input.payload⟩ = some stored ∧
        send jsonText s input = { stored with
          child := { stored.child with state := "running" }, launch := some launch } := by
  rw [send]
  split
  · exact .inl rfl
  case isFalse hidle =>
    split
    case h_1 before heq => exact .inr (.inl (by rw [heq]))
    case h_2 before plan heq =>
      split
      · exact .inr (.inl (by rw [heq]))
      case h_2 prompt fallback hprompts =>
        split
        · exact .inr (.inl (by rw [heq]))
        case h_2 stored hstored =>
          have hprovider : stored.child.provider = before.child.provider := by
            rw [(persistEvent_eq_some hstored).1]
          refine .inr (.inr ⟨plan, _, stored, by simpa using hidle, by rw [heq], ?_, ?_, rfl, rfl,
            rfl, by rw [heq]; exact hstored, rfl⟩)
          · rw [heq]
            exact hprompts
          · rw [heq]
            exact hprovider

/-! ## Steps -/

theorem keeps_prepare (h : Held s) (hforked : Forked s) (input : SendInput) :
    Keeps s (prepare s input).1 :=
  ⟨(prepare_spec h hforked input).1, hforked.of_follows (follows_prepare s input),
    fun hspent => (hspent.prepare h hforked input).1⟩

theorem keeps_send (h : Held s) (hforked : Forked s) (input : SendInput) :
    Keeps s (send jsonText s input) := by
  have hprepare := keeps_prepare h hforked input
  rcases send_cases jsonText s input with heq | heq | ⟨_, _, stored, _, _, _, _, _, _, _,
    hstored, heq⟩ <;> rw [heq]
  · exact .refl h hforked
  · exact hprepare
  · have hkeeps := keeps_persistEvent hprepare.held hprepare.forked hstored
    exact (hprepare.trans hkeeps).trans (.of_eq hkeeps.held hkeeps.forked (.of_frame rfl) rfl)

theorem keeps_output (h : Held s) (hforked : Forked s) (events : List NewEvent) :
    Keeps s (output s events) := by
  simp only [output]
  split
  case h_1 rows db _ hpersist =>
    obtain ⟨hdb, hgrows⟩ := grows_persistAll hpersist
    have hstored : Keeps s { s with events := db.events } :=
      .of_eq h hforked (.of_events hgrows.events hgrows.newer) rfl
    have htrusted : Trusted s.own db := by
      rw [hdb]
      exact h.trusted
    refine hstored.trans (keeps_withTables hstored.held hstored.forked ?_
      htrusted.noteProviderOutput)
    rw [noteProviderOutput, hdb]
    split <;> rfl
  case h_2 => exact .refl h hforked

theorem keeps_reject (h : Held s) (hforked : Forked s) (freshId : String) :
    Keeps s (reject s freshId now) := by
  rw [reject]
  split
  · exact .refl h hforked
  · split
    · exact .of_cleared hforked (.of_frame rfl) rfl rfl h.trusted.invalidateBinding
    · exact .of_eq h hforked (.of_frame rfl) rfl

theorem keeps_clear (h : Held s) (hforked : Forked s) (eventId : String) :
    Keeps s (clear s eventId now) := by
  have hfollows := follows_clear s eventId now
  rw [clear] at hfollows ⊢
  split at hfollows
  · exact .refl h hforked
  · exact .of_cleared hforked hfollows rfl rfl trusted_invalidateSessionBindings

/-- **Every step.** -/
theorem keeps_step (jsonText : Json → String) (h : Held s) (hforked : Forked s) (act : Act) :
    Keeps s (step jsonText s act) := by
  cases act with
  | send input => exact keeps_send h hforked input
  | report conversationId now =>
    simp only [step, report]
    split
    · exact keeps_adopt h hforked
    · exact .refl h hforked
  | output events => exact keeps_output h hforked events
  | reject freshId now => exact keeps_reject h hforked freshId
  | turnStarted threadId turnId =>
    refine keeps_withTables h hforked ?_ (Trusted.observeProviderLine h.trusted)
    rw [observeProviderLine]
    split
    · rfl
    · split
      · rfl
      · rw [SessionTables.recordBindingTurn]
        split <;> rfl
  | clear eventId now =>
    simp only [step]
    split
    · exact keeps_clear h hforked eventId
    · exact .refl h hforked
  | event sessionId event =>
    simp only [step]
    cases hstored : persistEvent s sessionId event with
    | none => exact .refl h hforked
    | some stored => exact keeps_persistEvent h hforked hstored
  | deleteSource =>
    refine .of_eq h hforked (follows_deleteSource hforked) ?_
    simp only [step, deleteSource]
    split <;> rfl
  | sourceChanges source =>
    exact .of_eq h hforked (follows_step jsonText hforked (.sourceChanges source)) rfl
  | finish | reconfigure => exact .of_eq h hforked (.of_frame rfl) rfl

/-- Only a send begins a launch. -/
theorem isSome_launch_step {act : Act} (hact : ∀ input, act ≠ .send input)
    (h : (step jsonText s act).launch.isSome) : s.launch.isSome := by
  cases act with
  | send input => exact absurd rfl (hact input)
  | report conversationId now =>
    simp only [step, report] at h
    split at h <;> exact h
  | output events =>
    simp only [step, output] at h
    split at h <;> exact h
  | reject freshId now =>
    simp only [step, reject] at h
    split at h
    · exact h
    case h_2 launch hlaunch => simp [hlaunch]
  | finish state => cases h
  | clear eventId now =>
    simp only [step, clear] at h
    split at h
    · split at h
      · exact h
      case h_2 hstored =>
        rw [(persistEvent_eq_some hstored).1] at h
        exact h
    · exact h
  | event sessionId event =>
    simp only [step] at h
    cases hstored : persistEvent s sessionId event with
    | none => simpa [hstored] using h
    | some stored =>
      rw [hstored, (persistEvent_eq_some hstored).1] at h
      exact h
  | deleteSource =>
    simp only [step, deleteSource] at h
    split at h <;> exact h
  | turnStarted | sourceChanges | reconfigure => exact h

/-- A launch goes with a message of the fork's own. -/
theorem touched_step (hforked : Forked s) (htouched : s.launch.isSome → childUntouched s = false)
    (act : Act) (hlaunch : (step jsonText s act).launch.isSome) :
    childUntouched (step jsonText s act) = false := by
  have hstays : s.launch.isSome → childUntouched (step jsonText s act) = false := fun hsome =>
    touched_of_follows hforked (follows_step jsonText hforked act) (htouched hsome)
  cases act with
  | send input =>
    rcases send_cases jsonText s input with heq | heq | ⟨_, _, stored, _, _, _, _, _, _, _,
      hstored, heq⟩ <;> simp only [step] at hlaunch hstays ⊢ <;> rw [heq] at hlaunch hstays ⊢
    · exact hstays hlaunch
    · exact hstays (launch_prepare s input ▸ hlaunch)
    · have hforked' := hforked.of_follows (follows_prepare s input)
      have htouched' := touched_persistEvent hforked' rfl hstored
      exact touched_of_follows (hforked'.of_follows (follows_persistEvent hstored))
        (.of_frame rfl) htouched'
  | report | output | reject | finish | turnStarted | clear | event | sourceChanges
  | deleteSource | reconfigure => exact hstays (isSome_launch_step (by simp) hlaunch)

/-! ## Runs -/

/-- What holds of a fork all the time. -/
structure Inv (s : State) : Prop where
  held : Held s
  forked : Forked s
  copied : Copied s
  touched : s.launch.isSome → childUntouched s = false

theorem inv_step (jsonText : Json → String) (h : Inv s) (act : Act) :
    Inv (step jsonText s act) where
  held := (keeps_step jsonText h.held h.forked act).held
  forked := (keeps_step jsonText h.held h.forked act).forked
  copied := h.copied.of_follows (follows_step jsonText h.forked act)
  touched := touched_step h.forked h.touched act

/-- The step uses the native plan up: an id is reported, a refused resume starts again, or
the plan is gone after it. -/
def Spends (jsonText : Json → String) (s : State) (act : Act) : Prop :=
  match act with
  | .report _ _ => s.launch.isSome
  | .reject freshId _ => s.launch.any fun launch => (freshRetryInput launch freshId).isSome
  | act => s.fork.nativeMode ≠ .none ∧ (step jsonText s act).fork.nativeMode = .none

theorem spent_of_spends (h : Inv s) {act : Act} (hspends : Spends jsonText s act) :
    Spent (step jsonText s act) := by
  have hinv := inv_step jsonText h act
  cases act with
  | report conversationId now =>
    have htouched := touched_of_follows h.forked
      (follows_step jsonText h.forked (.report conversationId now)) (h.touched hspends)
    refine ⟨fun hflag => ?_, fun _ => htouched⟩
    have hsome : s.launch.isSome = true := hspends
    simp only [step, report, if_pos hsome] at hflag
    cases hflag
  | reject freshId now =>
    refine hinv.held.spent ?_
    simp only [Spends, Option.any_eq_true] at hspends
    obtain ⟨launch, hlaunch, hretry⟩ := hspends
    obtain ⟨retry, heq⟩ := Option.isSome_iff_exists.mp hretry
    obtain ⟨rejected, hrejected⟩ : ∃ rejected, launch.resumeConversationId = some rejected := by
      rw [freshRetryInput] at heq
      split at heq
      case h_1 hresume => exact ⟨_, hresume⟩
      case h_2 => cases heq
    simp only [step, reject, hlaunch, heq, hrejected]
    rfl
  | send | output | finish | turnStarted | clear | event | sourceChanges | deleteSource
  | reconfigure => exact hinv.held.spent hspends.2

/-! ## Launches -/

/-- The prompt retells what the fork holds, the copies first. -/
def Retold (jsonText : Json → String) (s : State) (input : SendInput) (prompt : String) : Prop :=
  composeFollowUpPromptSince jsonText s.events s.child.id input.message false none = .ok prompt

/-- A launch, and the state it is planned in. -/
structure SoundLaunch (jsonText : Json → String) (s : State) (input : SendInput)
    (launch : Launch) : Prop where
  /-- An untouched fork is continued natively at its boundary only, and can fall back. -/
  native : childUntouched s = true → launch.resumeFork = true →
    AtForkPoint s launch.provider launch.resumeConversationId launch.forkLastTurnId ∧
      (input.references = false → launch.freshFallbackPrompt.isSome = true)
  /-- Without the fork flag it resumes what was reported to the fork. -/
  own : launch.resumeFork = false → ∀ id, launch.resumeConversationId = some id → id ∈ s.own
  /-- Without a conversation it starts from the history. -/
  fresh : launch.resumeConversationId = none →
    launch.resumeFork = false ∧ Retold jsonText s input launch.prompt
  /-- So does the launch after a refused resume. -/
  retry : ∀ freshId retry, freshRetryInput launch freshId = some retry →
    retry.resumeConversationId = none ∧ retry.resumeFork = false ∧
      Retold jsonText s input retry.prompt
  history : History s

/-- What the prompts of a launch are composed from. -/
theorem composePrompts_spec {plan : LaunchPlan} {prompt : String} {fallback : Option String}
    (h : composePrompts jsonText s input plan = .ok (prompt, fallback)) :
    (plan.resumeConversationId = none → Retold jsonText s input prompt) ∧
      (∀ text, fallback = some text → Retold jsonText s input text) ∧
      (plan.needsFallbackPrompt = true → input.references = false → fallback.isSome = true) := by
  rw [composePrompts] at h
  cases hprompt : composeFollowUpPromptSince jsonText s.events s.child.id input.message
      plan.resumeConversationId.isSome plan.sinceEventId with
  | error message =>
    rw [hprompt] at h
    cases h
  | ok composed =>
    have hfresh : plan.resumeConversationId = none → Retold jsonText s input composed := by
      intro hnone
      rw [hnone] at hprompt
      exact hprompt
    rw [hprompt] at h
    split at h
    · cases hfallback : composeFollowUpPromptSince jsonText s.events s.child.id input.message
          false none with
      | error message =>
        rw [hfallback] at h
        cases h
      | ok text =>
        rw [hfallback] at h
        cases h
        refine ⟨hfresh, fun other heq => ?_, fun _ _ => rfl⟩
        cases heq
        exact hfallback
    case isFalse hneeds =>
      cases h
      refine ⟨hfresh, by simp, fun hneeded hreferences => ?_⟩
      simp [hneeded, hreferences] at hneeds

/-- **A launch.** -/
theorem soundLaunch (h : Inv s) (hidle : s.launch = none)
    (hlaunch : (send jsonText s input).launch = some launch) :
    SoundLaunch jsonText (prepare s input).1 input launch := by
  have hplans := (prepare_spec h.held h.forked input).2
  have hhistory := (h.copied.of_follows (follows_prepare s input)).history
  rcases send_cases jsonText s input with heq | heq | ⟨plan, started, stored, _, hplan, hprompts,
    hprovider, hresume, hflag, hturn, _, heq⟩
  · rw [heq, hidle] at hlaunch
    cases hlaunch
  · rw [heq, launch_prepare, hidle] at hlaunch
    cases hlaunch
  · have hsame : started = launch := by
      rw [heq] at hlaunch
      exact Option.some.inj hlaunch
    subst hsame
    have hsound := hplans plan hplan
    have ⟨hfresh, hfallback, hneeded⟩ := composePrompts_spec hprompts
    constructor
    case native =>
      intro huntouched hnative
      rw [hprovider, hresume, hturn]
      have ⟨hpoint, hneeds⟩ := hsound.native huntouched (hflag ▸ hnative)
      exact ⟨hpoint, hneeded hneeds⟩
    case own => rw [hflag, hresume]; exact hsound.own
    case fresh =>
      rw [hflag, hresume]
      exact fun hnone => ⟨hsound.fresh hnone, hfresh hnone⟩
    case retry =>
      intro freshId retry hretry
      rw [freshRetryInput] at hretry
      split at hretry
      case h_1 hsome _ =>
        cases hretry
        exact ⟨rfl, rfl, hfallback _ hsome⟩
      case h_2 => cases hretry
    case history => exact hhistory

/-- **A spent plan.** -/
theorem Spent.resumeFork_launch (h : Spent s) (hinv : Inv s) (hidle : s.launch = none)
    (hlaunch : (send jsonText s input).launch = some launch) : launch.resumeFork = false := by
  have hplans := (h.prepare hinv.held hinv.forked input).2
  rcases send_cases jsonText s input with heq | heq | ⟨plan, started, stored, _, hplan, _, _, _,
    hflag, _, _, heq⟩
  · rw [heq, hidle] at hlaunch
    cases hlaunch
  · rw [heq, launch_prepare, hidle] at hlaunch
    cases hlaunch
  · have hsame : started = launch := by
      rw [heq] at hlaunch
      exact Option.some.inj hlaunch
    rw [← hsame, hflag]
    exact hplans plan hplan

end Launches

/-! ## A new fork -/

section New

variable {events : EventTable} {source : Session} {selection : ForkSelection}
  {configIdentity : String → String} {input : ForkInput}

/-- The session of a new fork carries the conversation of its source, under the flag, or
none. -/
theorem forkedSession_spec {mode : NativeMode} :
    let session := forkedSession source mode configIdentity input
    (session.resumeFork = false ∧ session.providerConversationId = none ∧
        session.bindings = .empty) ∨
      (mode = .resumeFork ∧ session.resumeFork = true ∧
        session.providerConversationId = source.providerConversationId ∧
        ∀ binding ∈ session.bindings, binding.state = .invalid) := by
  simp only [forkedSession]
  split
  case h_1 id hid =>
    split
    case isTrue hmode =>
      refine .inr ⟨hmode, rfl, hid.symm, fun binding hmem => ?_⟩
      simp only [Session.setResumeFork, Session.withTables,
        SessionTables.invalidateSessionBindings, Table.mem_update] at hmem
      obtain ⟨before, _, heq⟩ := hmem
      exact heq ▸ before.state_distrust _ _
    case isFalse => exact .inl ⟨rfl, rfl, rfl⟩
  case h_2 => exact .inl ⟨rfl, rfl, rfl⟩

theorem held_forked (h : forked events source selection configIdentity input = some s) :
    Held s := by
  have ⟨mode, turn, _, hplan, _, _, _, hchild, _, _, hown, _, hpoint, _, _, _, _, hmode, hprovider,
    hid, hturn⟩ := forked_eq_some h
  have ⟨hlatest, hrecorded⟩ := nativePlan_spec hplan
  have hcarries := @forkedSession_spec source configIdentity input mode
  simp only [← hchild] at hcarries
  constructor
  case trusted =>
    intro binding hmem hstate
    have hmem' : binding ∈ s.child.bindings := hmem
    rcases hcarries with ⟨-, -, hempty⟩ | ⟨-, -, -, hinvalid⟩
    · simp [hempty] at hmem'
    · exact absurd (hinvalid binding hmem') hstate
  all_goals simp only [hpoint, hmode, hown, hid, hprovider, hturn]
  case flagged =>
    intro hflag id heq
    rcases hcarries with ⟨hnone, -⟩ | ⟨-, -, hsame, -⟩
    · simp [hnone] at hflag
    · rw [← hsame, heq]
  case unflagged =>
    intro hflag id heq
    rcases hcarries with ⟨-, hnone, -⟩ | ⟨-, hflagged, -⟩
    · simp [hnone] at heq
    · simp [hflagged] at hflag
  case unplanned =>
    intro hnone hflag
    rcases hcarries with ⟨-, hconversation, -⟩ | ⟨hresume, -⟩
    · exact hconversation
    · simp [hresume] at hnone
  case provider => exact fun hne => by simp [hne]
  case latest => exact hlatest
  case recorded =>
    intro hcodex
    rcases hcarries with ⟨hflag, -⟩ | ⟨hresume, -⟩
    · refine ⟨hflag, fun id turnId hsome hturn' => ?_⟩
      rw [if_pos hcodex] at hsome
      have ⟨hsourceProvider, hrecord⟩ := hrecorded hcodex
      exact ⟨hsourceProvider, hsome, hrecord id turnId hsome hturn'⟩
    · simp [hresume] at hcodex

theorem inv_forked {selected : EventTable} {sourceThen : Session} {boundaryEventId : Option String}
    (hselect : selectForkRange selected sourceThen boundaryEventId = .ok selection)
    (hselected : ∀ event ∈ selected, event ∈ events)
    (h : forked events source selection configIdentity input = some s) : Inv s where
  held := held_forked h
  forked := forked_forked hselect hselected h
  copied := copied_forked h
  touched hsome := by
    have ⟨_, _, _, _, _, _, _, _, _, _, _, hnone, _⟩ := forked_eq_some h
    simp [hnone] at hsome

/-- **The native plan of a fork.** In every run each launch is sound, the fork holds the
history of its source up to the fork boundary and nothing newer from there, and a plan that
was used up is never chosen again. -/
theorem fork_plan (jsonText : Json → String) {selected : EventTable} {sourceThen : Session}
    {boundaryEventId : Option String}
    (hselect : selectForkRange selected sourceThen boundaryEventId = .ok selection)
    (hselected : ∀ event ∈ selected, event ∈ events) {s₀ : State}
    (hforked : forked events source selection configIdentity input = some s₀) (as : List Act) :
    let s := run (step jsonText) s₀ as
    History s ∧
      (∀ message launch, s.launch = none → (send jsonText s message).launch = some launch →
        SoundLaunch jsonText (prepare s message).1 message launch) ∧
      ∀ act, Spends jsonText s act → ∀ bs message launch,
        let s' := run (step jsonText) (step jsonText s act) bs
        s'.launch = none → (send jsonText s' message).launch = some launch →
          launch.resumeFork = false := by
  have hinv := @run_invariant _ _ (step jsonText) Inv (fun s act hs => inv_step jsonText hs act) _
    (inv_forked hselect hselected hforked) as
  refine ⟨hinv.copied.history, fun message launch hidle hlaunch => soundLaunch hinv hidle hlaunch,
    ?_⟩
  intro act hspends bs message launch s' hidle hlaunch
  have hspent := @run_invariant _ _ (step jsonText) (fun s => Inv s ∧ Spent s)
    (fun s act hs => ⟨inv_step jsonText hs.1 act,
      (keeps_step jsonText hs.1.held hs.1.forked act).spent hs.2⟩)
    _ ⟨inv_step jsonText hinv act, spent_of_spends hinv hspends⟩ bs
  exact hspent.2.resumeFork_launch hspent.1 hidle hlaunch

end New

/-! ## A chat of one turn -/

/-- The chat `s`, with one message. -/
def oneTurn : EventTable :=
  ⟨[⟨1, "asked", "s", "user.message", "Build the exporter", .object []⟩], by decide⟩

/-- Its session, with a conversation of Codex and the turn of the message. -/
def source : Session :=
  { id := "s"
    provider := "codex"
    state := "complete"
    providerConversationId := some "thread"
    resumeFork := false
    bindings := ⟨[⟨0, "codex", "thread", "/repo", "", none, none, .active, none, "1"⟩], by decide⟩
    turns := ⟨[⟨0, "asked", "turn"⟩], by decide⟩
    nextBindingId := 1
    workspacePath := "/repo" }

def selection : ForkSelection :=
  { boundaryEventId := some "asked", lastRowid := 1, lastEventId := some "asked", isLatest := true }

def forkInput : ForkInput :=
  { workspace := .shared
    sessionId := "child"
    forkId := "fork"
    workspacePath := "/repo"
    draw := fun id => "copy-" ++ id
    now := "2" }

def followUp : SendInput :=
  { provider := none
    message := "Now the importer"
    payload := .object []
    references := false
    inferred := none
    userEventId := "next"
    switchEventId := "switch"
    freshId := "fresh"
    now := "3" }

theorem selectForkRange_oneTurn : selectForkRange oneTurn source none = .ok selection := by
  rfl

theorem isSome_forked :
    (forked oneTurn source selection (fun _ => "") forkInput).isSome = true := by
  decide +kernel

/-- The first message of this fork. -/
theorem fork_plan_oneTurn :
    ∃ s₀ launch, forked oneTurn source selection (fun _ => "") forkInput = some s₀ ∧
      (send (fun _ => "") s₀ followUp).launch = some launch ∧
      SoundLaunch (fun _ => "") (prepare s₀ followUp).1 followUp launch := by
  have hforked := (Option.some_get isSome_forked).symm
  have hsome : (send (fun _ => "") (Option.get _ isSome_forked) followUp).launch.isSome = true := by
    decide +kernel
  have hidle : (Option.get _ isSome_forked).launch = none := by decide +kernel
  have hplan := fork_plan (fun _ => "") selectForkRange_oneTurn (fun _ h => h) hforked []
  exact ⟨_, _, hforked, (Option.some_get hsome).symm,
    hplan.2.1 _ _ hidle (Option.some_get hsome).symm⟩

/-- The source takes another turn, and the fork is still continued natively, at the turn that
was recorded. -/
theorem forked_past_boundary :
    ∃ s₀ launch, forked oneTurn source selection (fun _ => "") forkInput = some s₀ ∧
      let s := run (step fun _ => "") s₀
        [.event "s" ⟨"later", "user.message", "And the tests", .object []⟩]
      (childUntouched s = true ∧ sourceAtBoundary s = false) ∧
        (send (fun _ => "") s followUp).launch = some launch ∧ launch.resumeFork = true := by
  have hforked := (Option.some_get isSome_forked).symm
  let s := run (step fun _ => "") (Option.get _ isSome_forked)
    [.event "s" ⟨"later", "user.message", "And the tests", .object []⟩]
  have hnative : (send (fun _ => "") s followUp).launch.any (·.resumeFork) = true := by
    decide +kernel
  have ⟨launch, hlaunch, hflag⟩ := (Option.any_eq_true _ _).mp hnative
  exact ⟨_, launch, hforked, by decide +kernel, hlaunch, hflag⟩

end Argmax.Providers.ForkPlan
