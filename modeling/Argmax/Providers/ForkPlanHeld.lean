import Argmax.Providers.ForkPlanRows

/-!
# What a fork resumes

Under the fork flag a fork carries the id of its source's conversation. Any other conversation
it carries or could rejoin was reported to the fork itself. So a plan names the source's
conversation only under the flag.
-/

namespace Argmax.Providers.ForkPlan

open Argmax.Lib Argmax.Persistence Argmax.Persistence.Continuity Argmax.Providers.Continuity
  Argmax.Workspaces.Fork

variable {s s' : State} {conversationId now : String}

/-! ## Trusted bindings -/

/-- The bindings that may be rejoined are of these conversations. -/
def Trusted (own : List String) (db : SessionTables) : Prop :=
  ∀ binding ∈ db.bindings, binding.state ≠ .invalid → binding.conversationId ∈ own

section Bindings

variable {own : List String} {db : SessionTables} {provider reason eventId : String}

theorem Trusted.mono (h : Trusted own db) : Trusted (conversationId :: own) db :=
  fun binding hmem hstate => List.mem_cons_of_mem _ (h binding hmem hstate)

theorem Trusted.bindActive (h : Trusted own db) (hown : conversationId ∈ own) :
    Trusted own (db.bindActive conversationId now) := by
  intro binding hmem hstate
  rcases SessionTables.mem_bindActive.mp hmem with heq | ⟨hold, -⟩
  · have hkey := @SessionTables.key_boundRow db conversationId now
      (db.findBinding db.provider conversationId)
      fun before hbefore => (SessionTables.findBinding_eq_some.mp hbefore).2
    rw [← heq] at hkey
    have hid : binding.conversationId = conversationId := congrArg Prod.snd hkey
    rwa [hid]
  · exact h binding hold hstate

theorem Trusted.parkActive (h : Trusted own db) : Trusted own (db.parkActive now) := by
  intro binding hmem hstate
  have ⟨before, hold, heq⟩ := SessionTables.mem_parkActive.mp hmem
  have hid : before.conversationId = binding.conversationId := by
    rw [← heq]
    exact (congrArg Prod.snd (before.key_park db.deliveredBoundary now)).symm
  refine hid ▸ h before hold fun hinvalid => hstate ?_
  rw [← heq, ProviderBinding.park, if_neg (by simp [hinvalid]), hinvalid]

theorem Trusted.setPendingSince (h : Trusted own db) :
    Trusted own (db.setPendingSince provider conversationId eventId now) := by
  intro binding hmem hstate
  have ⟨before, hold, heq⟩ := (SessionTables.mem_updateBinding _ _).mp hmem
  have hbefore := h before hold
  split at heq <;> subst heq <;> exact hbefore hstate

theorem Trusted.invalidateBinding (h : Trusted own db) :
    Trusted own (db.invalidateBinding provider conversationId reason now) := by
  intro binding hmem hstate
  have ⟨before, hold, _, hcases⟩ := SessionTables.of_mem_invalidateBinding hmem
  rcases hcases with ⟨-, hinvalid⟩ | ⟨-, heq⟩
  · exact absurd hinvalid hstate
  · exact heq ▸ h before hold (heq ▸ hstate)

theorem Trusted.clearPendingSince (h : Trusted own db) : Trusted own db.clearPendingSince := by
  intro binding hmem hstate
  have ⟨before, hold, heq⟩ := SessionTables.mem_clearPendingSince.mp hmem
  rw [← heq, ProviderBinding.state_settle] at hstate
  have hid : before.conversationId = binding.conversationId := by
    rw [← heq]
    exact (congrArg Prod.snd before.key_settle).symm
  exact hid ▸ h before hold hstate

theorem trusted_invalidateSessionBindings :
    Trusted own (db.invalidateSessionBindings reason now) := by
  intro binding hmem hstate
  simp only [SessionTables.invalidateSessionBindings, Table.mem_update] at hmem
  obtain ⟨before, _, heq⟩ := hmem
  exact absurd (heq ▸ before.state_distrust reason now) hstate

theorem Trusted.noteProviderOutput {types : List String} (h : Trusted own db) :
    Trusted own (noteProviderOutput db types) := by
  rw [Continuity.noteProviderOutput]
  split
  · exact h.clearPendingSince
  · exact h

theorem Trusted.observeProviderLine {threadId turnId : String} (h : Trusted own db) :
    Trusted own (observeProviderLine db threadId turnId) := by
  rw [Continuity.observeProviderLine]
  split
  · exact h
  · split
    · exact h
    · rw [SessionTables.recordBindingTurn]
      split <;> exact h

/-- Right after a switch, what is rejoined was trusted. -/
theorem Trusted.restoreParkedBinding (h : Trusted own db)
    (hnone : db.providerConversationId = none) :
    (∀ id, (restoreParkedBinding db provider now).providerConversationId = some id → id ∈ own) ∧
      Trusted own (restoreParkedBinding db provider now) := by
  rw [Continuity.restoreParkedBinding]
  split
  · simp [hnone, h]
  case h_2 binding hparked =>
    have ⟨hmem, _, hstate⟩ := SessionTables.findParked_eq_some hparked
    have hown := h binding hmem (by simp [hstate])
    simp only
    split
    · refine ⟨?_, h.invalidateBinding⟩
      intro id hid
      cases hnone.symm.trans hid
    · refine ⟨?_, Trusted.setPendingSince (Trusted.bindActive h hown)⟩
      intro id hid
      cases hid
      exact hown

end Bindings

/-! ## Where conversations come from -/

/-- Where the conversations of a fork come from. -/
structure Held (s : State) : Prop where
  /-- Under the fork flag it is the one of the source. -/
  flagged : s.child.resumeFork = true → ∀ id, s.child.providerConversationId = some id →
    s.point.source.providerConversationId = some id
  unflagged : s.child.resumeFork = false → ∀ id, s.child.providerConversationId = some id →
    id ∈ s.own
  trusted : Trusted s.own s.tables
  unplanned : s.fork.nativeMode = .none → s.child.resumeFork = true →
    s.child.providerConversationId = none
  provider : s.fork.nativeMode ≠ .none → s.fork.nativeProvider = some s.point.source.provider
  latest : s.fork.nativeMode = .resumeFork → s.point.selection.isLatest = true
  recorded : s.fork.nativeMode = .codexLastTurn → s.child.resumeFork = false ∧
    ∀ id turnId, s.fork.nativeConversationId = some id → s.fork.nativeTurnId = some turnId →
      s.point.source.provider = "codex" ∧ s.point.source.providerConversationId = some id ∧
        recordedTurn s.point.events s.point.source s.point.selection id = some turnId

/-- What `Held` is about. -/
def State.holding (s : State) :=
  (s.point, s.own, s.child.providerConversationId, s.child.resumeFork, s.child.bindings,
    s.fork.nativeMode, s.fork.nativeProvider, s.fork.nativeConversationId, s.fork.nativeTurnId)

theorem Held.of_eq (h : Held s) (heq : s'.holding = s.holding) : Held s' := by
  simp only [State.holding, Prod.mk.injEq] at heq
  have ⟨hpoint, hown, hconversation, hflag, hbindings, hmode, hprovider, hid, hturn⟩ := heq
  have htrusted : Trusted s'.own s'.tables := by
    have hrows : s'.tables.bindings = s.tables.bindings := hbindings
    rw [hown, Trusted, hrows]
    exact h.trusted
  constructor
  case trusted => exact htrusted
  all_goals simp only [hpoint, hown, hconversation, hflag, hmode, hprovider, hid, hturn]
  case flagged => exact h.flagged
  case unflagged => exact h.unflagged
  case unplanned => exact h.unplanned
  case provider => exact h.provider
  case latest => exact h.latest
  case recorded => exact h.recorded

/-- No conversation, and a flag that need not have gone. -/
theorem Held.of_none (h : Held s) (hpoint : s'.point = s.point) (hfork : s'.fork = s.fork)
    (hown : s'.own = s.own) (hnone : s'.child.providerConversationId = none)
    (hflag : s'.child.resumeFork = s.child.resumeFork) (htrusted : Trusted s.own s'.tables) :
    Held s' := by
  constructor
  case trusted => exact hown ▸ htrusted
  all_goals simp only [hpoint, hfork, hnone, hflag]
  case provider => exact h.provider
  case latest => exact h.latest
  case recorded => exact h.recorded
  all_goals simp

/-- A conversation of the fork's own. -/
theorem Held.of_own (h : Held s) (hpoint : s'.point = s.point) (hfork : s'.fork = s.fork)
    (hconversation : ∀ id, s'.child.providerConversationId = some id → id ∈ s'.own)
    (hflag : s'.child.resumeFork = false) (htrusted : Trusted s'.own s'.tables) : Held s' := by
  constructor
  case trusted => exact htrusted
  all_goals simp only [hpoint, hfork, hflag]
  case unflagged => exact fun _ => hconversation
  case provider => exact h.provider
  case latest => exact h.latest
  case recorded => exact fun hmode => ⟨trivial, (h.recorded hmode).2⟩
  all_goals simp

/-- Neither a conversation nor a plan. -/
theorem held_of_cleared (hmode : s.fork.nativeMode = .none)
    (hnone : s.child.providerConversationId = none) (htrusted : Trusted s.own s.tables) :
    Held s := by
  constructor <;> simp_all

theorem Held.adopt (h : Held s) : Held (adopt s conversationId now) := by
  refine h.of_own rfl rfl ?_ rfl ?_
  · intro id heq
    cases heq
    exact List.mem_cons_self
  · exact (Trusted.mono h.trusted).bindActive List.mem_cons_self

theorem Held.updateProvider (h : Held s) (provider : String) :
    Held (updateProvider s provider now) :=
  h.of_none rfl rfl rfl rfl rfl (h.trusted.parkActive)

theorem Held.restoreParked (h : Held s) (hnone : s.child.providerConversationId = none)
    (provider : String) : Held (restoreParked s provider now) := by
  have ⟨hown, htrusted⟩ :=
    @Trusted.restoreParkedBinding now s.own s.tables provider h.trusted hnone
  simp only [ForkPlan.restoreParked]
  split
  · exact h.of_own rfl rfl hown rfl htrusted
  case isFalse hstill =>
    exact h.of_none rfl rfl rfl (Option.not_isSome_iff_eq_none.mp hstill) rfl htrusted

/-! ## The plan -/

/-- The fork may be continued from the source's own conversation. -/
structure AtForkPoint (s : State) (provider : String) (conversationId turnId : Option String) :
    Prop where
  /-- The source is there and does nothing. -/
  idle : ∃ source, s.source = some source ∧ source.id = s.point.source.id ∧
    activeStates.contains source.state = false
  sameProvider : provider = s.point.source.provider
  conversation : conversationId.isSome = true ∧
    conversationId = s.point.source.providerConversationId
  /-- The source has taken no turn since, or the provider is told at which turn to fork. -/
  stands :
    (turnId = none ∧ s.point.selection.isLatest = true ∧
      (s.point.selection.lastEventId.isSome → ∀ row ∈ s.events,
        row.sessionId = s.point.source.id → row.type = "user.message" →
          row.rowid ≤ s.point.selection.lastRowid)) ∨
    ∃ id turn, conversationId = some id ∧ turnId = some turn ∧ provider = "codex" ∧
      recordedTurn s.point.events s.point.source s.point.selection id = some turn

structure SoundPlan (s : State) (provider : String) (plan : LaunchPlan) : Prop where
  native : childUntouched s = true → plan.resumeFork = true →
    AtForkPoint s provider plan.resumeConversationId plan.forkLastTurnId ∧
      plan.needsFallbackPrompt = true
  own : plan.resumeFork = false → ∀ id, plan.resumeConversationId = some id → id ∈ s.own
  fresh : plan.resumeConversationId = none → plan.resumeFork = false

/-- What a plan starts from: the conversation the fork holds. -/
structure Reads (s : State) (plan : LaunchPlan) : Prop where
  conversation : plan.resumeConversationId = s.child.providerConversationId
  flag : plan.resumeFork = (s.child.providerConversationId.isSome && s.child.resumeFork)
  turn : plan.forkLastTurnId = none

section Plans

variable {plan : LaunchPlan} {provider : String}

/-- The plan of a conversation that is not forked. -/
theorem soundPlan_of_reads (h : Held s) (hreads : Reads s plan)
    (hnative : childUntouched s = true → plan.resumeFork = false) : SoundPlan s provider plan where
  native huntouched hflag := by simp [hnative huntouched] at hflag
  own hflag id hid := by
    rw [hreads.conversation] at hid
    refine h.unflagged ?_ id hid
    simpa [hreads.flag, hid] using hflag
  fresh hnone := by
    rw [hreads.conversation] at hnone
    simp [hreads.flag, hnone]

theorem dropNativePlan_spec (h : Held s) (hreads : Reads s plan) :
    Held (dropNativePlan s plan).1 ∧ (dropNativePlan s plan).2.resumeFork = false ∧
      SoundPlan (dropNativePlan s plan).1 provider (dropNativePlan s plan).2 := by
  rw [dropNativePlan]
  split
  · exact ⟨held_of_cleared rfl rfl h.trusted, rfl, by simp, by simp, fun _ => rfl⟩
  case isFalse hflag =>
    have hplan : plan.resumeFork = false := by simpa using hflag
    have hunflagged : s.child.resumeFork = true → s.child.providerConversationId = none := by
      intro heq
      simpa [hreads.flag, heq] using hplan
    have hheld : Held { s with fork := s.fork.clearForkNativePlan } :=
      ⟨h.flagged, h.unflagged, h.trusted, fun _ => hunflagged, fun hmode => absurd rfl hmode,
        by simp [SessionFork.clearForkNativePlan], by simp [SessionFork.clearForkNativePlan]⟩
    exact ⟨hheld, hplan, soundPlan_of_reads hheld ⟨hreads.conversation, hreads.flag, hreads.turn⟩
      fun _ => hplan⟩

theorem sourceAtBoundary_spec (h : Forked s) (hsome : s.source.isSome)
    (hboundary : sourceAtBoundary s = true) (hlast : s.point.selection.lastEventId.isSome) :
    ∀ row ∈ s.events, row.sessionId = s.point.source.id → row.type = "user.message" →
      row.rowid ≤ s.point.selection.lastRowid := by
  have ⟨source, hsource⟩ := Option.isSome_iff_exists.mp hsome
  have ⟨last, heq⟩ := Option.isSome_iff_exists.mp hlast
  have hid : s.fork.sourceSessionId = some s.point.source.id := by
    rw [h.sourceSessionId, hsource, Option.map_some, h.source source hsource]
  rw [sourceAtBoundary, hid, h.last.1, heq] at hboundary
  simp only [h.last.2 last heq hsome] at hboundary
  intro row hrow hsession htype
  by_contra hlt
  simp only [Bool.not_eq_true', List.any_eq_false] at hboundary
  exact hboundary row hrow (by simp [hsession, htype]; omega)

/-- An idle source is there. -/
theorem exists_source (h : Forked s) (hidle : sourceIsActive s = false) :
    ∃ source, s.source = some source ∧ source.id = s.point.source.id ∧
      activeStates.contains source.state = false := by
  rw [sourceIsActive] at hidle
  split at hidle
  case h_1 source hsource => exact ⟨source, hsource, h.source source hsource, hidle⟩
  case h_2 => cases hidle

/-- **The plan of the first turn.** -/
theorem planForkFirstTurn_spec (h : Held s) (hforked : Forked s) (hreads : Reads s plan) :
    Held (planForkFirstTurn s provider plan).1 ∧
      SoundPlan (planForkFirstTurn s provider plan).1 provider
        (planForkFirstTurn s provider plan).2 := by
  obtain ⟨hdropped, _, hdrop⟩ := @dropNativePlan_spec s plan provider h hreads
  simp only [planForkFirstTurn]
  by_cases hskip : (decide (s.fork.nativeMode = .none) || !childUntouched s) = true
  · rw [if_pos (by simpa using hskip)]
    refine ⟨h, soundPlan_of_reads h hreads fun huntouched => ?_⟩
    have hmode : s.fork.nativeMode = .none := by simpa [huntouched] using hskip
    rw [hreads.flag]
    cases hflag : s.child.resumeFork with
    | false => simp
    | true => simp [h.unplanned hmode hflag]
  · rw [if_neg (by simpa using hskip)]
    split
    · exact ⟨hdropped, hdrop⟩
    · have hmode : s.fork.nativeMode ≠ .none := by
        intro heq
        simp [heq] at hskip
      have hprovider : ∀ {given}, (s.fork.nativeProvider == some given) = true →
          given = s.point.source.provider := by
        intro given heq
        rw [h.provider hmode] at heq
        simpa using (beq_iff_eq.mp heq).symm
      split
      case h_1 hlatest =>
        split
        · exact ⟨hdropped, hdrop⟩
        case isFalse hstands =>
          split
          case isTrue hflag =>
            simp only [hflag, Bool.true_and, Bool.not_eq_true', Bool.not_eq_false,
              Bool.and_eq_true] at hstands
            obtain ⟨⟨hsame, hidle⟩, hboundary⟩ := hstands
            have hsource := exists_source hforked (by simpa using hidle)
            have hboth := hreads.flag.symm.trans hflag
            rw [Bool.and_eq_true] at hboth
            obtain ⟨id, hid⟩ := Option.isSome_iff_exists.mp hboth.1
            refine ⟨h, fun _ _ => ⟨⟨hsource, hprovider hsame, ?_, .inl ⟨hreads.turn,
              h.latest hlatest, ?_⟩⟩, rfl⟩, ?_, ?_⟩
            · simp only [hreads.conversation]
              exact ⟨hboth.1, by rw [hid, h.flagged hboth.2 id hid]⟩
            · obtain ⟨source, hsome, _⟩ := hsource
              exact sourceAtBoundary_spec hforked (by rw [hsome]; rfl) hboundary
            · simp [hflag]
            · intro hnone
              simp [hreads.conversation, hid] at hnone
          case isFalse hflag =>
            exact ⟨h, soundPlan_of_reads h hreads fun _ => by simpa using hflag⟩
      case h_2 hcodex =>
        obtain ⟨hunflagged, hrecorded⟩ := h.recorded hcodex
        have hplain : SoundPlan s provider plan :=
          soundPlan_of_reads h hreads fun _ => by simp [hreads.flag, hunflagged]
        split
        case h_1 threadId turnId hthread hturn =>
          obtain ⟨hsourceProvider, hconversation, hturnId⟩ :=
            hrecorded threadId turnId hthread hturn
          split
          case isTrue hall =>
            simp only [Bool.and_eq_true] at hall
            obtain ⟨⟨⟨hsame, hidle⟩, _⟩, _⟩ := hall
            have hsource := exists_source hforked (by simpa using hidle)
            refine ⟨h, fun _ _ => ⟨⟨hsource, hprovider hsame, ⟨rfl, hconversation.symm⟩,
              .inr ⟨threadId, turnId, rfl, rfl, ?_, hturnId⟩⟩, rfl⟩, by simp, by simp⟩
            rw [hprovider hsame, hsourceProvider]
          case isFalse => exact ⟨h, hplain⟩
        case h_2 => exact ⟨h, hplain⟩
      case h_3 hnone => exact absurd hnone hmode

theorem provider_planForkFirstTurn (s : State) (provider : String) (plan : LaunchPlan) :
    (planForkFirstTurn s provider plan).1.child.provider = s.child.provider := by
  rcases planForkFirstTurn_fst s provider plan with heq | heq <;> rw [heq]
  rw [dropNativePlan]
  split <;> rfl

theorem provider_restoreParked (s : State) (provider now : String) :
    (restoreParked s provider now).child.provider = s.child.provider := by
  have hprovider : (restoreParkedBinding s.tables provider now).provider = s.child.provider := by
    rw [restoreParkedBinding]
    split
    · rfl
    · simp only
      split <;> rfl
  simp only [restoreParked]
  split <;> exact hprovider

/-- What `plan_launch` reads, after a switch and without one. -/
def planned (s : State) (provider : String) (switchedProvider : Bool) (now : String) :
    State × LaunchPlan :=
  let s := if switchedProvider then restoreParked s provider now else s
  let since := owedSince s.tables provider
  (s,
    { resumeConversationId := s.child.providerConversationId
      resumeFork := s.child.providerConversationId.isSome && s.child.resumeFork
      sinceEventId := since
      freshNativeId := none
      forkLastTurnId := none
      needsFallbackPrompt := since.isSome })

theorem planLaunch_eq (s : State) (provider : String) (switched : Bool) (freshId now : String) :
    planLaunch s provider switched freshId now =
      let before := planned s provider switched now
      let after := planForkFirstTurn before.1 provider before.2
      (after.1,
        { after.2 with
          freshNativeId :=
            if after.2.resumeConversationId.isNone && provider == "claude" then some freshId
            else none }) := rfl

theorem reads_planned (s : State) (provider : String) (switched : Bool) (now : String) :
    Reads (planned s provider switched now).1 (planned s provider switched now).2 :=
  ⟨rfl, rfl, rfl⟩

theorem planned_spec (h : Held s) (hforked : Forked s) {switched : Bool}
    (hnone : switched = true → s.child.providerConversationId = none) :
    Held (planned s provider switched now).1 ∧ Forked (planned s provider switched now).1 := by
  simp only [planned]
  split
  case isTrue hswitched =>
    exact ⟨h.restoreParked (hnone hswitched) provider,
      hforked.of_follows (.of_frame (frame_restoreParked s provider now))⟩
  case isFalse => exact ⟨h, hforked⟩

theorem planLaunch_spec (h : Held s) (hforked : Forked s) {switched : Bool} {freshId : String}
    (hnone : switched = true → s.child.providerConversationId = none) :
    Held (planLaunch s provider switched freshId now).1 ∧
      SoundPlan (planLaunch s provider switched freshId now).1 provider
        (planLaunch s provider switched freshId now).2 ∧
      (planLaunch s provider switched freshId now).1.child.provider = s.child.provider := by
  have ⟨hheld, hforked'⟩ := @planned_spec s now provider h hforked switched hnone
  have ⟨hheld', hsound⟩ := @planForkFirstTurn_spec _ _ provider hheld hforked'
    (reads_planned s provider switched now)
  rw [planLaunch_eq]
  refine ⟨hheld', ⟨hsound.native, hsound.own, hsound.fresh⟩, ?_⟩
  refine (provider_planForkFirstTurn _ _ _).trans ?_
  simp only [planned]
  split
  · exact provider_restoreParked s provider now
  · rfl

end Plans

end Argmax.Providers.ForkPlan
