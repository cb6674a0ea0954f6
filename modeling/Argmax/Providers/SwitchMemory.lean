import Argmax.Providers.ContinuityInvariant

/-!
# What a rejoined conversation misses

A visible message is, at each resumed launch, held by the resumed conversation or newer than
the event the launch retells from. A send to the conversation that the session already holds
retells nothing, so this fails when the newest prompt was never answered.
-/

namespace Argmax.Providers.Continuity

open Argmax.Lib Argmax.Persistence Argmax.Persistence.Continuity

/-- **The message does not fall between** what the resumed conversation holds and what is
retold to it. -/
def Covered (s : State) (event : EventRow) : Prop :=
  ∀ launch, s.launch = some launch → launch.resumeConversationId.isSome →
    event ∈ s.db.events → visible s.db event = true → event.rowid < launch.prompt.rowid →
      event ∈ launch.held ∨ ∃ since rowid, launch.sinceEventId = some since ∧
        eventRowid s.db.events since = some rowid ∧ rowid < event.rowid

/-- **A debt stays** until a launch that delivers it shows output. A switch away makes it the
boundary of the parked conversation. -/
def DebtKept (s : State) (act : Act) : Prop :=
  ∀ binding ∈ s.db.bindings, binding.state = .active →
    ∀ since, binding.pendingSinceEventId = some since →
      (∃ after ∈ (step s act).db.bindings, after.key = binding.key ∧
        (after.pendingSinceEventId = some since ∨
          after.state = .parked ∧ after.deliveredThroughEventId = some since)) ∨
      ∃ events noted launch, act = .output events noted ∧ s.launch = some launch ∧
        launch.resumeConversationId = some binding.conversationId ∧
        launch.sinceEventId = some since ∧ events.any fun event => isOutput event.type

/-! ## Sends -/

/-- No conversation is live. -/
structure Detached (s : State) : Prop where
  distinct : Distinct s.db.events
  single : ∀ binding ∈ s.db.bindings, ∀ other ∈ s.db.bindings,
    binding.provider = other.provider → binding = other
  idle : ∀ binding ∈ s.db.bindings, binding.state ≠ .active
  pointer : s.db.providerConversationId = none
  known : ∀ binding ∈ s.db.bindings, binding.key ∈ s.conversations
  holds : ∀ binding ∈ s.db.bindings, ∀ eventId, owed binding = some eventId →
    Holds s binding.key eventId

variable {s : State} {input : SendInput} {act : Act}

/-- The parked boundary is one that the live conversation holds everything up to. -/
theorem Inv.holds_deliveredBoundary (h : Inv s) (hidle : s.launch = none)
    {binding : ProviderBinding} (hb : binding ∈ s.db.bindings) (hactive : binding.state = .active)
    (hpending : binding.pendingSinceEventId = none) {eventId : String}
    (hboundary : s.db.deliveredBoundary = some eventId) : Holds s binding.key eventId := by
  have hlive : ∀ event, s.Message event → Settled s event →
      (binding.key, event) ∈ s.memory :=
    h.live binding hb hactive hpending fun launch hl => by simp [hidle] at hl
  have hnewest : s.db.newestEventId = some eventId → s.db.answered = true →
      Holds s binding.key eventId := by
    intro hid hanswered
    obtain ⟨row, hrow, rfl⟩ := Option.map_eq_some_iff.mp hid
    exact ⟨row.rowid, eventRowid_of_mem (newest_eq_some hrow).1,
      fun event hm _ => hlive event hm (.inl hanswered)⟩
  rw [SessionTables.deliveredBoundary] at hboundary
  cases hprompt : s.db.newestPrompt with
  | none =>
    rw [hprompt] at hboundary
    exact hnewest hboundary (by rw [SessionTables.answered, hprompt]; rfl)
  | some prompt =>
    rw [hprompt] at hboundary
    dsimp only at hboundary
    split at hboundary
    case isTrue hanswered => exact hnewest hboundary hanswered
    case isFalse =>
      obtain ⟨row, hrow, rfl⟩ := Option.map_eq_some_iff.mp hboundary
      obtain ⟨hmem, hbefore, -⟩ := newest_eq_some hrow
      rw [Bool.and_eq_true, decide_eq_true_eq] at hbefore
      refine ⟨row.rowid, eventRowid_of_mem hmem, fun event hm hle => hlive event hm (.inr ?_)⟩
      intro other hother
      obtain rfl := Option.some.inj (hprompt.symm.trans hother)
      omega

theorem detached_switch (h : Inv s) (hidle : s.launch = none) {db : SessionTables}
    (hswitch : switchProvider s.db input = some db) :
    Detached { s with db := db } ∧ db.provider = input.provider ∧
      ∀ before, before ∈ s.db.bindings →
        before.park s.db.deliveredBoundary input.now ∈ db.bindings := by
  obtain ⟨⟨row, stored⟩, hpersist, rfl⟩ := Option.map_eq_some_iff.mp hswitch
  have hparked : Grows s.db (s.db.updateSessionProvider input.provider input.now) :=
    .of_eq rfl rfl
  have hgrows : Grows s.db stored := hparked.trans (grows_persist hpersist)
  have hlater : Later s { s with db := stored } := ⟨hgrows, fun _ hx => hx, fun _ he => he⟩
  obtain ⟨hdb, -⟩ := persist_eq_some hpersist
  have hmem : ∀ binding, binding ∈ stored.bindings ↔
      ∃ before ∈ s.db.bindings, before.park s.db.deliveredBoundary input.now = binding := by
    rw [hdb]
    exact fun _ => SessionTables.mem_parkActive
  refine ⟨⟨hgrows.distinct h.distinct, ?_, ?_, ?_, ?_, ?_⟩, ?_,
    fun before hb => (hmem _).mpr ⟨before, hb, rfl⟩⟩
  · intro binding hb other ho heq
    obtain ⟨before, hbefore, rfl⟩ := (hmem binding).mp hb
    obtain ⟨before', hbefore', rfl⟩ := (hmem other).mp ho
    rw [h.wired.single before hbefore before' hbefore'
      ((congrArg Prod.fst (before.key_park _ _)).symm.trans
        (heq.trans (congrArg Prod.fst (before'.key_park _ _))))]
  · intro binding hb
    obtain ⟨before, -, rfl⟩ := (hmem binding).mp hb
    unfold ProviderBinding.park
    split
    case isTrue => simp
    case isFalse hne => exact hne
  · rw [hdb]
    rfl
  · intro binding hb
    obtain ⟨before, hbefore, rfl⟩ := (hmem binding).mp hb
    rw [before.key_park]
    exact h.wired.known before hbefore
  · intro binding hb eventId howed
    obtain ⟨before, hbefore, rfl⟩ := (hmem binding).mp hb
    rw [before.key_park]
    refine hlater.holds ?_
    unfold ProviderBinding.park at howed
    split at howed
    case isFalse => exact h.holds before hbefore eventId howed
    case isTrue hactive =>
      cases hpending : before.pendingSinceEventId with
      | some since =>
        rw [hpending] at howed
        exact h.holds before hbefore eventId (by rw [owed, hactive, ← howed]; exact hpending)
      | none =>
        rw [hpending] at howed
        exact h.holds_deliveredBoundary hidle hbefore hactive hpending howed
  · rw [hdb]
    rfl

/-- A row of the provider that is not rejoined is not parked afterwards. -/
theorem inv_restore (h : Detached s) (hidle : s.launch = none) (now : String) :
    Inv { s with db := restoreParkedBinding s.db s.db.provider now } ∧
      (restoreParkedBinding s.db s.db.provider now).provider = s.db.provider ∧
      ((restoreParkedBinding s.db s.db.provider now).providerConversationId.isSome →
        (owedSince (restoreParkedBinding s.db s.db.provider now) s.db.provider).isSome) ∧
      ∀ binding ∈ s.db.bindings, binding.provider ≠ s.db.provider →
        binding ∈ (restoreParkedBinding s.db s.db.provider now).bindings := by
  have hdetached : ∀ db : SessionTables, db.events = s.db.events → db.sessionId = s.db.sessionId →
      (∀ binding ∈ db.bindings, binding.state ≠ .active) → Wired db s.conversations →
      (∀ binding ∈ db.bindings, binding ∈ s.db.bindings ∨ binding.state = .invalid) →
      Inv { s with db := db } := by
    intro db hevents hsession hnone hwired hof
    have hlater : Later s { s with db := db } :=
      ⟨.of_eq hsession hevents, fun _ hx => hx, fun _ he => he⟩
    refine ⟨hlater.grows.distinct h.distinct, hwired, ?_, ?_, fun launch hl => by simp [hidle] at hl⟩
    · intro binding hb eventId howed
      rcases hof binding hb with hbefore | hinvalid
      · exact hlater.holds (h.holds binding hbefore eventId howed)
      · rw [owed, hinvalid] at howed
        cases howed
    · exact fun binding hb hactive => absurd hactive (hnone binding hb)
  unfold restoreParkedBinding
  cases hparked : s.db.findParked s.db.provider with
  | none =>
    refine ⟨hdetached s.db rfl rfl h.idle ?_ fun _ hb => .inl hb, rfl, ?_, fun _ hb _ => hb⟩
    · exact
        { single := h.single
          active := fun binding hb hactive => absurd hactive (h.idle binding hb)
          pointer := by rw [h.pointer]; intro id h; cases h
          parked := fun binding hb => SessionTables.findParked_eq_none hparked hb
          known := h.known }
    · rw [h.pointer]
      intro h
      cases h
  | some binding =>
    obtain ⟨hb, hprovider, hstate⟩ := SessionTables.findParked_eq_some hparked
    have hkey : binding.key = (s.db.provider, binding.conversationId) := by
      rw [ProviderBinding.key, hprovider]
    dsimp only
    split
    case h_1 =>
      set db := s.db.invalidateBinding s.db.provider binding.conversationId "incompatible" now
      have hof : ∀ after ∈ db.bindings, ∃ before ∈ s.db.bindings, after.key = before.key ∧
          (before.key = (s.db.provider, binding.conversationId) ∧ after.state = .invalid ∨
            before.key ≠ (s.db.provider, binding.conversationId) ∧ after = before) :=
        fun _ => SessionTables.of_mem_invalidateBinding
      have hidle' : ∀ after ∈ db.bindings, after.state ≠ .active := by
        intro after ha hactive
        obtain ⟨before, hbefore, -, ⟨-, hinvalid⟩ | ⟨-, rfl⟩⟩ := hof after ha
        · rw [hinvalid] at hactive
          cases hactive
        · exact h.idle after hbefore hactive
      refine ⟨hdetached db rfl rfl hidle' ?_ ?_, rfl, ?_, ?_⟩
      · constructor
        case single =>
          intro after ha other ho heq
          obtain ⟨before, hbefore, hafter, -⟩ := hof after ha
          obtain ⟨before', hbefore', hother, -⟩ := hof other ho
          have hsame := h.single before hbefore before' hbefore'
            ((congrArg Prod.fst hafter).symm.trans (heq.trans (congrArg Prod.fst hother)))
          subst hsame
          exact db.bindings.eq_of_key ha ho (hafter.trans hother.symm)
        case active => exact fun after ha hactive => absurd hactive (hidle' after ha)
        case pointer =>
          change ∀ id, s.db.providerConversationId = some id → _
          rw [h.pointer]
          intro id h
          cases h
        case parked =>
          intro after ha hafter heq
          obtain ⟨before, hbefore, -, ⟨-, hinvalid⟩ | ⟨hne, rfl⟩⟩ := hof after ha
          · rw [hinvalid] at hafter
            cases hafter
          · -- The row of the provider is the one that was found.
            rw [h.single after hbefore binding hb (heq.trans hprovider.symm)] at hne
            exact hne hkey
        case known =>
          intro after ha
          obtain ⟨before, hbefore, heq, -⟩ := hof after ha
          rw [heq]
          exact h.known before hbefore
      · intro after ha
        obtain ⟨before, hbefore, -, ⟨-, hinvalid⟩ | ⟨-, rfl⟩⟩ := hof after ha
        · exact .inr hinvalid
        · exact .inl hbefore
      · change s.db.providerConversationId.isSome → _
        rw [h.pointer]
        intro h
        cases h
      · intro before hbefore hne
        obtain ⟨after, ha, -, -, hsame⟩ := SessionTables.mem_invalidateBinding_of_mem hbefore
        rwa [hsame fun heq => hne (congrArg Prod.fst heq)] at ha
    case h_2 boundary hboundary =>
      have hdelivered : binding.deliveredThroughEventId = some boundary :=
        (Option.filter_eq_some_iff.mp hboundary).1
      set id := binding.conversationId
      set bound := s.db.boundRow id now (s.db.findBinding s.db.provider id) with hbound
      have hboundKey : bound.key = (s.db.provider, id) := key_bound
      have hmid : Wired (s.db.updateSessionProviderConversationId id now) s.conversations :=
        wired_bind h.single (fun b hb ha => absurd ha (h.idle b hb)) h.known
          (hkey ▸ h.known binding hb)
      have hmem : ∀ after, after ∈ ((s.db.updateSessionProviderConversationId id
          now).setPendingSince s.db.provider id boundary now).bindings ↔
            ∃ before ∈ (s.db.updateSessionProviderConversationId id now).bindings,
              (if before.key = (s.db.provider, id) then before.owe boundary now else before) =
                after :=
        fun _ => SessionTables.mem_updateBinding _ (ProviderBinding.key_owe boundary now)
      set db := (s.db.updateSessionProviderConversationId id now).setPendingSince s.db.provider id
        boundary now with hdb
      have hwired : Wired db s.conversations := by
        refine hmid.of_update _ (fun b => ?_) (fun b => ?_) hmem rfl rfl <;> split <;> rfl
      have hof : ∀ after ∈ db.bindings, after = bound.owe boundary now ∨
          (after ∈ s.db.bindings ∧ after.provider ≠ s.db.provider) := by
        intro after ha
        obtain ⟨before, hbefore, rfl⟩ := (hmem after).mp ha
        rcases mem_updateConversationId.mp hbefore with rfl | ⟨hold, hne⟩
        · exact .inl (if_pos hboundKey)
        · rw [if_neg fun heq => hne (congrArg Prod.fst heq)]
          exact .inr ⟨hold, hne⟩
      have hlater : Later s { s with db := db } :=
        ⟨.of_eq rfl rfl, fun _ hx => hx, fun _ he => he⟩
      have hrow : bound.owe boundary now ∈ db.bindings :=
        (hmem _).mpr ⟨bound, mem_updateConversationId.mpr (.inl rfl), if_pos hboundKey⟩
      have hactive : (bound.owe boundary now).state = .active := SessionTables.state_boundRow
      have howes : owedSince db s.db.provider = some boundary := hwired.owedSince_eq hrow hactive
      refine ⟨⟨hlater.grows.distinct h.distinct, hwired, ?_, ?_, fun launch hl => by
        simp [hidle] at hl⟩, rfl, fun _ => by rw [howes]; rfl, ?_⟩
      · intro after ha eventId howed
        rcases hof after ha with rfl | ⟨hold, -⟩
        · rw [owed, hactive] at howed
          rw [ProviderBinding.key_owe, hboundKey, ← hkey]
          refine hlater.holds (h.holds binding hb eventId ?_)
          rw [owed, hstate]
          exact hdelivered.trans howed
        · exact hlater.holds (h.holds after hold eventId howed)
      · intro after ha hafter hpending
        rcases hof after ha with rfl | ⟨hold, -⟩
        · cases hpending
        · exact absurd hafter (h.idle after hold)
      · intro before hbefore hne
        exact (hmem before).mpr ⟨before, mem_updateConversationId.mpr (.inr ⟨hbefore, hne⟩),
          if_neg fun heq => hne (congrArg Prod.fst heq)⟩

/-- The tables that a send plans its launch from. -/
def planned (s : State) (input : SendInput) (db : SessionTables) : SessionTables :=
  (planLaunch db input.provider (input.provider != s.db.provider) input.freshId input.now).1

theorem planned_eq (db : SessionTables) (h : input.provider = s.db.provider) :
    planned s input db = db := by
  simp [planned, planLaunch, h]

/-- What a launch meets, and what becomes of the debt of the conversation that was live. -/
theorem inv_planned (h : Inv s) (hidle : s.launch = none) {db : SessionTables}
    (hdb : (if input.provider != s.db.provider then switchProvider s.db input
      else some s.db) = some db) : Inv { s with db := planned s input db } ∧
      (planned s input db).provider = input.provider ∧
      (Careful s (.send input) → (planned s input db).providerConversationId.isSome →
        owedSince (planned s input db) input.provider = none →
          (planned s input db).answered = true) ∧
      ∀ binding ∈ s.db.bindings, binding.state = .active →
        ∀ since, binding.pendingSinceEventId = some since →
          ∃ after ∈ (planned s input db).bindings, after.key = binding.key ∧
            (after.pendingSinceEventId = some since ∨
              after.state = .parked ∧ after.deliveredThroughEventId = some since) := by
  by_cases hsame : input.provider = s.db.provider
  · rw [planned_eq db hsame]
    simp only [hsame, bne_self_eq_false, Bool.false_eq_true, if_false, Option.some.injEq] at hdb
    subst hdb
    refine ⟨h, hsame.symm, fun hcareful hsome hnone => ?_, fun binding hb _ since hsince =>
      ⟨binding, hb, rfl, .inl hsince⟩⟩
    exact hcareful hidle hsame hsome (hsame ▸ hnone)
  · have hne : (input.provider != s.db.provider) = true := bne_iff_ne.mpr hsame
    rw [if_pos hne] at hdb
    obtain ⟨hdetached, hprovider, hparked⟩ := detached_switch h hidle hdb
    have hplanned : planned s input db = restoreParkedBinding db db.provider input.now := by
      simp [planned, planLaunch, hne, hprovider]
    obtain ⟨hinv, hprovider', howes, hkept⟩ := inv_restore hdetached hidle input.now
    rw [hplanned]
    refine ⟨hinv, hprovider'.trans hprovider, fun _ hsome hnone => ?_, ?_⟩
    · have hdebt := howes hsome
      rw [hprovider] at hdebt hnone
      rw [hnone] at hdebt
      cases hdebt
    · intro binding hb hactive since hsince
      refine ⟨binding.park s.db.deliveredBoundary input.now, hkept _ (hparked binding hb) ?_,
        binding.key_park _ _, .inr ?_⟩
      · have hkey : (binding.park s.db.deliveredBoundary input.now).provider = binding.provider :=
          congrArg Prod.fst (binding.key_park s.db.deliveredBoundary input.now)
        rw [hkey, (h.wired.active binding hb hactive).1, hprovider]
        exact Ne.symm hsame
      · simp [ProviderBinding.park, hactive, hsince]

/-- What a resumed conversation holds, and what is retold to it. -/
theorem held_or_since (h : Inv s) (hidle : s.launch = none) {id : String}
    (hpointer : s.db.providerConversationId = some id)
    (hanswered : owedSince s.db s.db.provider = none → s.db.answered = true) {event : EventRow}
    (hm : s.Message event) :
    ((s.db.provider, id), event) ∈ s.memory ∨
      ∃ since rowid, owedSince s.db s.db.provider = some since ∧
        eventRowid s.db.events since = some rowid ∧ rowid < event.rowid := by
  obtain ⟨binding, hb, hkey, hactive, hpending⟩ := h.wired.exists_active hpointer
  cases howes : owedSince s.db s.db.provider with
  | none =>
    rw [howes] at hpending
    exact .inl (hkey ▸ h.live binding hb hactive hpending (fun launch hl => by simp [hidle] at hl)
      event hm (.inl (hanswered howes)))
  | some since =>
    rw [howes] at hpending
    obtain ⟨rowid, hrow, hall⟩ := h.holds binding hb since (by rw [owed, hactive, ← hpending])
    by_cases hle : event.rowid ≤ rowid
    · exact .inl (hkey ▸ hall event hm hle)
    · exact .inr ⟨since, rowid, rfl, hrow, by omega⟩

/-- The launch of a send starts with nothing that the provider showed. -/
theorem inv_launched (h : Inv s) (hidle : s.launch = none)
    (hprovider : s.db.provider = input.provider)
    (hanswered : s.db.providerConversationId.isSome →
      owedSince s.db input.provider = none → s.db.answered = true) {retold : List EventRow}
    {prompt : EventRow} {stored : SessionTables} (retry : Bool)
    (hretold : promptRows s.db s.db.providerConversationId.isSome
      (owedSince s.db input.provider) = some retold)
    (hpersist : persist s.db ⟨input.userEventId, "user.message", input.message, input.payload⟩ =
      some (prompt, stored)) :
    Inv { s with
      db := stored
      launch := some
        { prompt := prompt
          resumeConversationId := s.db.providerConversationId
          sinceEventId := owedSince s.db input.provider
          retold := retold
          freshFallback := if retry then promptRows s.db false none else none
          held := (s.memory.filter fun entry =>
            some entry.1 = s.db.providerConversationId.map fun id => (input.provider, id)).map (·.2)
          reported := none
          admitted := false
          shown := [] } } := by
  rw [← hprovider] at hanswered hretold ⊢
  obtain ⟨hdb, -, hrow, hsession, htype⟩ := persist_eq_some hpersist
  have hgrows := grows_persist hpersist
  set launch : Launch :=
    { prompt := prompt
      resumeConversationId := s.db.providerConversationId
      sinceEventId := owedSince s.db s.db.provider
      retold := retold
      freshFallback := if retry then promptRows s.db false none else none
      held := (s.memory.filter fun entry =>
        some entry.1 = s.db.providerConversationId.map fun id => (s.db.provider, id)).map (·.2)
      reported := none
      admitted := false
      shown := [] } with hlaunch
  set t : State := { s with db := stored, launch := some launch } with ht
  have hlater : Later s t := ⟨hgrows, fun _ hx => hx, fun _ he => he⟩
  have hwired : Wired t.db t.conversations := by
    rw [ht]
    rw [hdb]
    exact { h.wired with }
  have hprompt : t.db.newestPrompt = some prompt :=
    newest_persist_of_true hpersist (by
      rw [hsession, htype, hgrows.sessionId]
      simp)
  have hnewest : ∀ event ∈ t.db.events, event.rowid ≤ prompt.rowid := by
    intro event he
    rcases (mem_events_persist hpersist event).mp he with hold | rfl
    · have := rowid_lt_nextRowid hold
      omega
    · exact le_rfl
  have hunanswered : t.db.answered = false := by
    rw [Bool.eq_false_iff, Ne, answered_iff]
    intro hall
    obtain ⟨other, ho, -, hlt, -⟩ := hall prompt hprompt
    have := hnewest other ho
    omega
  have hold : ∀ event, t.Message event → event.rowid < prompt.rowid → s.Message event := by
    intro event hm hlt
    rcases (mem_events_persist hpersist event).mp hm.1 with he | rfl
    · exact hlater.message hm he
    · omega
  have hheld : ∀ id event, s.db.providerConversationId = some id →
      ((s.db.provider, id), event) ∈ s.memory → event ∈ launch.held := by
    intro id event hid he
    exact List.mem_map.mpr ⟨_, List.mem_filter.mpr ⟨he, by simp [hid]⟩, rfl⟩
  have hsince : launch.resumeConversationId.isSome → ∀ event, s.Message event →
      event ∈ launch.held ∨ ∃ since rowid, launch.sinceEventId = some since ∧
        eventRowid s.db.events since = some rowid ∧ rowid < event.rowid := by
    intro hresume event hm
    obtain ⟨id, hid⟩ := Option.isSome_iff_exists.mp hresume
    rcases held_or_since h hidle hid (hanswered hresume) hm with hmem | howes
    · exact .inl (hheld id event hid hmem)
    · exact .inr howes
  have hall : ∀ event, s.Message event → ∀ rows, promptRows s.db false none = some rows →
      event ∈ rows := by
    rintro event hm _ ⟨⟩
    exact mem_eligibleNewestFirst.mpr ⟨hm.1, hm.2.1⟩
  have hl : LaunchInv t launch :=
    { newestPrompt := hprompt
      admitted := hunanswered
      conversation := by rw [ht]; dsimp only [Launch.conversation]; rw [hdb, Option.none_or]
      history := by
        intro id hid event he
        have hpointer : s.db.providerConversationId = some id := by
          rwa [Launch.conversation, Option.none_or] at hid
        rw [Launch.history] at he
        simp only [hlaunch, hpointer, Bool.false_eq_true, if_false, List.append_nil, List.mem_map,
          List.mem_filter, Option.map_some, Option.some.injEq, decide_eq_true_eq] at he
        obtain ⟨⟨key, row⟩, ⟨hmem, rfl⟩, rfl⟩ := he
        rw [ht]
        rw [hdb]
        exact hmem
      told := by
        intro event hm hlt
        have hm' := hold event hm hlt
        by_cases hresume : launch.resumeConversationId.isSome
        · rcases hsince hresume event hm' with hmem | ⟨since, rowid, hs, hrowid, hlt'⟩
          · exact .inl hmem
          · have hs' : owedSince s.db s.db.provider = some since := hs
            have hresume' : s.db.providerConversationId.isSome = true := hresume
            rw [hs', promptRows, if_pos hresume'] at hretold
            obtain ⟨after, hafter, rfl⟩ := Option.map_eq_some_iff.mp hretold
            obtain rfl := Option.some.inj (hafter.symm.trans hrowid)
            exact .inr (mem_eligibleNewestFirst.mpr ⟨hm'.1, eligible_of_visible hm'.2.1 hlt'⟩)
        · have hfresh : s.db.providerConversationId.isSome = false := by simpa using hresume
          rw [hfresh] at hretold
          exact .inr (hall event hm' retold hretold)
      shown := by
        intro event hm hlt
        exact absurd (hnewest event hm.1) (Nat.not_le_of_lt hlt)
      since := by
        intro hresume event hm hlt
        rcases hsince hresume event (hold event hm hlt) with hmem | ⟨since, rowid, hs, hrowid, hlt'⟩
        · exact .inl hmem
        · exact .inr ⟨since, rowid, hs, eventRowid_of_subset hgrows.events hrowid, hlt'⟩
      fallback := by
        intro rows hrows event hm hlt
        rw [hlaunch] at hrows
        split at hrows
        · exact hall event (hold event hm hlt) rows hrows
        · cases hrows
      debt := by
        intro binding hb hactive since hs
        have hb' : binding ∈ s.db.bindings := by
          rw [ht] at hb
          rwa [hdb] at hb
        exact ⟨(h.wired.owedSince_eq hb' hactive).trans hs, (h.wired.active binding hb' hactive).2⟩
      owed := by
        intro _ since hs
        rw [ht]
        rw [hdb]
        exact hs }
  refine ⟨hgrows.distinct h.distinct, hwired, ?_, ?_, ?_⟩
  · intro binding hb eventId howed
    rw [ht] at hb
    rw [hdb] at hb
    exact hlater.holds (h.holds binding hb eventId howed)
  · intro binding hb hactive hpending _ event hm hsettled
    rw [ht] at hb
    rw [hdb] at hb
    have hlt : event.rowid < prompt.rowid := by
      rcases hsettled with hsome | hbefore
      · exact absurd (hunanswered.symm.trans hsome) (by simp)
      · exact hbefore prompt hprompt
    have hpointer := (h.wired.active binding hb hactive).2
    exact h.live binding hb hactive hpending (fun launch hl => by simp [hidle] at hl) event
      (hold event hm hlt)
      (.inl (hanswered (by rw [hpointer]; rfl) ((h.wired.owedSince_eq hb hactive).trans hpending)))
  · rintro _ ⟨⟩
    exact hl

theorem inv_send (h : Inv s) (hcareful : Careful s (.send input)) : Inv (send s input) := by
  unfold send
  split
  case isTrue => exact h
  case isFalse hidle =>
  rw [Option.not_isSome_iff_eq_none] at hidle
  dsimp only
  split
  case h_1 => exact h
  case h_2 db hdb =>
  obtain ⟨hinv, hprovider, hanswered, -⟩ := inv_planned h hidle hdb
  split
  case h_1 retold prompt stored hretold hpersist =>
    exact inv_launched hinv hidle hprovider (hanswered hcareful) _ hretold hpersist
  case h_2 => exact hinv

/-! ## Runs -/

theorem inv_step (h : Inv s) (hcareful : Careful s act) : Inv (step s act) := by
  cases act with
  | send input => exact inv_send h hcareful
  | report id now =>
    dsimp only [step]
    split
    case isTrue hreportable => exact inv_report h hreportable hcareful
    case isFalse => exact h
  | output events noted =>
    dsimp only [step]
    split
    case isTrue => exact h
    case isFalse hnone =>
      refine inv_output h fun event he heq => hnone ?_
      exact List.any_eq_true.mpr ⟨event, he, by simp [heq]⟩
  | reject now =>
    dsimp only [step]
    split
    case isTrue hfirst =>
      refine inv_reject h fun launch hlaunch => ?_
      rw [hlaunch] at hfirst
      simp only [Option.any_some, Bool.and_eq_true, Option.isNone_iff_eq_none] at hfirst
      exact hfirst.1
    case isFalse => exact h
  | finish ending eventId => exact inv_finish h hcareful
  | mark event =>
    dsimp only [step]
    split
    case isTrue hsession => exact inv_mark h hsession
    case isFalse => exact h
  | turnStarted threadId turnId => exact inv_turnStarted h threadId turnId
  | clear eventId now =>
    dsimp only [step]
    split
    case isTrue hidle => exact inv_clear h (Option.isNone_iff_eq_none.mp hidle) eventId now
    case isFalse => exact h
  | reconfigure workspacePath configIdentity => exact inv_reconfigure h workspacePath configIdentity

/-- A row of the live conversation that is still there. -/
theorem debtKept_of_bindings
    (hkept : ∀ binding ∈ s.db.bindings, binding.state = .active →
      ∃ after ∈ (step s act).db.bindings, after.key = binding.key ∧
        after.pendingSinceEventId = binding.pendingSinceEventId) : DebtKept s act := by
  intro binding hb hactive since hsince
  obtain ⟨after, ha, hkey, hpending⟩ := hkept binding hb hactive
  exact .inl ⟨after, ha, hkey, .inl (hpending.trans hsince)⟩

theorem debtKept_of_eq (heq : (step s act).db.bindings = s.db.bindings) : DebtKept s act :=
  debtKept_of_bindings fun binding hb _ => ⟨binding, heq ▸ hb, rfl, rfl⟩

theorem debtKept_send (h : Inv s) (input : SendInput) : DebtKept s (.send input) := by
  intro binding hb hactive since hsince
  refine .inl ?_
  have hsame : ∃ after ∈ s.db.bindings, after.key = binding.key ∧
      (after.pendingSinceEventId = some since ∨
        after.state = .parked ∧ after.deliveredThroughEventId = some since) :=
    ⟨binding, hb, rfl, .inl hsince⟩
  dsimp only [step]
  unfold send
  split
  case isTrue => exact hsame
  case isFalse hidle =>
  rw [Option.not_isSome_iff_eq_none] at hidle
  dsimp only
  split
  case h_1 => exact hsame
  case h_2 db hdb =>
  obtain ⟨-, -, -, hkept⟩ := inv_planned h hidle hdb
  have hafter := hkept binding hb hactive since hsince
  split
  case h_1 retold prompt stored hretold hpersist =>
    rw [(persist_eq_some hpersist).1]
    exact hafter
  case h_2 => exact hafter

theorem debtKept_report (h : Inv s) {id now : String} (hcareful : Careful s (.report id now)) :
    DebtKept s (.report id now) := by
  intro binding hb hactive since hsince
  have hkey : binding.key = (s.db.provider, id) := by
    obtain ⟨hprovider, hpointer⟩ := h.wired.active binding hb hactive
    have hid := hcareful (by rw [h.wired.owedSince_eq hb hactive, hsince]; rfl)
    exact Prod.ext hprovider (Option.some.inj (hpointer.symm.trans hid))
  have hfind : s.db.findBinding s.db.provider id = some binding :=
    SessionTables.findBinding_eq_some.mpr ⟨hb, hkey⟩
  refine .inl ?_
  dsimp only [step]
  split
  case isFalse => exact ⟨binding, hb, rfl, .inl hsince⟩
  case isTrue =>
    unfold report
    split
    case h_1 => exact ⟨binding, hb, rfl, .inl hsince⟩
    case h_2 launch hlaunch =>
      refine ⟨_, mem_updateConversationId.mpr (.inl rfl), key_bound.trans hkey.symm, .inl ?_⟩
      rw [hfind]
      exact hsince

theorem debtKept_output (h : Inv s) (events : List NewEvent) (noted : Bool) :
    DebtKept s (.output events noted) := by
  intro binding hb hactive since hsince
  have hsame : ∃ after ∈ s.db.bindings, after.key = binding.key ∧
      (after.pendingSinceEventId = some since ∨
        after.state = .parked ∧ after.deliveredThroughEventId = some since) :=
    ⟨binding, hb, rfl, .inl hsince⟩
  dsimp only [step]
  split
  case isTrue => exact .inl hsame
  case isFalse hnone =>
  have hne : ∀ event ∈ events, event.type ≠ "user.message" := fun event he heq =>
    hnone (List.any_eq_true.mpr ⟨event, he, by simp [heq]⟩)
  unfold output
  split
  case h_2 => exact .inl hsame
  case h_1 launch rows db hlaunch hpersist =>
  obtain ⟨hdb, -⟩ := persistAll_eq_some hpersist hne
  rcases noted_cases db (events.map (·.type)) noted with heq | ⟨htypes, -⟩
  · refine .inl ?_
    change ∃ after ∈ (if noted then noteProviderOutput db (events.map (·.type)) else db).bindings, _
    rw [heq, hdb]
    exact hsame
  · obtain ⟨hs, hresume⟩ := (h.launched launch hlaunch).debt binding hb hactive since hsince
    rw [List.any_map] at htypes
    exact .inr ⟨events, noted, launch, rfl, hlaunch, hresume, hs, htypes⟩

theorem debtKept_step (h : Inv s) (hcareful : Careful s act) : DebtKept s act := by
  cases act with
  | send input => exact debtKept_send h input
  | report id now => exact debtKept_report h hcareful
  | output events noted => exact debtKept_output h events noted
  | reject now =>
    refine debtKept_of_bindings fun binding hb _ => ?_
    dsimp only [step]
    split
    case isFalse => exact ⟨binding, hb, rfl, rfl⟩
    case isTrue =>
      unfold reject
      split
      case h_1 => exact ⟨binding, hb, rfl, rfl⟩
      case h_2 =>
        split
        case h_1 =>
          obtain ⟨after, ha, hkey, hpending, -⟩ := SessionTables.mem_invalidateBinding_of_mem hb
          exact ⟨after, ha, hkey, hpending⟩
        case h_2 => exact ⟨binding, hb, rfl, rfl⟩
  | finish ending eventId =>
    refine debtKept_of_eq ?_
    dsimp only [step]
    unfold finish
    split
    case h_1 hpersist => rw [(persist_eq_some hpersist).1]
    case h_2 => rfl
  | mark event =>
    refine debtKept_of_eq ?_
    dsimp only [step]
    split
    case isTrue =>
      unfold mark
      split
      case h_1 hpersist => rw [(persist_eq_some hpersist).1]
      case h_2 => rfl
    case isFalse => rfl
  | turnStarted threadId turnId =>
    refine debtKept_of_eq ?_
    dsimp only [step]
    unfold observeProviderLine SessionTables.recordBindingTurn
    split
    · rfl
    · split
      · rfl
      · split <;> rfl
  | clear eventId now =>
    refine debtKept_of_bindings fun binding hb _ => ?_
    dsimp only [step]
    split
    case isFalse => exact ⟨binding, hb, rfl, rfl⟩
    case isTrue =>
      unfold clear
      split
      case h_2 => exact ⟨binding, hb, rfl, rfl⟩
      case h_1 hpersist =>
        have hstored := congrArg SessionTables.bindings (persist_eq_some hpersist).1
        simp only [Table.mem_update]
        refine ⟨_, ⟨binding, ?_, rfl⟩, ?_, ?_⟩
        · rw [hstored]
          exact hb
        all_goals split <;> rfl
  | reconfigure workspacePath configIdentity => exact debtKept_of_eq rfl

/-- **In a run of careful acts** no message falls between what a resumed conversation holds and
what is retold to it, but for the errors that end a launch that had answered, and debts stay
until they are delivered. -/
theorem switch_memory (sessionId provider workspacePath : String)
    (configIdentity : String → String) (acts : List Act)
    (h : Legal step Careful (State.start sessionId provider workspacePath configIdentity) acts) :
    (∀ event, event ∉ (run step (State.start sessionId provider workspacePath configIdentity)
        acts).lateErrors →
      Covered (run step (State.start sessionId provider workspacePath configIdentity) acts) event) ∧
      Legal step DebtKept (State.start sessionId provider workspacePath configIdentity) acts := by
  have hinv := inv_start sessionId provider workspacePath configIdentity
  refine ⟨fun event hlate launch hlaunch hresume he hvisible hlt => ?_, ?_⟩
  · have hrun : Inv (run step (State.start sessionId provider workspacePath configIdentity)
        acts) := h.invariant (fun _ _ hi hcareful => inv_step hi hcareful) hinv
    exact (hrun.launched launch hlaunch).since hresume event ⟨he, hvisible, hlate⟩ hlt
  · generalize State.start sessionId provider workspacePath configIdentity = s at h hinv
    induction acts generalizing s with
    | nil => trivial
    | cons act acts ih =>
      exact ⟨debtKept_step hinv h.1, ih _ h.2 (inv_step hinv h.1)⟩

/-! ## Runs of a session -/

/-- A session that starts with Claude. -/
def State.sample : State := .start "s1" "claude" "/repo" fun _ => ""

/-- A follow-up of the person. -/
def SendInput.sample (provider message id : String) : SendInput :=
  { provider := provider
    message := message
    payload := .null
    references := false
    userEventId := id
    switchEventId := id ++ "-switch"
    freshId := id ++ "-fresh"
    now := id }

/-- The first turn, which Claude answers. -/
def firstTurn : List Act :=
  [.send (.sample "claude" "plan it" "u1"), .report "c1" "t1",
    .output [⟨"a1", "message.completed", "planned", .null⟩] true, .finish .completed "e1"]

/-- A turn with Codex, and the return to Claude. -/
def switchAndBack : List Act :=
  firstTurn ++
    [.send (.sample "codex" "build it" "u2"), .report "x1" "t2",
      .output [⟨"a2", "message.completed", "built", .null⟩] true, .finish .completed "e2",
      .send (.sample "claude" "check it" "u3"), .report "c1" "t3",
      .output [⟨"a3", "message.completed", "checked", .null⟩] true, .finish .completed "e3"]

theorem switch_memory_return :
    (∀ event, event ∉ (run step State.sample switchAndBack).lateErrors →
      Covered (run step State.sample switchAndBack) event) ∧
      Legal step DebtKept State.sample switchAndBack :=
  switch_memory "s1" "claude" "/repo" (fun _ => "") switchAndBack (by decide)

/-- The second prompt goes to a process that fails before it shows anything. -/
def failedTurn : List Act :=
  firstTurn ++
    [.send (.sample "claude" "build it" "u2"), .finish (.failed "exit 1") "e2",
      .send (.sample "claude" "go on" "u3")]

/-- The prompt that was not answered. -/
def unansweredPrompt : EventRow := ⟨4, "u2", "s1", "user.message", "build it", .null⟩

theorem unanswered_lost : ¬ ∀ (acts : List Act) (event : EventRow),
    Covered (run step State.sample acts) event := by
  intro h
  have hlost : (run step State.sample failedTurn).launch.any (fun launch =>
      launch.resumeConversationId.isSome && launch.sinceEventId.isNone &&
        decide (unansweredPrompt ∉ launch.held) &&
          decide (unansweredPrompt.rowid < launch.prompt.rowid)) = true := by decide +kernel
  obtain ⟨launch, hlaunch, hall⟩ := (Option.any_eq_true _ _).mp hlost
  simp only [Bool.and_eq_true, Option.isNone_iff_eq_none, decide_eq_true_eq] at hall
  obtain ⟨⟨⟨hresume, hsince⟩, hheld⟩, hlt⟩ := hall
  rcases h failedTurn unansweredPrompt launch hlaunch hresume (by decide)
    (by rfl) hlt with hmem | ⟨since, _, hsome, -⟩
  · exact hheld hmem
  · rw [hsince] at hsome
    cases hsome

end Argmax.Providers.Continuity
