import Argmax.Providers.ContinuityRows
import Argmax.Providers.ForkPlan
import Argmax.Workspaces.ForkCopies

/-!
# The events of a fork, as it is used

No step takes an event of the fork away, and none adds one below the copies. So the copies
that were made with the fork are all it ever holds of its source.
-/

namespace Argmax.Providers.ForkPlan

open Argmax.Lib Argmax.Persistence Argmax.Persistence.Continuity Argmax.Providers.Continuity
  Argmax.Workspaces.Fork

/-! ## What a step leaves -/

/-- What every step leaves as it was. -/
structure Follows (s s' : State) : Prop where
  point : s'.point = s.point
  childId : s'.child.id = s.child.id
  childSessionId : s'.fork.childSessionId = s.fork.childSessionId
  childBaseEventId : s'.fork.childBaseEventId = s.fork.childBaseEventId
  sourceLastEventId : s'.fork.sourceLastEventId = s.fork.sourceLastEventId
  kept : ∀ row ∈ s.events, row.sessionId = s.child.id → row ∈ s'.events
  later : ∀ row ∈ s'.events, row ∈ s.events ∨
    ∀ old ∈ s.events, old.sessionId = s.child.id → old.rowid < row.rowid
  /-- The source is there with all its events, or it is gone. -/
  source : s'.source = none ∨
    s'.source.map (·.id) = s.source.map (·.id) ∧ ∀ row ∈ s.events, row ∈ s'.events
  sourceSessionId : s.fork.sourceSessionId = s.source.map (·.id) →
    s'.fork.sourceSessionId = s'.source.map (·.id)

variable {s s' s'' : State}

theorem Follows.refl (s : State) : Follows s s :=
  ⟨rfl, rfl, rfl, rfl, rfl, fun _ h _ => h, fun _ h => .inl h, .inr ⟨rfl, fun _ h => h⟩, id⟩

theorem Follows.trans (h : Follows s s') (h' : Follows s' s'') : Follows s s'' where
  point := h'.point.trans h.point
  childId := h'.childId.trans h.childId
  childSessionId := h'.childSessionId.trans h.childSessionId
  childBaseEventId := h'.childBaseEventId.trans h.childBaseEventId
  sourceLastEventId := h'.sourceLastEventId.trans h.sourceLastEventId
  kept row hrow hchild := h'.kept row (h.kept row hrow hchild) (hchild.trans h.childId.symm)
  later row hrow := by
    rcases h'.later row hrow with hmem | hnew
    · exact h.later row hmem
    · exact .inr fun old hold hchild =>
        hnew old (h.kept old hold hchild) (hchild.trans h.childId.symm)
  source := by
    rcases h'.source with hgone | ⟨hid', hkept'⟩
    · exact .inl hgone
    · rcases h.source with hgone | ⟨hid, hkept⟩
      · rw [hgone, Option.map_none, Option.map_eq_none_iff] at hid'
        exact .inl hid'
      · exact .inr ⟨hid'.trans hid, fun row hrow => hkept' row (hkept row hrow)⟩
  sourceSessionId hsource := h'.sourceSessionId (h.sourceSessionId hsource)

/-- What the statements on the row and the bindings of the fork leave alone. -/
def State.frame (s : State) :=
  (s.point, s.child.id, s.fork.toForkRecord, s.fork.sourceLastEventId, s.events, s.source)

theorem Follows.of_frame (h : s'.frame = s.frame) : Follows s s' := by
  simp only [State.frame, Prod.mk.injEq] at h
  have ⟨hpoint, hchild, hrecord, hlast, hevents, hsource⟩ := h
  have hsourceId : s'.fork.sourceSessionId = s.fork.sourceSessionId :=
    congrArg ForkRecord.sourceSessionId hrecord
  refine ⟨hpoint, hchild, congrArg ForkRecord.childSessionId hrecord,
    congrArg ForkRecord.childBaseEventId hrecord, hlast, ?_, ?_, ?_, ?_⟩
  · exact fun row hrow _ => hevents ▸ hrow
  · exact fun row hrow => .inl (hevents ▸ hrow)
  · exact .inr ⟨by rw [hsource], fun row hrow => hevents ▸ hrow⟩
  · exact fun heq => by rw [hsourceId, hsource, heq]

/-- Rows are added at the end. -/
theorem Follows.of_events {events : EventTable} (hkept : ∀ row ∈ s.events, row ∈ events)
    (hlater : ∀ row ∈ events, row ∈ s.events ∨ ∀ old ∈ s.events, old.rowid < row.rowid) :
    Follows s { s with events := events } where
  point := rfl
  childId := rfl
  childSessionId := rfl
  childBaseEventId := rfl
  sourceLastEventId := rfl
  kept row hrow _ := hkept row hrow
  later row hrow := (hlater row hrow).imp_right fun hnew old hold _ => hnew old hold
  source := .inr ⟨rfl, hkept⟩
  sourceSessionId := id

/-! ## Statements -/

section Statements

variable {sessionId : String} {event : NewEvent}

/-- What a stored event adds. -/
theorem persistEvent_eq_some (h : persistEvent s sessionId event = some s') :
    s' = { s with events := s'.events } ∧ ∀ row, row ∈ s'.events ↔ row ∈ s.events ∨
      row = ⟨nextRowid s.events, event.id, sessionId, event.type, event.message,
        event.payload⟩ := by
  have ⟨events, hevents, heq⟩ := Option.map_eq_some_iff.mp h
  subst heq
  exact ⟨rfl, fun row => Table.mem_insert? hevents⟩

theorem follows_persistEvent (h : persistEvent s sessionId event = some s') : Follows s s' := by
  have ⟨hs, hmem⟩ := persistEvent_eq_some h
  rw [hs]
  refine .of_events (fun row hrow => (hmem row).mpr (.inl hrow)) fun row hrow => ?_
  rcases (hmem row).mp hrow with hold | rfl
  · exact .inl hold
  · exact .inr fun old hold => rowid_lt_nextRowid hold

@[simp] theorem frame_adopt (s : State) (conversationId now : String) :
    (adopt s conversationId now).frame = s.frame := rfl

@[simp] theorem frame_dropNativePlan (s : State) (plan : LaunchPlan) :
    (dropNativePlan s plan).1.frame = s.frame := by
  rw [dropNativePlan]
  split <;> rfl

@[simp] theorem frame_restoreParked (s : State) (provider now : String) :
    (restoreParked s provider now).frame = s.frame := by
  simp only [restoreParked]
  split <;> rfl

@[simp] theorem frame_inferCursor (s : State) (input : SendInput) :
    (inferCursor s input).frame = s.frame := by
  rw [inferCursor]
  split
  · split <;> simp
  · rfl

/-- A plan drops the native one, or leaves the fork as it was. -/
theorem planForkFirstTurn_fst (s : State) (provider : String) (plan : LaunchPlan) :
    (planForkFirstTurn s provider plan).1 = s ∨
      planForkFirstTurn s provider plan = dropNativePlan s plan := by
  simp only [planForkFirstTurn]
  repeat' split
  all_goals simp

@[simp] theorem frame_planForkFirstTurn (s : State) (provider : String) (plan : LaunchPlan) :
    (planForkFirstTurn s provider plan).1.frame = s.frame := by
  rcases planForkFirstTurn_fst s provider plan with h | h <;> rw [h]
  exact frame_dropNativePlan s plan

@[simp] theorem frame_planLaunch (s : State) (provider : String) (switched : Bool)
    (freshId now : String) : (planLaunch s provider switched freshId now).1.frame = s.frame := by
  simp only [planLaunch]
  split <;> simp

/-- The state after a send's plan. -/
theorem follows_prepare (s : State) (input : SendInput) : Follows s (prepare s input).1 := by
  rw [prepare]
  split
  case h_1 provider _ =>
    simp only
    split
    · exact .of_frame rfl
    · rename_i stored hstored
      have hfollows := follows_persistEvent hstored
      have hupdate : Follows s (updateProvider s provider input.now) := .of_frame rfl
      exact (hupdate.trans hfollows).trans
        (.of_frame (frame_planLaunch stored provider true input.freshId input.now))
  case h_2 =>
    refine .of_frame (Eq.trans ?_ (frame_inferCursor s input))
    exact frame_planLaunch _ _ false input.freshId input.now

theorem follows_send (jsonText : Json → String) (s : State) (input : SendInput) :
    Follows s (send jsonText s input) := by
  have hprepare := follows_prepare s input
  rw [send]
  split
  · exact .refl s
  · split
    case h_1 heq =>
      rw [heq] at hprepare
      exact hprepare
    case h_2 heq =>
      rw [heq] at hprepare
      split
      · exact hprepare
      · split
        · exact hprepare
        · rename_i hstored
          exact (hprepare.trans (follows_persistEvent hstored)).trans (.of_frame rfl)

theorem follows_output (s : State) (events : List NewEvent) : Follows s (output s events) := by
  simp only [output]
  split
  case h_1 rows db _ hpersist =>
    have ⟨hdb, hgrows⟩ := grows_persistAll hpersist
    have hstored : Follows s { s with events := db.events } := .of_events hgrows.events hgrows.newer
    exact hstored.trans (.of_frame rfl)
  case h_2 => exact .refl s

end Statements

/-! ## The fork and its source -/

/-- How the fork and its source hang together. -/
structure Forked (s : State) : Prop where
  childSessionId : s.fork.childSessionId = s.child.id
  sourceSessionId : s.fork.sourceSessionId = s.source.map (·.id)
  source : ∀ source ∈ s.source, source.id = s.point.source.id
  apart : s.child.id ≠ s.point.source.id
  /-- The newest message that was copied is still there. -/
  base : ∀ eventId, s.fork.childBaseEventId = some eventId →
    ∃ event ∈ s.events, event.id = eventId ∧ event.sessionId = s.child.id
  /-- So is the last event of the source that was copied, as long as the source is. -/
  last : s.fork.sourceLastEventId = s.point.selection.lastEventId ∧
    ∀ eventId, s.point.selection.lastEventId = some eventId → s.source.isSome →
      eventRowid s.events eventId = some s.point.selection.lastRowid

theorem Forked.of_follows (h : Forked s) (hfollows : Follows s s') : Forked s' where
  childSessionId := by rw [hfollows.childSessionId, hfollows.childId, h.childSessionId]
  sourceSessionId := hfollows.sourceSessionId h.sourceSessionId
  source source hsource := by
    rw [hfollows.point]
    rcases hfollows.source with hgone | ⟨hid, -⟩
    · simp [hgone] at hsource
    · have hsome := congrArg (Option.map id) hid
      rw [hsource, Option.map_some] at hid
      have ⟨old, hold, heq⟩ := Option.map_eq_some_iff.mp hid.symm
      exact heq ▸ h.source old hold
  apart := by rw [hfollows.childId, hfollows.point]; exact h.apart
  base eventId heq := by
    have ⟨event, hevent, hid, hchild⟩ := h.base eventId (hfollows.childBaseEventId ▸ heq)
    exact ⟨event, hfollows.kept event hevent hchild, hid, hchild.trans hfollows.childId.symm⟩
  last := by
    rw [hfollows.sourceLastEventId, hfollows.point]
    refine ⟨h.last.1, fun eventId hlast hsome => ?_⟩
    rcases hfollows.source with hgone | ⟨hid, hkept⟩
    · simp [hgone] at hsome
    · have hsome' : s.source.isSome := by
        rw [← Option.isSome_map (f := fun source : Session => source.id), ← hid, Option.isSome_map]
        exact hsome
      exact eventRowid_of_subset hkept (h.last.2 eventId hlast hsome')

theorem follows_deleteSource (h : Forked s) : Follows s (deleteSource s) := by
  rw [deleteSource]
  split
  · exact .refl s
  case h_2 source hsource =>
    refine ⟨rfl, rfl, rfl, rfl, rfl, ?_, ?_, .inl rfl, fun _ => rfl⟩
    · intro row hrow hchild
      have hne : row.sessionId ≠ source.id := by
        rw [hchild, h.source source hsource]
        exact h.apart
      simp [hrow, hne]
    · exact fun row hrow => .inl (Table.mem_delete.mp hrow).1

theorem follows_clear (s : State) (eventId now : String) : Follows s (clear s eventId now) := by
  rw [clear]
  split
  · exact .refl s
  · rename_i hstored
    exact (follows_persistEvent hstored).trans (.of_frame rfl)

theorem follows_reject (s : State) (freshId now : String) : Follows s (reject s freshId now) := by
  rw [reject]
  split
  · exact .refl s
  · split <;> exact .of_frame rfl

/-- **Every step.** -/
theorem follows_step (jsonText : Json → String) (h : Forked s) (act : Act) :
    Follows s (step jsonText s act) := by
  cases act with
  | send input => exact follows_send jsonText s input
  | report conversationId now =>
    simp only [step, report]
    split
    · exact .of_frame rfl
    · exact .refl s
  | output events => exact follows_output s events
  | reject freshId now => exact follows_reject s freshId now
  | finish state => exact .of_frame rfl
  | turnStarted threadId turnId => exact .of_frame rfl
  | clear eventId now =>
    simp only [step]
    split
    · exact follows_clear s eventId now
    · exact .refl s
  | event sessionId event =>
    simp only [step]
    cases hstored : persistEvent s sessionId event with
    | none => exact .refl s
    | some stored => exact follows_persistEvent hstored
  | sourceChanges source =>
    have hid : (s.source.map fun old => { source with id := old.id }).map (·.id) =
        s.source.map (·.id) := by
      rw [Option.map_map]
      rfl
    exact ⟨rfl, rfl, rfl, rfl, rfl, fun _ hrow _ => hrow, fun _ hrow => .inl hrow,
      .inr ⟨hid, fun _ hrow => hrow⟩, fun heq => heq.trans hid.symm⟩
  | deleteSource => exact follows_deleteSource h
  | reconfigure workspacePath configIdentity => exact .of_frame rfl

/-! ## The history -/

/-- The copies, and what the fork holds beside them. -/
structure Copied (s : State) : Prop where
  originals : ∀ copy ∈ s.point.copies, copy.sessionId = s.child.id ∧ 0 < copy.rowid ∧
    ∃ event ∈ s.point.events, event.sessionId = s.point.source.id ∧
      event.rowid ≤ s.point.selection.lastRowid ∧ Copies copy event
  visible : ∀ event ∈ s.point.events,
    eligible s.point.events s.point.source.id 0 s.point.selection.lastRowid event = true →
      ∃ copy ∈ s.point.copies, Copies copy event ∧
        ∀ marker ∈ s.point.copies, marker.type = "session.cleared" → marker.rowid < copy.rowid
  kept : ∀ copy ∈ s.point.copies, copy ∈ s.events
  rows : ∀ row ∈ s.events, row.sessionId = s.child.id →
    row ∈ s.point.copies ∨ ∀ copy ∈ s.point.copies, copy.rowid < row.rowid

theorem Copied.of_follows (h : Copied s) (hfollows : Follows s s') : Copied s' := by
  have hkept : ∀ copy ∈ s.point.copies, copy ∈ s'.events := fun copy hcopy =>
    hfollows.kept copy (h.kept copy hcopy) (h.originals copy hcopy).1
  constructor <;> simp only [hfollows.point, hfollows.childId]
  case originals => exact h.originals
  case visible => exact h.visible
  case kept => exact hkept
  case rows =>
    intro row hrow hchild
    rcases hfollows.later row hrow with hold | hnew
    · exact h.rows row hold hchild
    · exact .inr fun copy hcopy => hnew copy (h.kept copy hcopy) (h.originals copy hcopy).1

/-- What the fork holds of the conversation it was made from. -/
structure History (s : State) : Prop where
  /-- Nothing is newer than the fork boundary: a row of the fork is a copy of an event up to
  there, or it came to the fork itself after all the copies. -/
  upto : ∀ row ∈ s.events, row.sessionId = s.child.id →
    (∃ event ∈ s.point.events, event.sessionId = s.point.source.id ∧
      event.rowid ≤ s.point.selection.lastRowid ∧ Copies row event) ∨
    ∀ copy ∈ s.point.copies, copy.rowid < row.rowid
  /-- No visible message up to there is missing, until the fork is cleared. -/
  whole : ∀ event ∈ s.point.events,
    eligible s.point.events s.point.source.id 0 s.point.selection.lastRowid event = true →
      ∃ copy ∈ s.events, copy ∈ s.point.copies ∧ Copies copy event ∧
        ((∀ row ∈ s.events, row.sessionId = s.child.id → row.type = "session.cleared" →
            row ∈ s.point.copies) → copy.rowid ≤ maxRowid →
          eligible s.events s.child.id 0 maxRowid copy = true)

theorem lastCleared_lt {events : EventTable} {sessionId : String} {rowid : ℕ} (hpos : 0 < rowid)
    (h : ∀ row ∈ events, row.sessionId = sessionId → row.type = "session.cleared" →
      row.rowid < rowid) : lastCleared events sessionId < rowid := by
  have hle : ∀ rows : List EventRow, (∀ row ∈ rows, row.rowid < rowid) →
      rows.foldr (fun event newest => max event.rowid newest) 0 < rowid := by
    intro rows hrows
    induction rows with
    | nil => exact hpos
    | cons row rows ih =>
      have ⟨hrow, hrest⟩ := List.forall_mem_cons.mp hrows
      exact max_lt hrow (ih hrest)
  refine hle _ fun row hrow => ?_
  have ⟨hmem, hmarker⟩ := List.mem_filter.mp hrow
  simp only [Bool.and_eq_true, beq_iff_eq] at hmarker
  exact h row hmem hmarker.1 hmarker.2

theorem Copied.history (h : Copied s) : History s where
  upto row hrow hchild := (h.rows row hrow hchild).imp_left fun hcopy => (h.originals row hcopy).2.2
  whole event hevent hvisible := by
    have ⟨copy, hcopy, hcopies, hmarkers⟩ := h.visible event hevent hvisible
    have ⟨hchild, hpos, _⟩ := h.originals copy hcopy
    refine ⟨copy, h.kept copy hcopy, hcopy, hcopies, fun huncleared hmax => ?_⟩
    have hcleared : lastCleared s.events s.child.id < copy.rowid :=
      lastCleared_lt hpos fun row hrow hsession htype =>
        hmarkers row (huncleared row hrow hsession htype) htype
    simp only [eligible, Bool.and_eq_true, beq_iff_eq, decide_eq_true_eq] at hvisible ⊢
    rw [hcopies.type, hcopies.message, hcopies.payload, notChildAgent_copiedPayload]
    exact ⟨⟨⟨⟨⟨⟨hchild, hvisible.1.1.1.1.1.2⟩, hvisible.1.1.1.1.2⟩, hcleared⟩, hpos⟩, hmax⟩,
      hvisible.2⟩

/-! ## A new fork -/

section New

variable {events : EventTable} {sourceThen source : Session}
  {boundaryEventId : Option String} {selection : ForkSelection}
  {configIdentity : String → String} {input : ForkInput}

theorem id_forkedSession (mode : NativeMode) :
    (forkedSession source mode configIdentity input).id = input.sessionId := by
  simp only [forkedSession]
  split
  · split <;> rfl
  · rfl

/-- The parts of a new fork. -/
theorem forked_eq_some (h : forked events source selection configIdentity input = some s) :
    ∃ mode turn copies, nativePlan events source selection input.workspace = (mode, turn) ∧
      (∀ event ∈ events, event.sessionId ≠ input.sessionId) ∧ input.sessionId ≠ source.id ∧
      copyEvents input.sessionId input.draw events
        ((listAllSessionEvents events source.id).takeWhile fun event =>
          event.rowid ≤ selection.lastRowid) = some copies ∧
      s.child = forkedSession source mode configIdentity input ∧ s.events = copies ∧
      s.source = some source ∧ s.own = [] ∧ s.launch = none ∧
      s.point = ⟨events, source, selection,
        copies.rows.filter fun event => event.sessionId == input.sessionId⟩ ∧
      s.fork.sourceSessionId = some source.id ∧ s.fork.childSessionId = input.sessionId ∧
      s.fork.childBaseEventId = (newestVisibleEvent copies input.sessionId).map (·.2) ∧
      s.fork.sourceLastEventId = selection.lastEventId ∧ s.fork.nativeMode = mode ∧
      s.fork.nativeProvider = (if mode ≠ .none then some source.provider else none) ∧
      s.fork.nativeConversationId =
        (if mode = .codexLastTurn then source.providerConversationId else none) ∧
      s.fork.nativeTurnId = turn := by
  have ⟨made, hmade, heq⟩ := Option.map_eq_some_iff.mp h
  subst heq
  simp only [persistFork] at hmade
  split at hmade
  · cases hmade
  case isFalse hfree =>
    have ⟨copies, hcopies, heq⟩ := Option.map_eq_some_iff.mp hmade
    subst heq
    have hid := fun mode => @id_forkedSession source configIdentity input mode
    rw [hid] at hcopies
    simp only [Bool.or_eq_true, beq_iff_eq, List.any_eq_true, not_or, not_exists, not_and] at hfree
    refine ⟨_, _, copies, rfl, hfree.2, hfree.1, hcopies, rfl, rfl, rfl, rfl, rfl, ?_, rfl,
      hid _, ?_, rfl, rfl, rfl, rfl, rfl⟩ <;> simp only [hid]

/-- The copies of a new fork. -/
theorem copied_forked (h : forked events source selection configIdentity input = some s) :
    Copied s := by
  have ⟨mode, _, copied, _, hfree, _, hcopies, hchild, hevents, _, _, _, hpoint, _⟩ :=
    forked_eq_some h
  have ⟨copies, hrows, hall, hordered, hnew⟩ := copyEvents_spec hcopies
  have hid : s.child.id = input.sessionId := by rw [hchild, id_forkedSession]
  have hfilter : (copied.rows.filter fun event => event.sessionId == input.sessionId) = copies := by
    rw [hrows, List.filter_append, List.filter_eq_nil_iff.mpr, List.nil_append,
      List.filter_eq_self.mpr]
    · exact fun copy hcopy => by simp [(hnew copy hcopy).1]
    · exact fun event hevent => by simpa using hfree event hevent
  have hsource := pairwise_listAllSessionEvents events source.id
  rw [hfilter] at hpoint
  constructor <;> simp only [hpoint, hid, hevents]
  case originals =>
    intro copy hcopy
    have ⟨i, hi, heq⟩ := List.getElem_of_mem hcopy
    have hi' := hall.length_eq ▸ hi
    have hcopied : Copies copies[i] _ := hall.get hi hi'
    have hmem := mem_copied.mp (List.getElem_mem hi')
    refine ⟨(hnew copy hcopy).1, ?_, _, hmem.1, hmem.2.1, hmem.2.2, heq ▸ hcopied⟩
    have hlt := (hnew copy hcopy).2 _ hmem.1
    omega
  case visible =>
    intro event hevent hvisible
    have hrange : event.sessionId = source.id ∧ event.rowid ≤ selection.lastRowid := by
      simp only [eligible, Bool.and_eq_true, beq_iff_eq, decide_eq_true_eq] at hvisible
      exact ⟨hvisible.1.1.1.1.1.1, hvisible.1.2⟩
    exact exists_copy hall hordered (hsource.sublist (List.takeWhile_sublist _))
      (fun row hrow => ⟨(mem_copied.mp hrow).1, (mem_copied.mp hrow).2.1⟩)
      (mem_copied.mpr ⟨hevent, hrange⟩) hvisible
  case kept =>
    intro copy hcopy
    rw [Table.mem_def, hrows]
    exact List.mem_append_right _ hcopy
  case rows =>
    intro row hrow hsession
    rw [Table.mem_def, hrows] at hrow
    rcases List.mem_append.mp hrow with hold | hcopy
    · exact absurd hsession (hfree row hold)
    · exact .inl hcopy

/-- A new fork and its source. -/
theorem forked_forked {selected : EventTable}
    (hselect : selectForkRange selected sourceThen boundaryEventId = .ok selection)
    (hselected : ∀ event ∈ selected, event ∈ events)
    (h : forked events source selection configIdentity input = some s) : Forked s := by
  have ⟨_, _, copied, _, hfree, hapart, hcopies, hchild, hevents, hsource, _, _, hpoint,
    hsourceId, hchildId, hbase, hlast, _⟩ := forked_eq_some h
  have ⟨copies, hrows, _, _, hnew⟩ := copyEvents_spec hcopies
  have hid : s.child.id = input.sessionId := by rw [hchild, id_forkedSession]
  constructor
  case childSessionId => rw [hchildId, hid]
  case sourceSessionId => rw [hsourceId, hsource, Option.map_some]
  case source => simp [hsource, hpoint]
  case apart => rw [hid, hpoint]; exact hapart
  case base =>
    intro eventId heq
    rw [hbase] at heq
    have ⟨⟨rowid, id⟩, hnewest, hid'⟩ := Option.map_eq_some_iff.mp heq
    have ⟨event, hhead, heq'⟩ := Option.map_eq_some_iff.mp hnewest
    have ⟨hmem, heligible⟩ := mem_eligibleNewestFirst.mp (List.mem_of_head? hhead)
    simp only [eligible, Bool.and_eq_true, beq_iff_eq] at heligible
    refine ⟨event, hevents ▸ hmem, ?_, by rw [hid]; exact heligible.1.1.1.1.1.1⟩
    rw [← hid']
    exact (Prod.mk.inj heq').2
  case last =>
    rw [hlast, hpoint]
    refine ⟨rfl, fun eventId heq _ => ?_⟩
    refine eventRowid_of_subset ?_ (selectForkRange_lastEventId hselect heq)
    intro event hevent
    rw [hevents, Table.mem_def, hrows]
    exact List.mem_append_left _ (hselected event hevent)

end New

end Argmax.Providers.ForkPlan
