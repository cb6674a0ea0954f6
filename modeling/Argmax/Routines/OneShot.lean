import Argmax.Routines.Scheduler

/-!
# A one-shot launches once

Once an occurrence has launched, its row is either off or about to be switched off by
the firing that launched it: a success is booked with the token or, when an edit has
taken the token, by the fired time, and both leave a one-shot disabled. Only the user
switches it on again.

The argument is about one id at a time. A firing holds the claim of its id, so between
its reading of the row and its settlement nothing else of the scheduler touches the
row, and every edit moves the token.
-/

namespace Argmax.Routines

open Argmax.Lib Argmax.Persistence.Routines

/-! ## The invariant of an id -/

/-- What holds of a firing in progress, unless its row was deleted meanwhile. -/
structure Firing.Sound (s : State) (firing : Firing) : Prop where
  seen : firing.seen ≤ (s.editsOf firing.id).length
  /-- The row is there, and has the firing's token only if nothing has changed it. -/
  tracked : s.deletedSince firing = true ∨ ∃ row, s.routines.find? firing.id = some row ∧
    firing.fields.updatedAt ≤ row.updatedAt ∧
    (row.updatedAt = firing.fields.updatedAt →
      s.newer firing = [] ∧ row.schedule = firing.fields.schedule)
  /-- A one-shot does not stay scheduled. -/
  once : s.deletedSince firing = true ∨ (firing.staysScheduled = true → firing.runOnceAt = none)
  failure : ∀ nextRunAt lastError, firing.stage = .markFailed nextRunAt lastError true →
    s.deletedSince firing = true ∨ firing.runOnceAt = none
  cleared : s.deletedSince firing = true → ∀ time, (firing.id, time) ∉ s.spent
  /-- A tick fires no spent occurrence. -/
  unspent : firing.trigger = .tick → firing.stage.settles = false →
    ∀ time, firing.runOnceAt = some time → (firing.id, time) ∉ s.spent

/-- The row of a spent occurrence is off, or a firing of it is still settling. -/
def Quiet (s : State) (id : String) : Prop :=
  ∀ time row, (id, time) ∈ s.spent → s.routines.find? id = some row →
    row.schedule = .once time → row.enabled = true → s.settling id time = true

/-- The invariant of an id. -/
structure InvAt (s : State) (id : String) : Prop where
  firing : ∀ firing, s.firings.find? id = some firing → firing.Sound s
  quiet : Quiet s id

/-- What a settlement may do to a row that was edited since the firing read it: delete or
mark none, unless the row it read was deleted by then, and retire only what still has
the fired time and no other schedule. -/
def Settlement.Fair (settlement : Settlement) : Prop :=
  match settlement.kind with
  | .deleted | .marked =>
    settlement.newer = [] ∨ settlement.newer.any (·.deletes) = true
  | .retired =>
    ∃ row time, settlement.row = some row ∧ row.schedule = .once time ∧
      settlement.fields.schedule = .once time

/-- The invariant. -/
structure Inv (s : State) : Prop where
  rows : ∀ id, InvAt s id
  launches : ∀ launch ∈ s.launches, launch.trigger = .tick → launch.repeated = false
  settled : ∀ settlement ∈ s.settled, settlement.Fair

theorem start_inv : Inv start where
  rows := fun _ => ⟨(fun _ h => nomatch h), (fun _ _ h => nomatch h)⟩
  launches := fun _ h => nomatch h
  settled := fun _ h => nomatch h

/-! ## Other ids -/

/-- The states agree about an id, but for occurrences the second has forgotten. -/
structure SameAt (id : String) (s s' : State) : Prop where
  firings : s'.firings.find? id = s.firings.find? id
  routines : s'.routines.find? id = s.routines.find? id
  edits : s'.editsOf id = s.editsOf id
  spent : ∀ time, (id, time) ∈ s'.spent → (id, time) ∈ s.spent

theorem SameAt.refl (id : String) (s : State) : SameAt id s s :=
  ⟨rfl, rfl, rfl, fun _ h => h⟩

variable {id : String} {s : State} {firing : Firing} {routines : RoutineTable} {row : Routine}
  {stage : Stage}

theorem SameAt.trans {s' s'' : State} (h : SameAt id s s') (h' : SameAt id s' s'') :
    SameAt id s s'' where
  firings := h'.firings.trans h.firings
  routines := h'.routines.trans h.routines
  edits := h'.edits.trans h.edits
  spent := fun time hin => h.spent time (h'.spent time hin)

theorem InvAt.of_same {s' : State} (h : InvAt s id) (hsame : SameAt id s s') : InvAt s' id where
  firing := by
    intro firing hfiring
    rw [hsame.firings] at hfiring
    have hsound := h.firing firing hfiring
    have hid : firing.id = id := Table.key_of_find? hfiring
    have hedits : s'.editsOf firing.id = s.editsOf firing.id := by
      rw [hid]
      exact hsame.edits
    have hnewer : s'.newer firing = s.newer firing := by
      rw [State.newer, hedits, State.newer]
    have hdeleted : s'.deletedSince firing = s.deletedSince firing := by
      rw [State.deletedSince, hnewer, State.deletedSince]
    have hspent : ∀ time, (firing.id, time) ∈ s'.spent → (firing.id, time) ∈ s.spent := by
      rw [hid]
      exact hsame.spent
    constructor
    · rw [hedits]
      exact hsound.seen
    · rw [hdeleted, hnewer, hid, hsame.routines, ← hid]
      exact hsound.tracked
    · rw [hdeleted]
      exact hsound.once
    · rw [hdeleted]
      exact hsound.failure
    · rw [hdeleted]
      intro hgone time hin
      exact hsound.cleared hgone time (hspent time hin)
    · intro htick hstage time htime hin
      exact hsound.unspent htick hstage time htime (hspent time hin)
  quiet := by
    intro time row hin hrow hschedule henabled
    rw [hsame.routines] at hrow
    have hsettling := h.quiet time row (hsame.spent time hin) hrow hschedule henabled
    rw [State.settling] at hsettling ⊢
    rw [hsame.firings]
    exact hsettling

section Other

variable {s : State} {firing : Firing} {id other : String} {routines : RoutineTable}

theorem sameAt_advance (h : other ≠ firing.id) (stage : Stage) :
    SameAt other s (s.advance firing stage) where
  firings := by
    have hne : ({ firing with stage := stage } : Firing).id ≠ other := fun heq => h heq.symm
    rw [State.advance, Table.find?_put, if_neg hne]
  routines := rfl
  edits := rfl
  spent := fun _ hin => hin

theorem sameAt_finish (h : other ≠ firing.id) : SameAt other s (s.finish firing) where
  firings := by
    rw [State.finish, Table.find?_delete]
    cases hrow : s.firings.find? other with
    | none => rfl
    | some f =>
      have hkey : f.id ≠ firing.id := by
        rw [Table.key_of_find? hrow]
        exact h
      simp [hkey]
  routines := rfl
  edits := rfl
  spent := fun _ hin => hin

theorem sameAt_observeLaunch (h : other ≠ firing.id) : SameAt other s (s.observeLaunch firing) := by
  rw [State.observeLaunch]
  split
  · exact ⟨rfl, rfl, rfl, fun _ hin => hin⟩
  · refine ⟨rfl, rfl, rfl, ?_⟩
    intro time hin
    split at hin
    · exact hin
    · rcases List.mem_cons.mp hin with heq | hin
      · exact absurd (congrArg Prod.fst heq) h
      · exact hin

theorem sameAt_observeSettled (kind : SettlementKind)
    (h : routines.find? other = s.routines.find? other) :
    SameAt other s (s.observeSettled firing kind routines) :=
  ⟨rfl, h, rfl, fun _ hin => hin⟩

theorem sameAt_edited (h : other ≠ id)
    (hrow : routines.find? other = s.routines.find? other) :
    SameAt other s (s.edited id routines) where
  firings := rfl
  routines := hrow
  edits := by
    have hne : (id == other) = false := by simpa using fun heq => h heq.symm
    rw [State.edited]
    simp [hne, State.editsOf]
  spent := fun _ hin => hin

theorem sameAt_deleted (h : other ≠ id)
    (hrow : routines.find? other = s.routines.find? other) :
    SameAt other s (s.deleted id routines) where
  firings := rfl
  routines := hrow
  edits := by
    have hne : (id == other) = false := by simpa using fun heq => h heq.symm
    rw [State.deleted]
    simp [hne, State.editsOf]
  spent := fun _ hin => (List.mem_filter.mp hin).1

theorem sameAt_scheduled (s : State) (id other : String) : SameAt other s (s.scheduled id) := by
  rw [State.scheduled]
  split
  · exact SameAt.refl _ _
  · split
    · exact SameAt.refl _ _
    · split
      · exact ⟨rfl, rfl, rfl, fun _ hin => (List.mem_filter.mp hin).1⟩
      · exact SameAt.refl _ _

theorem sameAt_excused (s : State) (firing : Firing) (other : String) :
    SameAt other s (s.excused firing) :=
  ⟨rfl, rfl, rfl, fun _ hin => (List.mem_filter.mp hin).1⟩

end Other

/-! ## Edits -/

/-- A statement changes no row but that of an id, whose token it moves. -/
structure Moves (id : String) (table table' : RoutineTable) : Prop where
  others : ∀ other, other ≠ id → table'.find? other = table.find? other
  token : ∀ row, table.find? id = some row →
    ∃ row', table'.find? id = some row' ∧ row.updatedAt < row'.updatedAt

theorem Moves.trans {table table' table'' : RoutineTable} (h : Moves id table table')
    (h' : Moves id table' table'') : Moves id table table'' where
  others := fun other hother => (h'.others other hother).trans (h.others other hother)
  token := by
    intro row hrow
    obtain ⟨row', hrow', hlt⟩ := h.token row hrow
    obtain ⟨row'', hrow'', hlt'⟩ := h'.token row' hrow'
    exact ⟨row'', hrow'', hlt.trans hlt'⟩

theorem setRoutineLastSession_moves (table : RoutineTable) (id : String)
    (sessionId : Option String) (now : ℤ) :
    Moves id table (setRoutineLastSession table id sessionId now).1 where
  others := updateRoutine_others (by intro row; rfl)
  token := by
    intro row hrow
    exact ⟨_, updateRoutine_self (by intro row; rfl) hrow, lt_nextRoutineUpdatedAt hrow now⟩

theorem setRoutineEnabled_moves (table : RoutineTable) (id : String) (enabled : Bool)
    (nextRunAt : Option ℤ) (now : ℤ) :
    Moves id table (setRoutineEnabled table id enabled nextRunAt now).1 where
  others := updateRoutine_others (by intro row; rfl)
  token := by
    intro row hrow
    exact ⟨_, updateRoutine_self (by intro row; rfl) hrow, lt_nextRoutineUpdatedAt hrow now⟩

theorem upsertRoutine_moves (table : RoutineTable) (input : UpsertRoutineInput)
    (nextRunAt : Option ℤ) (now now' : ℤ) :
    Moves input.id table (upsertRoutine table input nextRunAt now now') := by
  rw [upsertRoutine]
  generalize hrow : Routine.mk _ _ _ _ _ _ _ _ _ _ _ _ _ _ _ _ _ = row
  have hid : row.id = input.id := by rw [← hrow]
  have hput : Moves input.id table (table.put row) := by
    constructor
    · intro other hother
      rw [Table.find?_put, hid, if_neg (fun heq => hother heq.symm)]
    · intro old hold
      refine ⟨row, ?_, ?_⟩
      · rw [Table.find?_put, if_pos hid]
      · rw [← hrow]
        exact lt_nextRoutineUpdatedAt hold now
  split
  · exact hput
  · exact hput.trans (setRoutineLastSession_moves _ _ _ _)

theorem editsOf_edited (s : State) (id : String) (routines : RoutineTable) :
    (s.edited id routines).editsOf id = s.editsOf id ++ [⟨id, false⟩] := by
  rw [State.edited]
  simp [State.editsOf]

theorem editsOf_deleted (s : State) (id : String) (routines : RoutineTable) :
    (s.deleted id routines).editsOf id = s.editsOf id ++ [⟨id, true⟩] := by
  rw [State.deleted]
  simp [State.editsOf]

/-- An edit is no deletion. -/
theorem deletedSince_edited (hseen : firing.seen ≤ (s.editsOf firing.id).length)
    (routines : RoutineTable) :
    (s.edited firing.id routines).deletedSince firing = s.deletedSince firing := by
  rw [State.deletedSince, State.newer, editsOf_edited, List.drop_append_of_le_length hseen,
    State.deletedSince, State.newer]
  simp

theorem deletedSince_deleted (hseen : firing.seen ≤ (s.editsOf firing.id).length)
    (routines : RoutineTable) : (s.deleted firing.id routines).deletedSince firing = true := by
  rw [State.deletedSince, State.newer, editsOf_deleted, List.drop_append_of_le_length hseen]
  simp

/-- An edit gives the firing of its row an outdated token. -/
theorem edited_sound (h : firing.Sound s) (hid : firing.id = id)
    (hmoves : Moves id s.routines routines) : firing.Sound (s.edited id routines) := by
  subst hid
  have hdeleted := deletedSince_edited h.seen routines
  constructor
  · have hseen := h.seen
    rw [editsOf_edited, List.length_append]
    omega
  · rw [hdeleted]
    rcases h.tracked with hgone | ⟨row, hrow, hle, _⟩
    · exact .inl hgone
    · right
      obtain ⟨row', hrow', hlt⟩ := hmoves.token row hrow
      refine ⟨row', hrow', hle.trans hlt.le, ?_⟩
      omega
  · rw [hdeleted]
    exact h.once
  · rw [hdeleted]
    exact h.failure
  · rw [hdeleted]
    exact h.cleared
  · exact h.unspent

@[simp] theorem scheduled_routines (s : State) (id : String) :
    (s.scheduled id).routines = s.routines := by
  rw [State.scheduled]
  repeat' split
  all_goals rfl

/-- A firing learns nothing from what becomes scheduled again. -/
theorem scheduled_sound (h : firing.Sound s) (id : String) : firing.Sound (s.scheduled id) := by
  have hsame := sameAt_scheduled s id firing.id
  have hnewer : (s.scheduled id).newer firing = s.newer firing := by
    rw [State.newer, hsame.edits, State.newer]
  have hdeleted : (s.scheduled id).deletedSince firing = s.deletedSince firing := by
    rw [State.deletedSince, hnewer, State.deletedSince]
  constructor
  · rw [hsame.edits]
    exact h.seen
  · rw [hdeleted, hnewer, scheduled_routines]
    exact h.tracked
  · rw [hdeleted]
    exact h.once
  · rw [hdeleted]
    exact h.failure
  · rw [hdeleted]
    intro hgone time hin
    exact h.cleared hgone time (hsame.spent time hin)
  · intro htick hstage time htime hin
    exact h.unspent htick hstage time htime (hsame.spent time hin)

/-- What is enabled by a save or a switch is spent no more, or still settles. -/
theorem scheduled_quiet (s : State) (id : String) : Quiet (s.scheduled id) id := by
  intro time row hin hrow hschedule henabled
  rw [scheduled_routines] at hrow
  have hsettling : (s.scheduled id).settling id time = s.settling id time := by
    rw [State.settling, (sameAt_scheduled s id id).firings, State.settling]
  rw [hsettling]
  by_contra hnot
  rw [Bool.not_eq_true] at hnot
  rw [State.scheduled, hrow] at hin
  dsimp only at hin
  rw [hschedule] at hin
  simp [henabled, hnot] at hin

/-- **A save or a switch keeps the invariant.** -/
theorem edited_scheduled_inv (h : Inv s) (hmoves : Moves id s.routines routines) :
    Inv ((s.edited id routines).scheduled id) where
  rows := by
    intro other
    by_cases hother : other = id
    · rw [hother]
      refine ⟨?_, scheduled_quiet _ _⟩
      intro firing hfiring
      rw [(sameAt_scheduled _ _ _).firings] at hfiring
      have hsound := (h.rows id).firing firing hfiring
      exact scheduled_sound (edited_sound hsound (Table.key_of_find? hfiring) hmoves) id
    · exact (h.rows other).of_same ((sameAt_edited hother (hmoves.others other hother)).trans
        (sameAt_scheduled _ _ _))
  launches := by
    rw [State.scheduled]
    repeat' split
    all_goals exact h.launches
  settled := by
    rw [State.scheduled]
    repeat' split
    all_goals exact h.settled

/-- A reset of the chat pointer schedules nothing. -/
theorem resetSession_inv (h : Inv s) (id : String) (now : ℤ) : Inv (resetSession s id now) := by
  rw [resetSession]
  cases hfind : s.routines.find? id with
  | none => exact h
  | some existing =>
    dsimp only
    split
    · have hmoves := setRoutineLastSession_moves s.routines id none now
      refine ⟨?_, h.launches, h.settled⟩
      intro other
      by_cases hother : other = id
      · rw [hother]
        constructor
        · intro firing hfiring
          exact edited_sound ((h.rows id).firing firing hfiring) (Table.key_of_find? hfiring) hmoves
        · intro time row hin hrow hschedule henabled
          have hself : (setRoutineLastSession s.routines id none now).1.find? id =
              some { existing with
                lastSessionId := none
                updatedAt := nextRoutineUpdatedAt s.routines id now } :=
            updateRoutine_self (by intro row; rfl) hfind
          have hsame := hself.symm.trans hrow
          cases hsame
          exact (h.rows id).quiet time existing hin hfind hschedule henabled
      · exact (h.rows other).of_same (sameAt_edited hother (hmoves.others other hother))
    · exact h

/-! ## Deletion -/

theorem find?_delete_id (table : RoutineTable) {other : String} (h : other ≠ id)
    (p : Routine → Bool) :
    (table.delete fun row => row.id == id && p row).find? other = table.find? other := by
  rw [Table.find?_delete]
  cases hrow : table.find? other with
  | none => rfl
  | some row =>
    have hkey : row.id ≠ id := by
      rw [Table.key_of_find? hrow]
      exact h
    simp [hkey]

theorem delete_inv (h : Inv s) (id : String) : Inv (delete s id) := by
  rw [delete, deleteRoutine]
  dsimp only
  split
  · refine ⟨?_, h.launches, h.settled⟩
    intro other
    by_cases hother : other = id
    · rw [hother]
      constructor
      · intro firing hfiring
        have hsound := (h.rows id).firing firing hfiring
        have hid : firing.id = id := Table.key_of_find? hfiring
        have hgone : ∀ routines, (s.deleted id routines).deletedSince firing = true := by
          intro routines
          rw [← hid]
          exact deletedSince_deleted hsound.seen routines
        have hforgotten : ∀ routines time,
            (firing.id, time) ∉ (s.deleted id routines).spent := by
          intro routines time hin
          have hkept := (List.mem_filter.mp hin).2
          simp [hid] at hkept
        constructor
        · have hseen := hsound.seen
          rw [hid] at hseen ⊢
          rw [editsOf_deleted, List.length_append]
          omega
        · exact .inl (hgone _)
        · exact .inl (hgone _)
        · intro _ _ _
          exact .inl (hgone _)
        · intro _ time
          exact hforgotten _ time
        · intro _ _ time _
          exact hforgotten _ time
      · intro time row hin
        have hkept := (List.mem_filter.mp hin).2
        simp at hkept
    · apply (h.rows other).of_same
      apply sameAt_deleted hother
      have hrow := find?_delete_id s.routines hother (fun _ => true)
      simpa using hrow
  · exact h

/-! ## Claims -/

theorem id_fire (cronNext : CronNext) (fields : RoutineLaunchFields) (trigger : Trigger)
    (now : ℤ) (seen : ℕ) : (fire cronNext fields trigger now seen).id = fields.id := by
  rw [fire]
  repeat' split
  all_goals rfl

/-- What a firing starts with. -/
theorem fire_spec (cronNext : CronNext) (fields : RoutineLaunchFields) (trigger : Trigger)
    (now : ℤ) (seen : ℕ) :
    (fire cronNext fields trigger now seen).fields = fields ∧
      (fire cronNext fields trigger now seen).trigger = trigger ∧
      (fire cronNext fields trigger now seen).seen = seen ∧
      ((fire cronNext fields trigger now seen).staysScheduled = true →
        fields.schedule.runOnceAt = none) ∧
      ∀ nextRunAt lastError,
        (fire cronNext fields trigger now seen).stage ≠ .markFailed nextRunAt lastError true := by
  have hstays : (fields.enabled && !fields.schedule.runOnceAt.isSome) = true →
      fields.schedule.runOnceAt = none := by
    intro hstays
    rw [Bool.and_eq_true] at hstays
    simpa using hstays.2
  rw [fire]
  repeat' split
  all_goals refine ⟨rfl, rfl, rfl, hstays, ?_⟩
  all_goals
    intro _ _ heq
    cases heq

/-- **A claim keeps the invariant.** A tick claims only what is switched on. -/
theorem claim_inv (cronNext : CronNext) (h : Inv s) (hrow : s.routines.find? row.id = some row)
    (hfree : s.firings.find? row.id = none) (trigger : Trigger)
    (hon : trigger = .tick → row.enabled = true) (now : ℤ) :
    Inv (claim cronNext s row trigger now) := by
  obtain ⟨hfields, htrigger, hseen, hstays, hstage⟩ := fire_spec cronNext
    (routineLaunchFields row) trigger now (s.editsOf row.id).length
  have hid := id_fire cronNext (routineLaunchFields row) trigger now (s.editsOf row.id).length
  rw [claim]
  revert hfields htrigger hseen hstays hstage hid
  generalize fire cronNext (routineLaunchFields row) trigger now (s.editsOf row.id).length = firing
  intro hfields htrigger hseen hstays hstage hid
  replace hid : firing.id = row.id := hid
  refine ⟨?_, h.launches, h.settled⟩
  intro other
  by_cases hother : other = row.id
  · have hnewer : s.newer firing = [] := by
      rw [State.newer, hid, hseen, List.drop_length]
    have hkept : s.deletedSince firing = false := by
      rw [State.deletedSince, hnewer]
      rfl
    rw [hother]
    constructor
    · intro found hfound
      rw [Table.find?_put, if_pos hid] at hfound
      cases hfound
      constructor
      · dsimp only [State.editsOf] at hseen ⊢
        rw [hid, hseen]
      · right
        refine ⟨row, ?_, ?_, ?_⟩
        · rw [hid]
          exact hrow
        · rw [hfields]
          exact le_refl _
        · intro _
          refine ⟨hnewer, ?_⟩
          rw [hfields]
          rfl
      · right
        rw [Firing.runOnceAt, hfields]
        exact hstays
      · intro nextRunAt lastError heq
        exact absurd heq (hstage nextRunAt lastError)
      · intro hgone
        cases hkept.symm.trans hgone
      · intro htick _ time htime hin
        rw [hid] at hin
        rw [Firing.runOnceAt, hfields] at htime
        have hsettling := (h.rows row.id).quiet time row hin hrow
          (Schedule.runOnceAt_eq_some.mp htime) (hon (htrigger.symm.trans htick))
        rw [State.settling, hfree] at hsettling
        cases hsettling
    · intro time found hin hfound hschedule henabled
      have hsettling := (h.rows row.id).quiet time found hin hfound hschedule henabled
      rw [State.settling, hfree] at hsettling
      cases hsettling
  · apply (h.rows other).of_same
    refine ⟨?_, rfl, rfl, fun _ hin => hin⟩
    rw [Table.find?_put, hid, if_neg (fun heq => hother heq.symm)]

theorem runNow_inv (cronNext : CronNext) (h : Inv s) (id : String) (now : ℤ) :
    Inv (runNow cronNext s id now) := by
  rw [runNow]
  split
  · exact h
  · rename_i hfree
    rw [Option.not_isSome_iff_eq_none] at hfree
    split
    · exact h
    · rename_i row hrow
      have hid := Table.key_of_find? hrow
      rw [← hid] at hrow hfree
      exact claim_inv cronNext h hrow hfree .runNow (by intro heq; cases heq) now

/-- What remains of the due list is none of the invariant's business. -/
theorem Inv.with_due (h : Inv s) (due : List String) : Inv { s with due := due } where
  rows := fun id => (h.rows id).of_same ⟨rfl, rfl, rfl, fun _ hin => hin⟩
  launches := h.launches
  settled := h.settled

theorem tick_inv (h : Inv s) (now : ℤ) : Inv (tick s now) := by
  rw [tick]
  split
  · exact h.with_due _
  · exact h

theorem claimDue_inv (cronNext : CronNext) (h : Inv s) (now : ℤ) :
    Inv (claimDue cronNext s now) := by
  rw [claimDue]
  split
  · split
    · exact h
    · rename_i id due _
      dsimp only
      split
      · exact h.with_due due
      · rename_i hfree
        rw [Option.not_isSome_iff_eq_none] at hfree
        split
        · exact h.with_due due
        · rename_i row hrow
          split
          · rename_i hdue
            rw [Bool.and_eq_true] at hdue
            have hid := Table.key_of_find? hrow
            rw [← hid] at hrow hfree
            exact claim_inv cronNext (h.with_due due) hrow hfree .tick (fun _ => hdue.1) now
          · exact h.with_due due
  · exact h

/-! ## The end of a firing and its next stage -/

section Own

variable {s : State} {firing : Firing} {id : String}

theorem firings_finish_self (s : State) (firing : Firing) :
    (s.finish firing).firings.find? firing.id = none := by
  rw [State.finish, Table.find?_eq_none]
  simp

/-- A firing may end when no occurrence that is spent is left switched on. -/
theorem finish_invAt (h : ∀ time row, (firing.id, time) ∈ s.spent →
    s.routines.find? firing.id = some row → row.schedule = .once time →
    row.enabled = false) : InvAt (s.finish firing) firing.id where
  firing := by
    intro other hother
    rw [firings_finish_self] at hother
    cases hother
  quiet := by
    intro time row hin hrow hschedule henabled
    rw [h time row hin hrow hschedule] at henabled
    cases henabled

/-- Before the settlement nothing that is spent is switched on. -/
theorem InvAt.off (h : InvAt s firing.id) (hfiring : s.firings.find? firing.id = some firing)
    (hstage : firing.stage.settles = false) (time : ℤ) (row : Routine)
    (hin : (firing.id, time) ∈ s.spent) (hrow : s.routines.find? firing.id = some row)
    (hschedule : row.schedule = .once time) : row.enabled = false := by
  by_contra hon
  rw [Bool.not_eq_false] at hon
  have hsettling := h.quiet time row hin hrow hschedule hon
  rw [State.settling, hfiring] at hsettling
  simp [hstage] at hsettling

/-- What is spent and switched on is what the firing fired. -/
theorem InvAt.fired (h : InvAt s firing.id) (hfiring : s.firings.find? firing.id = some firing)
    {time : ℤ} (hin : (firing.id, time) ∈ s.spent) (hrow : s.routines.find? firing.id = some row)
    (hschedule : row.schedule = .once time) (hon : row.enabled = true) :
    firing.runOnceAt = some time := by
  have hsettling := h.quiet time row hin hrow hschedule hon
  rw [State.settling, hfiring] at hsettling
  simp only [Option.any_some, Bool.and_eq_true, beq_iff_eq] at hsettling
  exact hsettling.1

/-- A stage that books nothing but what the firing allows. -/
def Stage.Allowed (firing : Firing) : Stage → Prop
  | .markFailed _ _ enabled => enabled = true → firing.staysScheduled = true
  | _ => True

theorem failure_of_allowed (h : stage.Allowed firing) (hsound : firing.Sound s)
    {nextRunAt : Option ℤ} {lastError : String}
    (hstage : stage = .markFailed nextRunAt lastError true) :
    s.deletedSince firing = true ∨ firing.runOnceAt = none := by
  rw [hstage] at h
  rcases hsound.once with hgone | honce
  · exact .inl hgone
  · exact .inr (honce (h rfl))

theorem settleSuccess_allowed (firing : Firing) (sessionId : Option String) :
    (settleSuccess firing.fields sessionId).Allowed firing := by
  rw [settleSuccess]
  split <;> trivial

theorem settleSuccess_settles (fields : RoutineLaunchFields) (sessionId : Option String) :
    (settleSuccess fields sessionId).settles = true := by
  rw [settleSuccess]
  split <;> rfl

theorem fails_allowed (firing : Firing) (lastError : String) :
    (firing.fails lastError).Allowed firing := fun h => h

theorem firings_advance_self (s : State) (firing : Firing) (stage : Stage) :
    (s.advance firing stage).firings.find? firing.id = some { firing with stage := stage } := by
  rw [State.advance, Table.find?_put]
  exact if_pos rfl

/-- What holds of a firing does not depend on the firings there are. -/
theorem Firing.Sound.advance (h : firing.Sound s) (other : Firing) (stage : Stage) :
    firing.Sound (s.advance other stage) :=
  ⟨h.seen, h.tracked, h.once, h.failure, h.cleared, h.unspent⟩

/-- A firing goes on with a stage: no further from the settlement than before. -/
theorem advance_invAt (h : InvAt s firing.id) (hfiring : s.firings.find? firing.id = some firing)
    (hallowed : stage.Allowed firing)
    (hsettles : firing.stage.settles = true → stage.settles = true) :
    InvAt (s.advance firing stage) firing.id where
  firing := by
    intro found hfound
    rw [firings_advance_self] at hfound
    cases hfound
    have hsound := h.firing firing hfiring
    refine ⟨hsound.seen, hsound.tracked, hsound.once, ?_, hsound.cleared, ?_⟩
    · intro nextRunAt lastError heq
      have hfailure := failure_of_allowed hallowed hsound heq
      exact hfailure
    · intro htick hstage
      apply hsound.unspent htick
      by_contra hold
      rw [Bool.not_eq_false] at hold
      rw [hsettles hold] at hstage
      cases hstage
  quiet := by
    intro time row hin hrow hschedule henabled
    have hold := h.quiet time row hin hrow hschedule henabled
    rw [State.settling, hfiring, Option.any_some, Bool.and_eq_true] at hold
    rw [State.settling, firings_advance_self, Option.any_some, Bool.and_eq_true]
    exact ⟨hold.1, hsettles hold.2⟩

/-- The launch of an occurrence spends it, and its firing settles next. -/
theorem launch_invAt (h : InvAt s firing.id) (hfiring : s.firings.find? firing.id = some firing)
    (hbefore : firing.stage.settles = false) (hallowed : stage.Allowed firing)
    (hsettles : stage.settles = true) :
    InvAt ((s.observeLaunch firing).advance firing stage) firing.id := by
  have hsound := h.firing firing hfiring
  have hlaunch : (s.observeLaunch firing).routines = s.routines ∧
      (s.observeLaunch firing).edits = s.edits ∧
      ∀ time, (firing.id, time) ∈ (s.observeLaunch firing).spent →
        (firing.id, time) ∈ s.spent ∨
          (s.deletedSince firing = false ∧ firing.runOnceAt = some time) := by
    rw [State.observeLaunch]
    split
    · exact ⟨rfl, rfl, fun _ hin => .inl hin⟩
    · rename_i fired hfired
      refine ⟨rfl, rfl, ?_⟩
      intro time hin
      split at hin
      · exact .inl hin
      · rename_i hkept
        rcases List.mem_cons.mp hin with heq | hin
        · right
          cases heq
          exact ⟨by simpa using hkept, hfired⟩
        · exact .inl hin
  revert hlaunch
  generalize s.observeLaunch firing = launched
  rintro ⟨hroutines, hedits, hspent⟩
  have hnewer : launched.newer firing = s.newer firing := by
    rw [State.newer, State.editsOf, hedits]
    rfl
  have hdeleted : launched.deletedSince firing = s.deletedSince firing := by
    rw [State.deletedSince, hnewer, State.deletedSince]
  constructor
  · intro found hfound
    rw [firings_advance_self] at hfound
    cases hfound
    have hgone : (launched.advance firing stage).deletedSince { firing with stage := stage } =
        s.deletedSince firing := hdeleted
    constructor
    · have hseen := hsound.seen
      rw [State.editsOf, ← hedits] at hseen
      exact hseen
    · rw [hgone]
      rcases hsound.tracked with htracked | ⟨row, hrow, hle, hsame⟩
      · exact .inl htracked
      · right
        refine ⟨row, ?_, hle, ?_⟩
        · rw [← hroutines] at hrow
          exact hrow
        · intro htoken
          obtain ⟨hnone, hschedule⟩ := hsame htoken
          exact ⟨hnewer.trans hnone, hschedule⟩
    · rw [hgone]
      exact hsound.once
    · rw [hgone]
      intro nextRunAt lastError heq
      exact failure_of_allowed hallowed hsound heq
    · rw [hgone]
      intro hdel time hin
      rcases hspent time hin with hold | ⟨hkept, _⟩
      · exact hsound.cleared hdel time hold
      · rw [hkept] at hdel
        cases hdel
    · intro _ hnot
      rw [hsettles] at hnot
      cases hnot
  · intro time row hin hrow hschedule henabled
    have hrow' : s.routines.find? firing.id = some row := by
      rw [← hroutines]
      exact hrow
    rw [State.settling, firings_advance_self, Option.any_some, hsettles, Bool.and_true, beq_iff_eq]
    rcases hspent time hin with hold | ⟨_, hfired⟩
    · rw [h.off hfiring hbefore time row hold hrow' hschedule] at henabled
      cases henabled
    · exact hfired

end Own

/-! ## Answers -/

section Answers

variable {s : State} {firing : Firing}

/-- A step of a firing that touches its own id only. -/
theorem Inv.of_own (h : Inv s) {s' : State}
    (hothers : ∀ other, other ≠ firing.id → SameAt other s s') (hown : InvAt s' firing.id)
    (hlaunches : ∀ launch ∈ s'.launches, launch.trigger = .tick → launch.repeated = false)
    (hsettled : ∀ settlement ∈ s'.settled, settlement.Fair) : Inv s' where
  rows := by
    intro other
    by_cases hother : other = firing.id
    · rw [hother]
      exact hown
    · exact (h.rows other).of_same (hothers other hother)
  launches := hlaunches
  settled := hsettled

theorem advance_inv (h : Inv s) (hfiring : s.firings.find? firing.id = some firing)
    (hallowed : stage.Allowed firing)
    (hsettles : firing.stage.settles = true → stage.settles = true) :
    Inv (s.advance firing stage) :=
  h.of_own (fun _ hother => sameAt_advance hother stage)
    (advance_invAt (h.rows firing.id) hfiring hallowed hsettles) h.launches h.settled

theorem finish_inv (h : Inv s) (hoff : ∀ time row, (firing.id, time) ∈ s.spent →
    s.routines.find? firing.id = some row → row.schedule = .once time →
    row.enabled = false) : Inv (s.finish firing) :=
  h.of_own (fun _ hother => sameAt_finish hother) (finish_invAt hoff) h.launches h.settled

/-- **A launch keeps the invariant.** The occurrence a tick launches is not spent. -/
theorem launch_inv (h : Inv s) (hfiring : s.firings.find? firing.id = some firing)
    (hbefore : firing.stage.settles = false) (hallowed : stage.Allowed firing)
    (hsettles : stage.settles = true) : Inv ((s.observeLaunch firing).advance firing stage) := by
  refine @Inv.of_own s firing h _ ?_ ?_ ?_ ?_
  · intro other hother
    exact (sameAt_observeLaunch hother).trans (sameAt_advance hother stage)
  · exact launch_invAt (h.rows firing.id) hfiring hbefore hallowed hsettles
  · have hsound := (h.rows firing.id).firing firing hfiring
    intro launch hlaunch htick
    rw [State.observeLaunch] at hlaunch
    split at hlaunch
    · rcases List.mem_append.mp hlaunch with hold | hnew
      · exact h.launches launch hold htick
      · rw [List.mem_singleton.mp hnew]
    · rename_i time hfired
      rcases List.mem_append.mp hlaunch with hold | hnew
      · exact h.launches launch hold htick
      · rw [List.mem_singleton.mp hnew] at htick ⊢
        have hunspent := hsound.unspent htick hbefore time hfired
        simpa using hunspent
  · rw [State.observeLaunch]
    split
    · exact h.settled
    · exact h.settled

/-- A failure that may have started something. -/
theorem failed_inv (h : Inv s) (hfiring : s.firings.find? firing.id = some firing)
    (hbefore : firing.stage.settles = false) (started : Bool) (lastError : String) :
    Inv ((if started then s.observeLaunch firing else s).advance firing
      (firing.fails lastError)) := by
  split
  · exact launch_inv h hfiring hbefore (fails_allowed firing lastError) rfl
  · exact advance_inv h hfiring (fails_allowed firing lastError) (fun _ => rfl)

theorem sent_inv (h : Inv s) (hfiring : s.firings.find? firing.id = some firing)
    (hbefore : firing.stage.settles = false) (sessionId : Option String) :
    Inv ((s.observeLaunch firing).advance firing (settleSuccess firing.fields sessionId)) :=
  launch_inv h hfiring hbefore (settleSuccess_allowed firing sessionId) (settleSuccess_settles _ _)

/-- A firing that waits may end as it is. -/
theorem deferred_inv (h : Inv s) (hfiring : s.firings.find? firing.id = some firing)
    (hbefore : firing.stage.settles = false) : Inv (s.finish firing) :=
  finish_inv h ((h.rows firing.id).off hfiring hbefore)

theorem resolveArc_inv (h : Inv s) (hfiring : s.firings.find? firing.id = some firing)
    (hbefore : firing.stage.settles = false) (resolution : ArcCoordinatorResolution) :
    Inv (resolveArc s firing resolution) := by
  cases resolution with
  | skip =>
    exact advance_inv h hfiring (settleSuccess_allowed firing none)
      (fun _ => settleSuccess_settles _ _)
  | noCoordinator => exact advance_inv h hfiring (fails_allowed firing _) (fun _ => rfl)
  | coordinator sessionId =>
    have hallowed : (Stage.send sessionId).Allowed firing := trivial
    apply advance_inv h hfiring hallowed
    intro hsettles
    rw [hbefore] at hsettles
    cases hsettles

theorem coordinatorAnswered_inv (h : Inv s)
    (hfiring : s.firings.find? firing.id = some firing)
    (hbefore : firing.stage.settles = false) (outcome : FollowUpOutcome) :
    Inv (coordinatorAnswered s firing outcome) := by
  cases outcome with
  | sent => exact sent_inv h hfiring hbefore none
  | busy => exact deferred_inv h hfiring hbefore
  | missing => exact advance_inv h hfiring (fails_allowed firing _) (fun _ => rfl)
  | failed message started => exact failed_inv h hfiring hbefore started message

/-- A firing that reads its row again, while the row has its token, goes on with the
occurrence it had, unless the row it first read is gone. -/
theorem reread_sound (hsound : firing.Sound s) (hbefore : firing.stage.settles = false)
    {current : Routine} (hcurrent : s.routines.find? firing.id = some current)
    (htoken : current.updatedAt = firing.fields.updatedAt)
    (hschedule : row.schedule = current.schedule) (hid : row.id = firing.id)
    (hrow : routines.find? firing.id = some row) : Firing.Sound { s with routines := routines }
      { firing with fields := routineLaunchFields row, stage := .launch } := by
  have hsame : s.deletedSince firing = true ∨
      (s.newer firing = [] ∧ current.schedule = firing.fields.schedule) := by
    rcases hsound.tracked with hgone | ⟨found, hfound, _, hread⟩
    · exact .inl hgone
    · rw [hcurrent] at hfound
      cases hfound
      exact .inr (hread htoken)
  have hnewId : Firing.id { firing with fields := routineLaunchFields row, stage := .launch } =
      firing.id := hid
  have hnewer : State.newer { s with routines := routines }
      { firing with fields := routineLaunchFields row, stage := .launch } = s.newer firing := by
    rw [State.newer, hnewId]
    rfl
  have hdeleted : State.deletedSince { s with routines := routines }
      { firing with fields := routineLaunchFields row, stage := .launch } =
        s.deletedSince firing := by
    rw [State.deletedSince, hnewer, State.deletedSince]
  constructor
  · rw [hnewId]
    exact hsound.seen
  · rw [hdeleted, hnewId]
    rcases hsame with hgone | ⟨hnone, _⟩
    · exact .inl hgone
    · exact .inr ⟨row, hrow, le_refl _, fun _ => ⟨hnewer.trans hnone, rfl⟩⟩
  · rw [hdeleted]
    rcases hsame with hgone | ⟨_, hread⟩
    · exact .inl hgone
    · apply hsound.once.imp_right
      intro honce hstays
      have hnone := honce hstays
      rw [Firing.runOnceAt, ← hread, ← hschedule] at hnone
      exact hnone
  · intro _ _ heq
    cases heq
  · rw [hdeleted, hnewId]
    exact hsound.cleared
  · intro htick _ time htime hin
    rw [hnewId] at hin
    rcases hsame with hgone | ⟨_, hread⟩
    · exact hsound.cleared hgone time hin
    · apply hsound.unspent htick hbefore time _ hin
      rw [Firing.runOnceAt, ← hread, ← hschedule]
      exact htime

/-- The pointer of a row that is as the firing read it is dropped, and the firing goes
on with the row it then reads. -/
theorem chatMissing_inv (h : Inv s) (hfiring : s.firings.find? firing.id = some firing)
    (hbefore : firing.stage.settles = false) (now : ℤ) : Inv (chatMissing s firing now) := by
  rw [chatMissing]
  split
  · exact deferred_inv h hfiring hbefore
  rename_i current hcurrent
  split
  · rename_i htoken
    obtain ⟨hothers, _⟩ := setRoutineLastSession_moves s.routines firing.id none now
    have hself : (setRoutineLastSession s.routines firing.id none now).1.find? firing.id =
        some { current with
          lastSessionId := none
          updatedAt := nextRoutineUpdatedAt s.routines firing.id now } :=
      updateRoutine_self (by intro row; rfl) hcurrent
    dsimp only
    rw [hself]
    generalize hrow : ({ current with
      lastSessionId := none
      updatedAt := nextRoutineUpdatedAt s.routines firing.id now } : Routine) = row at hself ⊢
    generalize (setRoutineLastSession s.routines firing.id none now).1 = routines at hself hothers ⊢
    have hid : row.id = firing.id := Table.key_of_find? hself
    have hschedule : row.schedule = current.schedule := by rw [← hrow]
    have henabled : row.enabled = current.enabled := by rw [← hrow]
    have hsound := reread_sound ((h.rows firing.id).firing firing hfiring) hbefore hcurrent
      htoken hschedule hid hself
    have hreread : Firing.id { firing with fields := routineLaunchFields row } = firing.id :=
      hid
    refine @Inv.of_own s firing h _ ?_ ?_ ?_ ?_
    · intro other hother
      have hrows : SameAt other s { s with routines := routines } :=
        ⟨rfl, hothers other hother, rfl, fun _ hin => hin⟩
      apply hrows.trans
      apply sameAt_advance
      rw [hreread]
      exact hother
    · constructor
      · intro found hfound
        rw [← hreread, firings_advance_self] at hfound
        cases hfound
        exact hsound.advance _ _
      · intro time found hin hfound hscheduled hon
        have hsame := hself.symm.trans hfound
        cases hsame
        rw [henabled, (h.rows firing.id).off hfiring hbefore time current hin hcurrent
          (hschedule.symm.trans hscheduled)] at hon
        cases hon
    · exact h.launches
    · exact h.settled
  · exact deferred_inv h hfiring hbefore

theorem chatAnswered_inv (h : Inv s) (hfiring : s.firings.find? firing.id = some firing)
    (hbefore : firing.stage.settles = false) (now : ℤ) (outcome : FollowUpOutcome) :
    Inv (chatAnswered s firing now outcome) := by
  cases outcome with
  | sent => exact sent_inv h hfiring hbefore none
  | busy => exact deferred_inv h hfiring hbefore
  | missing => exact chatMissing_inv h hfiring hbefore now
  | failed message started => exact failed_inv h hfiring hbefore started message

theorem launchAnswered_inv (h : Inv s) (hfiring : s.firings.find? firing.id = some firing)
    (hbefore : firing.stage.settles = false) (result : LaunchResult) :
    Inv (launchAnswered s firing result) := by
  cases result with
  | launched sessionId => exact sent_inv h hfiring hbefore _
  | failed error started => exact failed_inv h hfiring hbefore started _

end Answers

/-! ## Settlement -/

section Settle

variable {s : State} {firing : Firing}

/-- A settlement that finds its row ends the firing. -/
theorem observeSettled_inv (h : Inv s) {kind : SettlementKind}
    (hothers : ∀ other, other ≠ firing.id → routines.find? other = s.routines.find? other)
    (hoff : ∀ time row, (firing.id, time) ∈ s.spent → routines.find? firing.id = some row →
      row.schedule = .once time → row.enabled = false)
    (hfair : Settlement.Fair ⟨kind, firing.fields, s.routines.find? firing.id, s.newer firing⟩) :
    Inv ((s.observeSettled firing kind routines).finish firing) := by
  refine @Inv.of_own s firing h _ ?_ ?_ h.launches ?_
  · intro other hother
    exact (sameAt_observeSettled kind (hothers other hother)).trans (sameAt_finish hother)
  · exact finish_invAt hoff
  · intro settlement hsettlement
    rcases List.mem_append.mp hsettlement with hold | hnew
    · exact h.settled settlement hold
    · rw [List.mem_singleton.mp hnew]
      exact hfair

/-- **The token.** A row with the firing's token has not been edited since the firing read
it, unless the row it read is gone. -/
theorem newer_of_token (hsound : firing.Sound s) (hrow : s.routines.find? firing.id = some row)
    (htoken : row.updatedAt = firing.fields.updatedAt) :
    s.deletedSince firing = true ∨
      (s.newer firing = [] ∧ row.schedule = firing.fields.schedule) := by
  rcases hsound.tracked with hgone | ⟨found, hfound, _, hread⟩
  · exact .inl hgone
  · rw [hrow] at hfound
    cases hfound
    exact .inr (hread htoken)

theorem fair_of_token (hsound : firing.Sound s) (hrow : s.routines.find? firing.id = some row)
    (htoken : row.updatedAt = firing.fields.updatedAt) {kind : SettlementKind}
    (hkind : kind = .deleted ∨ kind = .marked) : Settlement.Fair
      ⟨kind, firing.fields, s.routines.find? firing.id, s.newer firing⟩ := by
  have hnewer : s.newer firing = [] ∨ (s.newer firing).any (·.deletes) = true := by
    rcases newer_of_token hsound hrow htoken with hgone | ⟨hnone, _⟩
    · exact .inr hgone
    · exact .inl hnone
  rcases hkind with rfl | rfl
  · exact hnewer
  · exact hnewer

/-- A booking that finds the token leaves a one-shot off. -/
theorem mark_inv (h : Inv s) (hfiring : s.firings.find? firing.id = some firing)
    (nextRunAt : Option ℤ) (lastError : Option String) {enabled : Bool}
    (sessionId : Option String) (now : ℤ)
    (honce : enabled = true → s.deletedSince firing = true ∨ firing.runOnceAt = none)
    (hrecorded : (markRoutineRun s.routines firing.fields firing.now nextRunAt lastError
      enabled sessionId now).2 = true) :
    Inv ((s.observeSettled firing .marked (markRoutineRun s.routines firing.fields firing.now
      nextRunAt lastError enabled sessionId now).1).finish firing) := by
  have hsound := (h.rows firing.id).firing firing hfiring
  obtain ⟨row, hrow, htoken⟩ := updateRoutine_snd.mp hrecorded
  rw [beq_iff_eq] at htoken
  apply observeSettled_inv h
  · exact updateRoutine_others (by intro row; rfl)
  · intro time found hin hfound hschedule
    have hself : (markRoutineRun s.routines firing.fields firing.now nextRunAt lastError
        enabled sessionId now).1.find? firing.id = some _ :=
      updateRoutine_self (by intro row; rfl) hrow
    rw [hself, if_pos (beq_iff_eq.mpr htoken)] at hfound
    cases hfound
    by_contra hon
    rw [Bool.not_eq_false] at hon
    rcases newer_of_token hsound hrow htoken with hgone | ⟨_, hread⟩
    · exact hsound.cleared hgone time hin
    · rcases honce hon with hgone | hnone
      · exact hsound.cleared hgone time hin
      · rw [Firing.runOnceAt, ← hread, hschedule] at hnone
        cases hnone
  · exact fair_of_token hsound hrow htoken (.inr rfl)

/-- **Settlement keeps the invariant.** -/
theorem settle_inv (h : Inv s) (hfiring : s.firings.find? firing.id = some firing)
    (now : ℤ) : Inv (settle s firing now) := by
  have hsound := (h.rows firing.id).firing firing hfiring
  rw [settle]
  cases hstage : firing.stage with
  | deleteSpent sessionId =>
    dsimp only [deleteSpentRoutine]
    split
    · rename_i happlied
      rw [Option.any_eq_true] at happlied
      obtain ⟨row, hrow, htoken⟩ := happlied
      rw [beq_iff_eq] at htoken
      apply observeSettled_inv h
      · intro other hother
        exact find?_delete_id _ hother _
      · intro time found _ hfound
        rw [Table.find?_delete, hrow] at hfound
        have hid : row.id = firing.id := Table.key_of_find? hrow
        simp [Option.filter, hid, htoken] at hfound
      · exact fair_of_token hsound hrow htoken (.inl rfl)
    · have hallowed : (Stage.mark sessionId).Allowed firing := trivial
      exact advance_inv h hfiring hallowed (fun _ => rfl)
  | mark sessionId =>
    dsimp only
    split
    · rename_i hrecorded
      apply mark_inv h hfiring _ _ _ _ _ hrecorded
      intro hstays
      exact hsound.once.imp_right fun honce => honce hstays
    · split
      · have hallowed : Stage.retire.Allowed firing := trivial
        exact advance_inv h hfiring hallowed (fun _ => rfl)
      · rename_i hnone
        apply finish_inv h
        intro time row hin hrow hschedule
        by_contra hon
        rw [Bool.not_eq_false] at hon
        rw [(h.rows firing.id).fired hfiring hin hrow hschedule hon] at hnone
        exact hnone rfl
  | retire =>
    dsimp only
    split
    · rename_i hnone
      apply finish_inv h
      intro time row hin hrow hschedule
      by_contra hon
      rw [Bool.not_eq_false] at hon
      rw [(h.rows firing.id).fired hfiring hin hrow hschedule hon] at hnone
      cases hnone
    · rename_i fired hfired
      split
      · rename_i hretired
        obtain ⟨row, hrow, hmatches⟩ := updateRoutine_snd.mp hretired
        apply observeSettled_inv h
        · exact updateRoutine_others (by intro row; rfl)
        · intro time found _ hfound _
          have hself : (retireFiredOneShot s.routines firing.id fired firing.now now).1.find?
              firing.id = some _ := updateRoutine_self (by intro row; rfl) hrow
          rw [hself, if_pos hmatches] at hfound
          cases hfound
          rfl
        · rw [Bool.and_eq_true, beq_iff_eq, Schedule.runOnceAt_eq_some] at hmatches
          exact ⟨row, fired, hrow, hmatches.2, Schedule.runOnceAt_eq_some.mp hfired⟩
      · rename_i hmissed
        apply finish_inv h
        intro time row hin hrow hschedule
        by_contra hon
        rw [Bool.not_eq_false] at hon
        have hsame := (h.rows firing.id).fired hfiring hin hrow hschedule hon
        rw [hfired] at hsame
        cases hsame
        apply hmissed
        apply updateRoutine_snd.mpr
        refine ⟨row, hrow, ?_⟩
        rw [hschedule]
        simp [Schedule.cronExpr]
  | markFailed nextRunAt lastError enabled =>
    dsimp only
    split
    · rename_i hrecorded
      apply mark_inv h hfiring _ _ _ _ _ hrecorded
      intro hon
      rw [hon] at hstage
      exact hsound.failure nextRunAt lastError hstage
    · refine @Inv.of_own s firing h _ ?_ ?_ h.launches h.settled
      · intro other hother
        exact (sameAt_excused s firing other).trans (sameAt_finish hother)
      · apply finish_invAt
        intro time row hin hrow hschedule
        by_contra hon
        rw [Bool.not_eq_false] at hon
        obtain ⟨hspent, hkept⟩ := List.mem_filter.mp hin
        have hfired := (h.rows firing.id).fired hfiring hspent hrow hschedule hon
        simp [hfired] at hkept
  | resolveArc => exact h
  | send sessionId => exact h
  | launch => exact h

end Settle

/-! ## Runs -/

/-- **Every step keeps the invariant.** -/
theorem step_inv (cronNext : CronNext) (s : State) (action : Action) (h : Inv s) :
    Inv (step cronNext s action) := by
  cases action with
  | save input now now' =>
    rw [step, save]
    split
    · exact h
    · have hmoves := upsertRoutine_moves s.routines { input with createdBy := .user }
      exact edited_scheduled_inv h (hmoves _ now now')
  | wake input time sessionId now now' =>
    apply edited_scheduled_inv h
    exact (upsertRoutine_moves _ _ _ _ _).trans (setRoutineLastSession_moves _ _ _ _)
  | setEnabled id enabled now =>
    rw [step, setEnabled]
    split
    · exact h
    · dsimp only
      split
      · exact h
      · exact edited_scheduled_inv h (setRoutineEnabled_moves _ _ _ _ _)
  | resumeSchedule id nextRunAt now =>
    rw [step, resumeSchedule]
    dsimp only
    split
    · exact edited_scheduled_inv h (setRoutineEnabled_moves _ _ _ _ _)
    · exact h
  | delete id => exact delete_inv h id
  | resetSession id now => exact resetSession_inv h id now
  | runNow id now => exact runNow_inv cronNext h id now
  | tick now => exact tick_inv h now
  | claimDue now => exact claimDue_inv cronNext h now
  | arcAnswers id resolution =>
    rw [step]
    split
    · rename_i firing hfiring
      rw [← Table.key_of_find? hfiring] at hfiring
      split
      · rename_i hstage
        have hbefore : firing.stage.settles = false := by rw [hstage]; rfl
        exact resolveArc_inv h hfiring hbefore resolution
      · exact h
    · exact h
  | chatAnswers id outcome now =>
    rw [step]
    split
    · rename_i firing hfiring
      rw [← Table.key_of_find? hfiring] at hfiring
      split
      · rename_i hstage
        have hbefore : firing.stage.settles = false := by rw [hstage]; rfl
        split
        · exact coordinatorAnswered_inv h hfiring hbefore outcome
        · exact chatAnswered_inv h hfiring hbefore now outcome
      · exact h
    · exact h
  | launchAnswers id result =>
    rw [step]
    split
    · rename_i firing hfiring
      rw [← Table.key_of_find? hfiring] at hfiring
      split
      · rename_i hstage
        have hbefore : firing.stage.settles = false := by rw [hstage]; rfl
        exact launchAnswered_inv h hfiring hbefore result
      · exact h
    · exact h
  | settle id now =>
    rw [step]
    split
    · rename_i firing hfiring
      rw [← Table.key_of_find? hfiring] at hfiring
      exact settle_inv h hfiring now
    · exact h

/-- What holds of the launches and settlements of a run. -/
structure LaunchesOnce (s : State) : Prop where
  /-- No tick launches an occurrence that launched and was not scheduled again since. -/
  once : ∀ launch ∈ s.launches, launch.trigger = .tick → launch.repeated = false
  fair : ∀ settlement ∈ s.settled, settlement.Fair

/-- **One-shots launch once.** Over every interleaving of ticks, run-now requests,
edits, toggles and deletions with the steps of the firings, no tick launches an
occurrence again that nobody scheduled again, and no settlement deletes or marks a row
with an edit newer than its firing, or retires one that was given another schedule. -/
theorem one_shots_launch_once (cronNext : CronNext) (actions : List Action) :
    LaunchesOnce (run (step cronNext) start actions) := by
  have hinv := run_invariant (step_inv cronNext) start_inv actions
  exact ⟨hinv.launches, hinv.settled⟩

/-- A row may be retired while it has a newer edit: an edit of the prompt that keeps the
fired time does not stop the retirement. -/
theorem retires_row_with_newer_edit :
    ¬ ∀ (cronNext : CronNext) (actions : List Action),
      (∀ launch ∈ (run (step cronNext) start actions).launches,
        launch.trigger = .tick → launch.repeated = false) ∧
      ∀ settlement ∈ (run (step cronNext) start actions).settled,
        settlement.kind = .deleted ∨ settlement.kind = .retired → settlement.newer = [] := by
  intro hclaim
  have hnewer := (hclaim (fun _ _ => .ok none)
    [.save ⟨"r", "", "p", "a", "claude", "", "", .newSession, none, .once 5, true, .user⟩ 0 0,
      .tick 10, .claimDue 10,
      .save ⟨"r", "", "p", "b", "claude", "", "", .newSession, none, .once 5, true, .user⟩ 11 11,
      .launchAnswers "r" (.launched "s"), .settle "r" 12, .settle "r" 13]).2
  revert hnewer
  decide

end Argmax.Routines
