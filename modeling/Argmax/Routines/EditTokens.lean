import Argmax.Lib.Rfc3339
import Argmax.Routines.OneShot
import Mathlib.Data.Char
import Mathlib.Data.List.Lex

/-!
# Edits win over settlements

Every write of a routine row moves its `updated_at` forward, also within one
millisecond and when the clock steps back, and a firing settles on the row with the
token it read. The token and the due time are texts, and both are compared as texts:
they are written in one fixed format, whose order is that of the times as long as the
year has four digits.

A settlement by the fired time, `retire_fired_one_shot`, is meant for rows that an
edit has touched and leaves a row alone that an edit has given another schedule.

## Main results

* `nextRoutineUpdatedAt_stamp`: the token in text is the token in milliseconds.
* `step_forward`: every step moves the tokens of the rows it writes.
* `step_booked`: what a firing will book lies after its time and switches nothing on.
* `edits_win`: the claims about every step of every run.
-/

namespace Argmax.Routines

open Argmax.Lib Argmax.Persistence.Routines

/-! ## Tokens as text -/

/-- The milliseconds from the start of year 0 to the Unix epoch. -/
def unixEpoch : ℕ := 62167219200000

/-- `format_rfc3339` of a time from the Unix epoch on; the clock reads no other. -/
def stamp (time : ℤ) : List Char := Rfc3339.text (unixEpoch + time.toNat)

/-- From the Unix epoch to the end of year 9999. -/
def Stampable (time : ℤ) : Prop := 0 ≤ time ∧ unixEpoch + time.toNat < Rfc3339.fourDigitEnd

/-- `next_routine_updated_at` on the stored text and the clock's. -/
def nextUpdatedAtText (current : Option (List Char)) (now : List Char) : List Char :=
  match current.filter fun current => decide (now ≤ current) with
  | none => now
  | some current =>
    match Rfc3339.parse current with
    | none => now
    | some instant => Rfc3339.text (instant + 1)

theorem stamp_lt {time time' : ℤ} (h : time < time') (hstart : 0 ≤ time)
    (hend : Stampable time') : stamp time < stamp time' :=
  Rfc3339.text_lt (by omega) hend.2

/-- The later time, and the later text while the texts can say so. -/
def Later (time time' : ℤ) : Prop :=
  time < time' ∧ (0 ≤ time → Stampable time' → stamp time < stamp time')

theorem later_of_lt {time time' : ℤ} (h : time < time') : Later time time' :=
  ⟨h, fun hstart hend => stamp_lt h hstart hend⟩

variable {table routines : RoutineTable} {id : String} {now : ℤ} {cronNext : CronNext}

/-- **The token in text is the token in milliseconds.** -/
theorem nextRoutineUpdatedAt_stamp (hnow : Stampable now)
    (hstored : ∀ row, table.find? id = some row → Stampable row.updatedAt) :
    stamp (nextRoutineUpdatedAt table id now) =
      nextUpdatedAtText ((table.find? id).map fun row => stamp row.updatedAt) (stamp now) := by
  rw [nextRoutineUpdatedAt, nextUpdatedAtText]
  cases hrow : table.find? id with
  | none => rfl
  | some row =>
    have hin := hstored row hrow
    have hle : stamp now ≤ stamp row.updatedAt ↔ now ≤ row.updatedAt := by
      constructor
      · intro hle
        by_contra hlt
        exact absurd (stamp_lt (by omega) hin.1 hnow) (not_lt.mpr hle)
      · intro hle
        by_cases heq : now = row.updatedAt
        · rw [heq]
        · exact (stamp_lt (by omega) hnow.1 hin).le
    simp only [Option.map_some]
    by_cases hbeyond : now ≤ row.updatedAt
    · have htoNat : (row.updatedAt + 1).toNat = row.updatedAt.toNat + 1 := by
        have hstart := hin.1
        omega
      have hfilter : (some (stamp row.updatedAt)).filter
          (fun current => decide (stamp now ≤ current)) = some (stamp row.updatedAt) := by
        simp [hle.mpr hbeyond]
      rw [if_pos hbeyond, hfilter]
      simp only [stamp, Rfc3339.parse_text hin.2, htoNat]
      rfl
    · have hfilter : (some (stamp row.updatedAt)).filter
          (fun current => decide (stamp now ≤ current)) = none := by
        simp [Option.filter, hle, hbeyond]
      rw [if_neg hbeyond, hfilter]

theorem nextRoutineUpdatedAt_stamp_same :
    let table : RoutineTable := ⟨[⟨"r", "", "p", "", "claude", "", "", .newSession, none, none,
      .once 5, true, none, none, none, .user, 5⟩], by simp⟩
    stamp (nextRoutineUpdatedAt table "r" 5) =
      nextUpdatedAtText ((table.find? "r").map fun row => stamp row.updatedAt) (stamp 5) :=
  nextRoutineUpdatedAt_stamp ⟨by decide, by decide⟩ (by
    rintro row ⟨⟩
    exact ⟨by decide, by decide⟩)

/-! ## Every write moves the token -/

/-- A row that is written, rather than inserted or removed, gets a later token. -/
def Forward (table table' : RoutineTable) : Prop :=
  ∀ id row row', table.find? id = some row → table'.find? id = some row' →
    row' = row ∨ row.updatedAt < row'.updatedAt

theorem Forward.refl (table : RoutineTable) : Forward table table := by
  intro id row row' hrow hrow'
  rw [hrow, Option.some.injEq] at hrow'
  exact Or.inl hrow'.symm

theorem forward_of_moves {table' : RoutineTable} (h : Moves id table table') :
    Forward table table' := by
  intro other row row' hrow hrow'
  by_cases hother : other = id
  · subst hother
    have ⟨moved, hmoved, hlt⟩ := h.token row hrow
    rw [hmoved, Option.some.injEq] at hrow'
    exact Or.inr (hrow' ▸ hlt)
  · rw [h.others other hother, hrow, Option.some.injEq] at hrow'
    exact Or.inl hrow'.symm

theorem updateRoutine_forward {applies : Routine → Bool} {change : Routine → Routine}
    (hid : ∀ row, (change row).id = row.id)
    (htoken : ∀ row, (change row).updatedAt = nextRoutineUpdatedAt table id now) :
    Forward table (updateRoutine table id applies change).1 := by
  intro other row row' hrow hrow'
  rw [find?_updateRoutine hid] at hrow'
  by_cases hother : other = id
  · subst hother
    rw [if_pos rfl, hrow, Option.map_some, Option.some.injEq] at hrow'
    by_cases happ : applies row = true
    · rw [if_pos happ] at hrow'
      have hlt := lt_nextRoutineUpdatedAt hrow now
      rw [← htoken row, hrow'] at hlt
      exact Or.inr hlt
    · rw [if_neg happ] at hrow'
      exact Or.inl hrow'.symm
  · rw [if_neg hother, hrow, Option.some.injEq] at hrow'
    exact Or.inl hrow'.symm

theorem delete_forward (table : RoutineTable) (p : Routine → Bool) :
    Forward table (table.delete p) := by
  intro id row row' hrow hrow'
  rw [Table.find?_delete, hrow, Option.filter_eq_some_iff, Option.some.injEq] at hrow'
  exact Or.inl hrow'.1.symm

section Commands

variable {s : State} {firing : Firing}

@[simp] theorem observeLaunch_routines (s : State) (firing : Firing) :
    (s.observeLaunch firing).routines = s.routines := by
  rw [State.observeLaunch]
  split <;> rfl

@[simp] theorem observeLaunch_edits (s : State) (firing : Firing) :
    (s.observeLaunch firing).edits = s.edits := by
  rw [State.observeLaunch]
  split <;> rfl

/-- The routines after a settlement statement: as they were, without the spent wake,
booked, or with the one-shot retired. -/
inductive Settles (s : State) (firing : Firing) (now : ℤ) : RoutineTable → Prop
  | nothing : Settles s firing now s.routines
  | deleted (sessionId : Option String) (hstage : firing.stage = .deleteSpent sessionId)
      (happlied : (deleteSpentRoutine s.routines firing.id firing.fields.updatedAt).2 = true) :
      Settles s firing now (deleteSpentRoutine s.routines firing.id firing.fields.updatedAt).1
  | marked (nextRunAt : Option ℤ) (lastError : Option String) (enabled : Bool)
      (sessionId : Option String)
      (hbooks : firing.stage = .mark sessionId ∧ nextRunAt = firing.nextRunAt ∧
          enabled = firing.staysScheduled ∨
        ∃ error, firing.stage = .markFailed nextRunAt error enabled)
      (hrecorded : (markRoutineRun s.routines firing.fields firing.now nextRunAt lastError
        enabled sessionId now).2 = true) :
      Settles s firing now (markRoutineRun s.routines firing.fields firing.now nextRunAt
        lastError enabled sessionId now).1
  | retired (time : ℤ) (hstage : firing.stage = .retire)
      (htime : firing.runOnceAt = some time)
      (hretired : (retireFiredOneShot s.routines firing.id time firing.now now).2 = true) :
      Settles s firing now (retireFiredOneShot s.routines firing.id time firing.now now).1

theorem settle_settles (s : State) (firing : Firing) (now : ℤ) :
    Settles s firing now (settle s firing now).routines := by
  rw [settle]
  cases hstage : firing.stage with
  | deleteSpent sessionId =>
    dsimp only
    split
    · rename_i happlied
      exact .deleted sessionId hstage happlied
    · exact .nothing
  | mark sessionId =>
    dsimp only
    split
    · rename_i hrecorded
      exact .marked _ _ _ _ (Or.inl ⟨hstage, rfl, rfl⟩) hrecorded
    · split <;> exact .nothing
  | retire =>
    dsimp only
    split
    · exact .nothing
    · rename_i time htime
      split
      · rename_i hretired
        exact .retired time hstage htime hretired
      · exact .nothing
  | markFailed nextRunAt lastError enabled =>
    dsimp only
    split
    · rename_i hrecorded
      exact .marked _ _ _ _ (Or.inr ⟨lastError, hstage⟩) hrecorded
    · exact .nothing
  | resolveArc => exact .nothing
  | send sessionId => exact .nothing
  | launch => exact .nothing

theorem Settles.forward (h : Settles s firing now routines) : Forward s.routines routines := by
  cases h with
  | nothing => exact Forward.refl _
  | deleted => exact delete_forward _ _
  | marked => exact updateRoutine_forward (fun _ => rfl) (fun _ => rfl)
  | retired => exact updateRoutine_forward (fun _ => rfl) (fun _ => rfl)

/-- The steps of the scheduler before the settlement. -/
def Action.fires : Action → Bool
  | .runNow .. | .tick .. | .claimDue .. | .arcAnswers .. | .chatAnswers .. |
    .launchAnswers .. => true
  | _ => false

/-- A firing leaves the rows as they are until it settles, but for the pointer to a chat
that is gone. -/
def Fires (table table' : RoutineTable) : Prop :=
  table' = table ∨ ∃ id now, table' = (setRoutineLastSession table id none now).1

theorem launched_routines (s : State) (firing : Firing) (started : Bool) (stage : Stage) :
    ((if started then s.observeLaunch firing else s).advance firing stage).routines =
      s.routines := by
  cases started <;> simp [State.advance]

theorem resolveArc_routines (s : State) (firing : Firing)
    (resolution : ArcCoordinatorResolution) :
    (resolveArc s firing resolution).routines = s.routines := by
  cases resolution <;> rfl

theorem coordinatorAnswered_routines (s : State) (firing : Firing)
    (outcome : FollowUpOutcome) :
    (coordinatorAnswered s firing outcome).routines = s.routines := by
  cases outcome with
  | sent => exact launched_routines s firing true _
  | busy => rfl
  | missing => rfl
  | failed message started => exact launched_routines s firing started _

theorem launchAnswered_routines (s : State) (firing : Firing) (result : LaunchResult) :
    (launchAnswered s firing result).routines = s.routines := by
  cases result with
  | launched sessionId => exact launched_routines s firing true _
  | failed error started => exact launched_routines s firing started _

theorem chatAnswered_fires (s : State) (firing : Firing) (now : ℤ)
    (outcome : FollowUpOutcome) :
    Fires s.routines (chatAnswered s firing now outcome).routines := by
  cases outcome with
  | sent => exact Or.inl (launched_routines s firing true _)
  | busy => exact Or.inl rfl
  | failed message started => exact Or.inl (launched_routines s firing started _)
  | missing =>
    rw [chatAnswered, chatMissing]
    split
    · exact Or.inl rfl
    · split
      · dsimp only
        split
        · exact Or.inl rfl
        · exact Or.inr ⟨firing.id, now, rfl⟩
      · exact Or.inl rfl

theorem step_fires (cronNext : CronNext) (s : State) {action : Action}
    (h : action.fires = true) : Fires s.routines (step cronNext s action).routines := by
  cases action with
  | runNow id now =>
    rw [step, runNow]
    split
    · exact Or.inl rfl
    · split <;> exact Or.inl rfl
  | tick now =>
    rw [step, tick]
    split <;> exact Or.inl rfl
  | claimDue now =>
    rw [step, claimDue]
    split
    · split
      · exact Or.inl rfl
      · dsimp only
        split
        · exact Or.inl rfl
        · split
          · exact Or.inl rfl
          · split <;> exact Or.inl rfl
    · exact Or.inl rfl
  | arcAnswers id resolution =>
    rw [step]
    split
    · split
      · exact Or.inl (resolveArc_routines s _ _)
      · exact Or.inl rfl
    · exact Or.inl rfl
  | chatAnswers id outcome now =>
    rw [step]
    split
    · split
      · split
        · exact Or.inl (coordinatorAnswered_routines s _ _)
        · exact chatAnswered_fires s _ now outcome
      · exact Or.inl rfl
    · exact Or.inl rfl
  | launchAnswers id result =>
    rw [step]
    split
    · split
      · exact Or.inl (launchAnswered_routines s _ _)
      · exact Or.inl rfl
    · exact Or.inl rfl
  | save | wake | setEnabled | resumeSchedule | delete | resetSession | settle => cases h

theorem Fires.forward {table' : RoutineTable} (h : Fires table table') : Forward table table' := by
  rcases h with rfl | ⟨id, now, rfl⟩
  · exact Forward.refl _
  · exact forward_of_moves (setRoutineLastSession_moves _ _ _ _)

/-- The schedule of every row is as it was. -/
def KeepsSchedule (table table' : RoutineTable) : Prop :=
  ∀ id row', table'.find? id = some row' → ∃ row, table.find? id = some row ∧
    row'.schedule = row.schedule ∧ row'.enabled = row.enabled ∧ row'.nextRunAt = row.nextRunAt

theorem Fires.keepsSchedule {table' : RoutineTable} (h : Fires table table') :
    KeepsSchedule table table' := by
  intro other row' hrow'
  rcases h with rfl | ⟨id, now, rfl⟩
  · exact ⟨row', hrow', rfl, rfl, rfl⟩
  · rw [setRoutineLastSession, find?_updateRoutine (by intro row; rfl)] at hrow'
    by_cases hother : other = id
    · subst hother
      rw [if_pos rfl] at hrow'
      cases hrow : table.find? other with
      | none => simp [hrow] at hrow'
      | some row =>
        rw [hrow, Option.map_some, Option.some.injEq] at hrow'
        exact ⟨row, rfl, by rw [← hrow']; rfl, by rw [← hrow']; rfl, by rw [← hrow']; rfl⟩
    · rw [if_neg hother] at hrow'
      exact ⟨row', hrow', rfl, rfl, rfl⟩

/-- **Every step moves the tokens of the rows it writes.** -/
theorem step_forward (cronNext : CronNext) (s : State) (action : Action) :
    Forward s.routines (step cronNext s action).routines := by
  cases action with
  | save input now now' =>
    rw [step, save]
    split
    · exact Forward.refl _
    · rw [scheduled_routines]
      have hmoves := upsertRoutine_moves s.routines { input with createdBy := .user }
      exact forward_of_moves (hmoves _ now now')
  | wake input time sessionId now now' =>
    rw [step, wake, scheduled_routines]
    exact forward_of_moves
      ((upsertRoutine_moves _ _ _ _ _).trans (setRoutineLastSession_moves _ _ _ _))
  | setEnabled id enabled now =>
    rw [step, setEnabled]
    split
    · exact Forward.refl _
    · dsimp only
      split
      · exact Forward.refl _
      · rw [scheduled_routines]
        exact forward_of_moves (setRoutineEnabled_moves _ _ _ _ _)
  | resumeSchedule id nextRunAt now =>
    rw [step, resumeSchedule]
    dsimp only
    split
    · rw [scheduled_routines]
      exact forward_of_moves (setRoutineEnabled_moves _ _ _ _ _)
    · exact Forward.refl _
  | delete id =>
    rw [step, delete]
    dsimp only
    split
    · exact delete_forward _ _
    · exact Forward.refl _
  | resetSession id now =>
    rw [step, resetSession]
    split
    · exact Forward.refl _
    · split
      · exact forward_of_moves (setRoutineLastSession_moves _ _ _ _)
      · exact Forward.refl _
  | runNow | tick | claimDue | arcAnswers | chatAnswers | launchAnswers =>
    exact (step_fires cronNext s rfl).forward
  | settle id now =>
    rw [step]
    split
    · exact (settle_settles s _ now).forward
    · exact Forward.refl _

end Commands

/-! ## What a firing will book -/

/-- The next match of a cron expression comes strictly after the time. -/
def StrictlyAfter (cronNext : CronNext) : Prop :=
  ∀ expr now next, cronNext expr now = .ok (some next) → now < next

/-- What a firing may book as the next run and as the switch of its row: a time after its
own, and on only what was on. -/
structure Firing.Booked (s : State) (firing : Firing) : Prop where
  next : ∀ time, firing.next = some time → firing.now < time
  failed : ∀ nextRunAt lastError enabled, firing.stage = .markFailed nextRunAt lastError enabled →
    (∀ time, nextRunAt = some time → firing.now < time) ∧
      (enabled = true → firing.staysScheduled = true)
  scheduled : s.deletedSince firing = true ∨ ∀ row, s.routines.find? firing.id = some row →
    row.updatedAt = firing.fields.updatedAt → firing.staysScheduled = true → row.enabled = true

/-- Every firing in progress. -/
def AllBooked (s : State) : Prop :=
  ∀ id firing, s.firings.find? id = some firing → firing.Booked s

/-- A stage that books nothing but what `Firing.Booked` allows. -/
def Stage.Bookable (firing : Firing) : Stage → Prop
  | .markFailed nextRunAt _ enabled =>
    (∀ time, nextRunAt = some time → firing.now < time) ∧
      (enabled = true → firing.staysScheduled = true)
  | _ => True

theorem settleSuccess_bookable (firing : Firing) (sessionId : Option String) :
    (settleSuccess firing.fields sessionId).Bookable firing := by
  rw [settleSuccess]
  split <;> trivial

theorem fails_bookable (firing : Firing) (lastError : String) :
    (firing.fails lastError).Bookable firing := by
  refine ⟨?_, fun h => h⟩
  intro time htime
  rw [Firing.nextRunAtOrRetry] at htime
  split at htime
  · cases htime
    rw [retryAfter, retryBackoffMinutes]
    omega
  · cases htime

section Booking

variable {s s' : State} {firing : Firing}

/-- Only the row of the firing and its edits matter. -/
theorem Firing.Booked.congr (h : firing.Booked s)
    (hrow : s'.routines.find? firing.id = s.routines.find? firing.id)
    (hedits : s'.editsOf firing.id = s.editsOf firing.id) : firing.Booked s' where
  next := h.next
  failed := h.failed
  scheduled := by
    have hdeleted : s'.deletedSince firing = s.deletedSince firing := by
      rw [State.deletedSince, State.newer, hedits, State.deletedSince, State.newer]
    rw [hdeleted, hrow]
    exact h.scheduled

/-- A step that touches one id only. -/
theorem AllBooked.of_own (h : AllBooked s) {id : String}
    (hothers : ∀ other, other ≠ id → SameAt other s s')
    (hown : ∀ firing, s'.firings.find? id = some firing → firing.Booked s') : AllBooked s' := by
  intro other found hfound
  by_cases hother : other = id
  · subst hother
    exact hown found hfound
  · have hsame := hothers other hother
    rw [hsame.firings] at hfound
    have hid : found.id = other := Table.key_of_find? hfound
    rw [← hid] at hsame
    exact (h other found hfound).congr hsame.routines hsame.edits

/-- An edit leaves the firing of its row with an outdated token. -/
theorem edited_booked (h : AllBooked s) (hinv : Inv s) (hmoves : Moves id s.routines routines) :
    AllBooked (s.edited id routines) := by
  refine h.of_own (fun other hother => sameAt_edited hother (hmoves.others other hother)) ?_
  intro firing hfiring
  have hbooked := h id firing hfiring
  have hsound := (hinv.rows id).firing firing hfiring
  have hid : firing.id = id := Table.key_of_find? hfiring
  subst hid
  refine ⟨hbooked.next, hbooked.failed, ?_⟩
  rcases hsound.tracked with hgone | ⟨row, hrow, hle, _⟩
  · refine Or.inl ?_
    rwa [deletedSince_edited hsound.seen]
  · refine Or.inr ?_
    intro row' hrow' htoken
    have ⟨moved, hmoved, hlt⟩ := hmoves.token row hrow
    change routines.find? firing.id = some row' at hrow'
    rw [hmoved, Option.some.injEq] at hrow'
    rw [hrow'] at hlt
    omega

theorem AllBooked.congr (h : AllBooked s) (hfirings : s'.firings = s.firings)
    (hroutines : s'.routines = s.routines) (hedits : s'.edits = s.edits) : AllBooked s' := by
  intro id found hfound
  rw [hfirings] at hfound
  exact (h id found hfound).congr (by rw [hroutines]) (by rw [State.editsOf, hedits, State.editsOf])

theorem scheduled_booked (h : AllBooked s) (id : String) : AllBooked (s.scheduled id) := by
  intro other found hfound
  rw [(sameAt_scheduled s id other).firings] at hfound
  exact (h other found hfound).congr (by rw [scheduled_routines])
    (sameAt_scheduled s id found.id).edits

theorem delete_booked (h : AllBooked s) (hinv : Inv s) (id : String) : AllBooked (delete s id) := by
  rw [delete, deleteRoutine]
  dsimp only
  split
  · refine @AllBooked.of_own _ _ h id ?_ ?_
    · intro other hother
      refine sameAt_deleted hother ?_
      simpa using find?_delete_id s.routines hother fun _ => true
    · intro firing hfiring
      have hbooked := h id firing hfiring
      have hid : firing.id = id := Table.key_of_find? hfiring
      subst hid
      exact ⟨hbooked.next, hbooked.failed,
        Or.inl (deletedSince_deleted ((hinv.rows _).firing firing hfiring).seen _)⟩
  · exact h

theorem nextOccurrence_after (hcron : StrictlyAfter cronNext) {schedule : Schedule}
    {next : Option ℤ} (h : nextOccurrence cronNext schedule now = .ok next) :
    ∀ time, next = some time → now < time := by
  intro time htime
  subst htime
  cases schedule with
  | cron expr => exact hcron expr now time h
  | once once =>
    rw [nextOccurrence] at h
    split at h
    · cases h
      assumption
    · cases h

/-- What a firing starts with may be booked. -/
theorem fire_booked (hcron : StrictlyAfter cronNext) (fields : RoutineLaunchFields)
    (trigger : Trigger) (now : ℤ) (seen : ℕ) :
    (∀ time, (fire cronNext fields trigger now seen).next = some time →
      (fire cronNext fields trigger now seen).now < time) ∧
    (∀ nextRunAt lastError enabled, (fire cronNext fields trigger now seen).stage =
      .markFailed nextRunAt lastError enabled →
        (∀ time, nextRunAt = some time → (fire cronNext fields trigger now seen).now < time) ∧
        (enabled = true → (fire cronNext fields trigger now seen).staysScheduled = true)) ∧
    ((fire cronNext fields trigger now seen).staysScheduled = true → fields.enabled = true) := by
  have hon : (fields.enabled && !fields.schedule.runOnceAt.isSome) = true →
      fields.enabled = true := by
    simp +contextual
  rw [fire]
  cases hnext : nextOccurrence cronNext fields.schedule now with
  | error error =>
    refine ⟨by simp, ?_, hon⟩
    intro nextRunAt lastError enabled hstage
    cases hstage
    simp
  | ok next =>
    have hafter := nextOccurrence_after hcron hnext
    cases parseProvider fields.provider with
    | error _ =>
      refine ⟨hafter, ?_, hon⟩
      intro nextRunAt lastError enabled hstage
      cases hstage
      simp
    | ok _ =>
      dsimp only
      split
      all_goals
        refine ⟨hafter, ?_, hon⟩
        intro nextRunAt lastError enabled hstage
        cases hstage

theorem claim_booked (hcron : StrictlyAfter cronNext) (h : AllBooked s) {row : Routine}
    (hrow : s.routines.find? row.id = some row) (trigger : Trigger) (now : ℤ) :
    AllBooked (claim cronNext s row trigger now) := by
  have ⟨hnext, hfailed, hon⟩ := fire_booked hcron (routineLaunchFields row) trigger now
    (s.editsOf row.id).length
  have hid : (fire cronNext (routineLaunchFields row) trigger now
      (s.editsOf row.id).length).id = row.id := id_fire _ _ _ _ _
  refine @AllBooked.of_own _ _ h row.id ?_ ?_
  · intro other hother
    refine ⟨?_, rfl, rfl, fun _ hin => hin⟩
    rw [claim]
    rw [Table.find?_put, hid, if_neg (fun heq => hother heq.symm)]
  · intro found hfound
    rw [claim] at hfound
    rw [Table.find?_put, if_pos hid, Option.some.injEq] at hfound
    subst hfound
    refine ⟨hnext, hfailed, Or.inr ?_⟩
    intro current hcurrent _ hstays
    rw [hid] at hcurrent
    change s.routines.find? row.id = some current at hcurrent
    rw [hrow, Option.some.injEq] at hcurrent
    rw [← hcurrent]
    exact hon hstays

theorem advance_booked (h : AllBooked s)
    (hfiring : s.firings.find? firing.id = some firing) {stage : Stage}
    (hstage : stage.Bookable firing) : AllBooked (s.advance firing stage) := by
  refine h.of_own (fun other hother => sameAt_advance hother stage) ?_
  intro found hfound
  rw [firings_advance_self, Option.some.injEq] at hfound
  subst hfound
  have hbooked := h _ firing hfiring
  refine ⟨hbooked.next, ?_, hbooked.scheduled⟩
  intro nextRunAt lastError enabled heq
  change stage = _ at heq
  rw [heq] at hstage
  exact hstage

theorem finish_booked (h : AllBooked s) (firing : Firing) : AllBooked (s.finish firing) := by
  refine h.of_own (fun other hother => sameAt_finish hother) ?_
  intro found hfound
  rw [firings_finish_self] at hfound
  cases hfound

/-- A settlement that changes its row ends the firing. -/
theorem observeSettled_booked (h : AllBooked s) (kind : SettlementKind)
    (hothers : ∀ other, other ≠ firing.id → routines.find? other = s.routines.find? other) :
    AllBooked ((s.observeSettled firing kind routines).finish firing) := by
  refine @AllBooked.of_own _ _ h firing.id ?_ ?_
  · intro other hother
    exact (sameAt_observeSettled kind (hothers other hother)).trans (sameAt_finish hother)
  · intro found hfound
    rw [firings_finish_self] at hfound
    cases hfound

theorem observeLaunch_booked (h : AllBooked s) (firing : Firing) :
    AllBooked (s.observeLaunch firing) := by
  refine h.congr ?_ (by simp) (by simp)
  rw [State.observeLaunch]
  split <;> rfl

theorem observeLaunch_firings (s : State) (firing : Firing) :
    (s.observeLaunch firing).firings = s.firings := by
  rw [State.observeLaunch]
  split <;> rfl

theorem launched_booked (h : AllBooked s) (hfiring : s.firings.find? firing.id = some firing)
    (started : Bool) {stage : Stage} (hstage : stage.Bookable firing) :
    AllBooked ((if started then s.observeLaunch firing else s).advance firing stage) := by
  cases started with
  | false => exact advance_booked h hfiring hstage
  | true =>
    refine advance_booked (observeLaunch_booked h firing) ?_ hstage
    rw [← observeLaunch_firings s firing] at hfiring
    exact hfiring

theorem resolveArc_booked (h : AllBooked s)
    (hfiring : s.firings.find? firing.id = some firing) (resolution : ArcCoordinatorResolution) :
    AllBooked (resolveArc s firing resolution) := by
  cases resolution with
  | skip => exact advance_booked h hfiring (settleSuccess_bookable firing none)
  | noCoordinator => exact advance_booked h hfiring (fails_bookable firing _)
  | coordinator sessionId => exact advance_booked h hfiring trivial

theorem coordinatorAnswered_booked (h : AllBooked s)
    (hfiring : s.firings.find? firing.id = some firing) (outcome : FollowUpOutcome) :
    AllBooked (coordinatorAnswered s firing outcome) := by
  cases outcome with
  | sent => exact launched_booked h hfiring true (settleSuccess_bookable firing none)
  | busy => exact finish_booked h firing
  | missing => exact advance_booked h hfiring (fails_bookable firing _)
  | failed message started => exact launched_booked h hfiring started (fails_bookable firing _)

theorem launchAnswered_booked (h : AllBooked s)
    (hfiring : s.firings.find? firing.id = some firing) (result : LaunchResult) :
    AllBooked (launchAnswered s firing result) := by
  cases result with
  | launched sessionId =>
    exact launched_booked h hfiring true (settleSuccess_bookable firing _)
  | failed error started => exact launched_booked h hfiring started (fails_bookable firing _)

/-- The firing that drops the pointer to a chat reads its row again: its switch is the
one the firing read. -/
theorem chatMissing_booked (h : AllBooked s)
    (hfiring : s.firings.find? firing.id = some firing) (now : ℤ) :
    AllBooked (chatMissing s firing now) := by
  rw [chatMissing]
  cases hcurrent : s.routines.find? firing.id with
  | none => exact finish_booked h firing
  | some current =>
    dsimp only
    by_cases htoken : current.updatedAt = firing.fields.updatedAt
    · have hothers := (setRoutineLastSession_moves s.routines firing.id none now).others
      have hself : (setRoutineLastSession s.routines firing.id none now).1.find? firing.id =
          some { current with
            lastSessionId := none
            updatedAt := nextRoutineUpdatedAt s.routines firing.id now } :=
        updateRoutine_self (by intro row; rfl) hcurrent
      have hid : current.id = firing.id := Table.key_of_find? hcurrent
      rw [if_pos htoken]
      simp only [hself]
      refine @AllBooked.of_own _ _ h firing.id ?_ ?_
      · intro other hother
        have hdropped : SameAt other s { s with
            routines := (setRoutineLastSession s.routines firing.id none now).1 } :=
          ⟨rfl, hothers other hother, rfl, fun _ hin => hin⟩
        refine hdropped.trans (sameAt_advance ?_ _)
        rwa [hid]
      · intro found hfound
        have hbooked := h _ firing hfiring
        rw [State.advance] at hfound
        rw [Table.find?_put, if_pos (by exact hid), Option.some.injEq] at hfound
        subst hfound
        refine ⟨hbooked.next, (fun _ _ _ hstage => by cases hstage), ?_⟩
        rcases hbooked.scheduled with hgone | hon
        · refine Or.inl ?_
          rw [State.deletedSince, State.newer] at hgone ⊢
          rw [← hid] at hgone
          exact hgone
        · refine Or.inr ?_
          intro row hrow _ hstays
          change (setRoutineLastSession s.routines firing.id none now).1.find? current.id =
            some row at hrow
          rw [hid, hself, Option.some.injEq] at hrow
          rw [← hrow]
          exact hon current hcurrent htoken hstays
    · rw [if_neg htoken]
      exact finish_booked h firing

theorem chatAnswered_booked (h : AllBooked s)
    (hfiring : s.firings.find? firing.id = some firing) (now : ℤ) (outcome : FollowUpOutcome) :
    AllBooked (chatAnswered s firing now outcome) := by
  cases outcome with
  | sent => exact launched_booked h hfiring true (settleSuccess_bookable firing none)
  | busy => exact finish_booked h firing
  | missing => exact chatMissing_booked h hfiring now
  | failed message started => exact launched_booked h hfiring started (fails_bookable firing _)

theorem settle_booked (h : AllBooked s) (hfiring : s.firings.find? firing.id = some firing)
    (now : ℤ) : AllBooked (settle s firing now) := by
  rw [settle]
  cases firing.stage with
  | deleteSpent sessionId =>
    dsimp only [deleteSpentRoutine]
    split
    · exact observeSettled_booked h _ fun other hother => find?_delete_id _ hother _
    · exact advance_booked h hfiring trivial
  | mark sessionId =>
    dsimp only
    split
    · exact observeSettled_booked h _ (updateRoutine_others (by intro row; rfl))
    · split
      · exact advance_booked h hfiring trivial
      · exact finish_booked h firing
  | retire =>
    dsimp only
    split
    · exact finish_booked h firing
    · split
      · exact observeSettled_booked h _ (updateRoutine_others (by intro row; rfl))
      · exact finish_booked h firing
  | markFailed nextRunAt lastError enabled =>
    dsimp only
    split
    · exact observeSettled_booked h _ (updateRoutine_others (by intro row; rfl))
    · have hexcused : AllBooked (s.excused firing) := h.congr rfl rfl rfl
      exact finish_booked hexcused firing
  | resolveArc => exact h
  | send sessionId => exact h
  | launch => exact h

/-- **Every step keeps what the firings may book.** -/
theorem step_booked (hcron : StrictlyAfter cronNext) (s : State) (action : Action) (hinv : Inv s)
    (h : AllBooked s) : AllBooked (step cronNext s action) := by
  cases action with
  | save input now now' =>
    rw [step, save]
    split
    · exact h
    · have hmoves := upsertRoutine_moves s.routines { input with createdBy := .user }
      exact scheduled_booked (edited_booked h hinv (hmoves _ now now')) _
  | wake input time sessionId now now' =>
    refine scheduled_booked (edited_booked h hinv ?_) _
    exact (upsertRoutine_moves _ _ _ _ _).trans (setRoutineLastSession_moves _ _ _ _)
  | setEnabled id enabled now =>
    rw [step, setEnabled]
    split
    · exact h
    · dsimp only
      split
      · exact h
      · exact scheduled_booked
          (edited_booked h hinv (setRoutineEnabled_moves _ _ _ _ _)) _
  | resumeSchedule id nextRunAt now =>
    rw [step, resumeSchedule]
    dsimp only
    split
    · exact scheduled_booked (edited_booked h hinv (setRoutineEnabled_moves _ _ _ _ _)) _
    · exact h
  | delete id => exact delete_booked h hinv id
  | resetSession id now =>
    rw [step, resetSession]
    split
    · exact h
    · split
      · exact edited_booked h hinv (setRoutineLastSession_moves _ _ _ _)
      · exact h
  | runNow id now =>
    rw [step, runNow]
    split
    · exact h
    · split
      · exact h
      · rename_i row hrow
        exact claim_booked hcron h (Table.key_of_find? hrow ▸ hrow) .runNow now
  | tick now =>
    rw [step, tick]
    split
    · exact h.congr rfl rfl rfl
    · exact h
  | claimDue now =>
    rw [step, claimDue]
    split
    · split
      · exact h
      · rename_i id due _
        have hdue : AllBooked { s with due := due } := h.congr rfl rfl rfl
        dsimp only
        split
        · exact hdue
        · split
          · exact hdue
          · rename_i row hrow
            split
            · exact claim_booked hcron hdue (Table.key_of_find? hrow ▸ hrow) .tick now
            · exact hdue
    · exact h
  | arcAnswers id resolution =>
    rw [step]
    split
    · rename_i firing hfiring
      rw [← Table.key_of_find? hfiring] at hfiring
      split
      · exact resolveArc_booked h hfiring resolution
      · exact h
    · exact h
  | chatAnswers id outcome now =>
    rw [step]
    split
    · rename_i firing hfiring
      rw [← Table.key_of_find? hfiring] at hfiring
      split
      · split
        · exact coordinatorAnswered_booked h hfiring outcome
        · exact chatAnswered_booked h hfiring now outcome
      · exact h
    · exact h
  | launchAnswers id result =>
    rw [step]
    split
    · rename_i firing hfiring
      rw [← Table.key_of_find? hfiring] at hfiring
      split
      · exact launchAnswered_booked h hfiring result
      · exact h
    · exact h
  | settle id now =>
    rw [step]
    split
    · rename_i firing hfiring
      rw [← Table.key_of_find? hfiring] at hfiring
      exact settle_booked h hfiring now
    · exact h

theorem start_booked : AllBooked start := fun _ _ h => nomatch h

end Booking

/-! ## What a settlement does to its row -/

section Effect

variable {s : State} {firing : Firing} {now : ℤ} {routines : RoutineTable}

/-- A row that a settlement has changed, or removed: with the token of the firing, or
as the one-shot that fired. -/
theorem Settles.changes (h : Settles s firing now routines) (hinv : Inv s)
    (hfiring : s.firings.find? firing.id = some firing) (hchanged : routines ≠ s.routines) :
    s.deletedSince firing = true ∨ s.newer firing = [] ∨ firing.stage = .retire ∧
      ∃ row time, s.routines.find? firing.id = some row ∧ row.schedule = .once time ∧
        firing.runOnceAt = some time := by
  have htoken : ∀ row, s.routines.find? firing.id = some row →
      row.updatedAt = firing.fields.updatedAt →
        s.deletedSince firing = true ∨ s.newer firing = [] := by
    intro row hrow heq
    rcases newer_of_token ((hinv.rows _).firing firing hfiring) hrow heq with hgone | hnone
    · exact Or.inl hgone
    · exact Or.inr hnone.1
  cases h with
  | nothing => exact absurd rfl hchanged
  | deleted sessionId hstage happlied =>
    have ⟨row, hrow, heq⟩ := (Option.any_eq_true _ _).mp happlied
    exact (htoken row hrow (beq_iff_eq.mp heq)).imp_right Or.inl
  | marked nextRunAt lastError enabled sessionId hbooks hrecorded =>
    have ⟨row, hrow, heq⟩ := updateRoutine_snd.mp hrecorded
    exact (htoken row hrow (beq_iff_eq.mp heq)).imp_right Or.inl
  | retired time hstage htime hretired =>
    have ⟨row, hrow, hmatches⟩ := updateRoutine_snd.mp hretired
    rw [Bool.and_eq_true, beq_iff_eq, Schedule.runOnceAt_eq_some] at hmatches
    exact Or.inr (Or.inr ⟨hstage, row, time, hrow, hmatches.2, htime⟩)

/-- The row a settlement leaves behind after changing the routines: if it is on, its next
run comes after the firing, and it was on before, unless it is not the row the firing
read. -/
theorem Settles.leaves (h : Settles s firing now routines) (hbooked : firing.Booked s)
    {row' : Routine} (hrow' : routines.find? firing.id = some row')
    (hchanged : routines ≠ s.routines) (hon : row'.enabled = true) :
    (∀ time, row'.nextRunAt = some time → firing.now < time) ∧
      (s.deletedSince firing = true ∨
        ∃ row, s.routines.find? firing.id = some row ∧ row.enabled = true) := by
  cases h with
  | nothing => exact absurd rfl hchanged
  | deleted sessionId hstage happlied =>
    -- the spent wake is gone
    have ⟨row, hrow, heq⟩ := (Option.any_eq_true _ _).mp happlied
    have hid : row.id = firing.id := Table.key_of_find? hrow
    rw [deleteSpentRoutine, Table.find?_delete, hrow] at hrow'
    simp [Option.filter, hid, heq] at hrow'
  | marked nextRunAt lastError enabled sessionId hbooks hrecorded =>
    have ⟨row, hrow, heq⟩ := updateRoutine_snd.mp hrecorded
    have hself : (markRoutineRun s.routines firing.fields firing.now nextRunAt lastError
        enabled sessionId now).1.find? firing.id = some _ :=
      updateRoutine_self (by intro row; rfl) hrow
    rw [hself, if_pos heq, Option.some.injEq] at hrow'
    subst hrow'
    have hstays : firing.staysScheduled = true ∧
        ∀ time, nextRunAt = some time → firing.now < time := by
      rcases hbooks with ⟨_, hnext, henabled⟩ | ⟨error, hstage⟩
      · have hstays : firing.staysScheduled = true := henabled ▸ hon
        refine ⟨hstays, ?_⟩
        rw [hnext, Firing.nextRunAt, if_pos hstays]
        exact hbooked.next
      · have hfailed := hbooked.failed nextRunAt error enabled hstage
        exact ⟨hfailed.2 hon, hfailed.1⟩
    refine ⟨hstays.2, hbooked.scheduled.imp_right ?_⟩
    intro hkept
    exact ⟨row, hrow, hkept row hrow (beq_iff_eq.mp heq) hstays.1⟩
  | retired time hstage htime hretired =>
    have ⟨row, hrow, hmatches⟩ := updateRoutine_snd.mp hretired
    have hself : (retireFiredOneShot s.routines firing.id time firing.now now).1.find?
        firing.id = some _ := updateRoutine_self (by intro row; rfl) hrow
    rw [hself, if_pos hmatches, Option.some.injEq] at hrow'
    subst hrow'
    cases hon

theorem Settles.others (h : Settles s firing now routines) {other : String}
    (hother : other ≠ firing.id) : routines.find? other = s.routines.find? other := by
  cases h with
  | nothing => rfl
  | deleted => exact find?_delete_id _ hother _
  | marked => exact updateRoutine_others (by intro row; rfl) other hother
  | retired => exact updateRoutine_others (by intro row; rfl) other hother

end Effect

/-! ## Every step of every run -/

/-- What a settlement may do to the rows. -/
structure FairSettlement (s : State) (firing : Firing) (routines : RoutineTable) : Prop where
  /-- It touches no row but its own. -/
  others : ∀ other, other ≠ firing.id → routines.find? other = s.routines.find? other
  /-- It changes the row only if there was no edit since the firing read it, or as a
  retirement, while the row still has the fired time, unless that row was deleted. -/
  unedited : routines ≠ s.routines → s.deletedSince firing = true ∨ s.newer firing = [] ∨
    firing.stage = .retire ∧ ∃ row time, s.routines.find? firing.id = some row ∧
      row.schedule = .once time ∧ firing.runOnceAt = some time
  /-- The row it has changed is not due at the time of the firing. -/
  notDue : routines ≠ s.routines → ∀ row', routines.find? firing.id = some row' →
    row'.enabled = true → ∀ time, row'.nextRunAt = some time → Later firing.now time
  /-- It switches nothing on, unless the row the firing read was deleted. -/
  paused : ∀ row row', s.routines.find? firing.id = some row →
    routines.find? firing.id = some row' → row.enabled = false →
      row'.enabled = false ∨ s.deletedSince firing = true

/-- What holds of a step. -/
structure EditsWin (s : State) (action : Action) (s' : State) : Prop where
  /-- Every write of a row makes its token later. -/
  tokens : ∀ id row row', s.routines.find? id = some row → s'.routines.find? id = some row' →
    row' = row ∨ Later row.updatedAt row'.updatedAt
  /-- A firing changes no schedule before it settles. -/
  fires : action.fires = true → KeepsSchedule s.routines s'.routines
  settles : ∀ id now firing, action = .settle id now → s.firings.find? id = some firing →
    FairSettlement s firing s'.routines

theorem Settles.fair {s : State} {firing : Firing} (h : Settles s firing now routines)
    (hinv : Inv s) (hbooked : AllBooked s) (hfiring : s.firings.find? firing.id = some firing) :
    FairSettlement s firing routines where
  others := fun _ => h.others
  unedited := h.changes hinv hfiring
  notDue := by
    intro hchanged row' hrow' hon time htime
    exact later_of_lt ((h.leaves (hbooked _ firing hfiring) hrow' hchanged hon).1 time htime)
  paused := by
    intro row row' hrow hrow' hoff
    by_cases hchanged : routines = s.routines
    · rw [hchanged, hrow, Option.some.injEq] at hrow'
      exact Or.inl (hrow' ▸ hoff)
    · by_cases hon : row'.enabled = true
      · rcases (h.leaves (hbooked _ firing hfiring) hrow' hchanged hon).2 with
          hgone | ⟨read, hread, hwas⟩
        · exact Or.inr hgone
        · rw [hrow, Option.some.injEq] at hread
          rw [← hread, hoff] at hwas
          cases hwas
      · exact Or.inl (by simpa using hon)

/-- **Edits win.** In every state that any interleaving of edits, toggles, deletions and
the steps of firings reaches, for every further step. -/
theorem edits_win {cronNext : CronNext} (hcron : StrictlyAfter cronNext)
    (actions : List Action) (action : Action) :
    EditsWin (run (step cronNext) start actions) action
      (step cronNext (run (step cronNext) start actions) action) := by
  have hinv : ∀ s action, Inv s ∧ AllBooked s →
      Inv (step cronNext s action) ∧ AllBooked (step cronNext s action) := fun s action h =>
    ⟨step_inv cronNext s action h.1, step_booked hcron s action h.1 h.2⟩
  have hrun := run_invariant hinv ⟨start_inv, start_booked⟩ actions
  revert hrun
  generalize run (step cronNext) start actions = s
  intro hrun
  refine ⟨?_, fun hfires => (step_fires cronNext s hfires).keepsSchedule, ?_⟩
  · intro id row row' hrow hrow'
    exact (step_forward cronNext s action id row row' hrow hrow').imp_right later_of_lt
  · intro id now firing haction hfiring
    subst haction
    have hid : firing.id = id := Table.key_of_find? hfiring
    subst hid
    rw [step, hfiring]
    exact (settle_settles s firing now).fair hrun.1 hrun.2 hfiring

/-- A daily routine, read at one time each day. -/
theorem edits_win_daily :
    EditsWin (run (step fun _ now => .ok (some (now + 86400000))) start
        [.save ⟨"r", "", "p", "a", "claude", "", "", .newSession, none, .cron "0 0 * * *", true,
            .user⟩ 0 0, .runNow "r" 1, .setEnabled "r" false 1,
          .launchAnswers "r" (.launched "s")]) (.settle "r" 2)
      (step (fun _ now => .ok (some (now + 86400000))) (run
        (step fun _ now => .ok (some (now + 86400000))) start
          [.save ⟨"r", "", "p", "a", "claude", "", "", .newSession, none, .cron "0 0 * * *",
              true, .user⟩ 0 0, .runNow "r" 1, .setEnabled "r" false 1,
            .launchAnswers "r" (.launched "s")]) (.settle "r" 2)) := by
  refine edits_win ?_ _ _
  intro expr now next hnext
  cases hnext
  omega

/-- Three ways in which an edit does not win: an edit of the prompt does not stop the
retirement of the one-shot that fired; a row that is deleted and written again within the
same millisecond takes the booking of the firing that read the old one, which switches
it on; and past the year 9999 a later token is no larger text. -/
theorem edits_overtaken :
    (¬ ∀ (cronNext : CronNext) (actions : List Action) (id : String) (now : ℤ)
      (firing : Firing), (run (step cronNext) start actions).firings.find? id = some firing →
        (run (step cronNext) start actions).deletedSince firing = false →
        (step cronNext (run (step cronNext) start actions) (.settle id now)).routines ≠
          (run (step cronNext) start actions).routines →
          (run (step cronNext) start actions).newer firing = []) ∧
    (¬ ∀ (cronNext : CronNext), StrictlyAfter cronNext →
      ∀ (actions : List Action) (id : String) (now : ℤ),
        ((run (step cronNext) start actions).routines.find? id).map Routine.enabled = some false →
        ((step cronNext (run (step cronNext) start actions) (.settle id now)).routines.find?
          id).map Routine.enabled ≠ some true) ∧
    ¬ ∀ current now : ℤ, Stampable current → Stampable now →
      stamp current < nextUpdatedAtText (some (stamp current)) (stamp now) := by
  refine ⟨?_, ?_, ?_⟩
  · intro hclaim
    have hnewer := hclaim (fun _ _ => .ok none)
      [.save ⟨"r", "", "p", "a", "claude", "", "", .newSession, none, .once 5, true, .user⟩ 0 0,
        .tick 10, .claimDue 10,
        .save ⟨"r", "", "p", "b", "claude", "", "", .newSession, none, .once 5, true, .user⟩ 11 11,
        .launchAnswers "r" (.launched "s"), .settle "r" 12] "r" 13
    revert hnewer
    decide
  · intro hclaim
    have hpaused := hclaim (fun _ now => .ok (some (now + 86400000)))
      (by intro expr now next hnext; cases hnext; omega)
      [.save ⟨"r", "", "p", "a", "claude", "", "", .newSession, none, .cron "0 0 * * *", true,
          .user⟩ 0 0,
        .runNow "r" 0, .delete "r",
        .save ⟨"r", "", "p", "b", "claude", "", "", .newSession, none, .cron "0 0 * * *", false,
          .user⟩ 0 0,
        .launchAnswers "r" (.launched "s")] "r" 1
    revert hpaused
    decide
  · intro hclaim
    have hlast : Stampable 253402300799999 := ⟨by decide, by decide⟩
    have hlater := hclaim 253402300799999 0 hlast ⟨by decide, by decide⟩
    revert hlater
    decide

end Argmax.Routines
