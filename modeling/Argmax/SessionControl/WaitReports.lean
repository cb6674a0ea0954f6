import Argmax.SessionControl.Waits

/-!
# A wait reports each finish once

A session's mark is the time of the last report. Its last finish was reported when the mark is
not older than the activity, as long as each activity after a report starts a turn. So a
finish is told once where nothing writes to a session between a wait's look at it and the mark,
and nothing but a new turn writes to one whose finish was told. A change of the model of such a
session makes its finish due again.
-/

namespace Argmax.SessionControl

open Argmax.Lib

/-! ## Reports -/

/-- A wait has reported the finish. -/
def Reported (s : State) (id : String) (finish : ℕ) : Prop :=
  ∃ session ∈ s.reports, session.sessionId = id ∧ session.finish = finish

/-- Each finish is reported once. A session is due until its last finish is reported, and then
not before a new turn. -/
structure ReportsOnce (s : State) : Prop where
  once : (s.reports.map fun session => (session.sessionId, session.finish)).Nodup
  due : ∀ row ∈ s.sessions, ¬ Reported s row.id (s.finishes row.id) → waitReportIsDue row = true
  held : ∀ row ∈ s.sessions, row.state.isActive = false →
    Reported s row.id (s.finishes row.id) → waitReportIsDue row = false

/-- The wait has read the state of the session, and not its mark. -/
def Reading (s : State) (key : ℕ) (session : WaitedSession) : Prop :=
  ∃ wait, s.waits key = some wait ∧ wait.reading = some session

/-- The wait has found the session, and has not marked it. -/
def Found (s : State) (key : ℕ) (session : WaitedSession) : Prop :=
  ∃ wait, s.waits key = some wait ∧ session ∈ wait.settled

/-- The times go on, only a new turn writes to a session whose last finish was reported, and
nothing comes between a wait's look at a session and its mark that makes the look stale. -/
def Undisturbed (s : State) : Act → Prop
  | .write id write stamp => ∀ row, s.sessions.find? id = some row →
    (∀ mark ∈ row.waitReportedAt, mark < stamp) ∧
    (Reported s id (s.finishes id) → row.state.isActive = false →
      (write.nextState row.state).isActive = true) ∧
    (∀ key session, Reading s key session → session.sessionId = id →
      ¬ Reported s id session.finish) ∧
    (finishesTurn row write = true → ∀ key session, Reading s key session ∨ Found s key session →
      session.sessionId ≠ id)
  | .readDue key => ∀ session, Reading s key session → ∀ other found, other ≠ key →
    Found s other found → found.sessionId ≠ session.sessionId
  | .mark key reportedAt => ∀ session, Found s key session → ∀ row,
    s.sessions.find? session.sessionId = some row → row.lastActivityAt ≤ reportedAt
  | _ => True

/-! ## Rows -/

theorem find?_updateRow {sessions : SessionTable} {id : String} {f : SessionRow → SessionRow}
    (hf : ∀ row, (f row).id = row.id) (other : String) :
    (updateRow sessions id f hf).find? other =
      if other = id then (sessions.find? other).map f else sessions.find? other := by
  rw [updateRow, Table.find?_update]
  cases hfind : sessions.find? other with
  | none => simp
  | some row =>
    have hid := Table.key_of_find? hfind
    by_cases h : other = id <;> simp [hid, h]

theorem find?_writeRow (sessions : SessionTable) (id : String) (write : SessionWrite)
    (stamp other : String) :
    (writeRow sessions id write stamp).find? other =
      if other = id then (sessions.find? other).map fun row => row.written write stamp
      else sessions.find? other :=
  find?_updateRow _ other

theorem find?_markWaitReported (sessions : SessionTable) (id reportedAt other : String) :
    (markWaitReported sessions id reportedAt).find? other =
      if other = id then
        (sessions.find? other).map fun row => { row with waitReportedAt := some reportedAt }
      else sessions.find? other :=
  find?_updateRow _ other

theorem waitReportIsDue_eq_true {row : SessionRow} :
    waitReportIsDue row = true ↔ ∀ mark ∈ row.waitReportedAt, mark < row.lastActivityAt := by
  cases h : row.waitReportedAt <;> simp [waitReportIsDue, h]

/-! ## The invariant -/

/-- What holds of a session whose state was read. -/
structure ReadingOk (s : State) (session : WaitedSession) : Prop where
  last : session.finish = s.finishes session.sessionId
  held : ∀ row, s.sessions.find? session.sessionId = some row →
    Reported s session.sessionId session.finish → waitReportIsDue row = false

/-- What holds of a session that was found. -/
structure FoundOk (s : State) (session : WaitedSession) : Prop where
  known : (s.sessions.find? session.sessionId).isSome = true
  last : session.finish = s.finishes session.sessionId
  new : ¬ Reported s session.sessionId session.finish

/-- The sessions that a wait has yet to look at and those that it has found are apart. -/
def Wait.Spread (wait : Wait) : Prop :=
  wait.watched.Nodup ∧
    (wait.settled.map (·.sessionId) ++ (wait.reading.map (·.sessionId)).toList ++ wait.rest).Nodup

structure Inv (s : State) : Prop where
  once : (s.reports.map fun session => (session.sessionId, session.finish)).Nodup
  due : ∀ id row, s.sessions.find? id = some row → ¬ Reported s id (s.finishes id) →
    waitReportIsDue row = true
  held : ∀ id row, s.sessions.find? id = some row → row.state.isActive = false →
    Reported s id (s.finishes id) → waitReportIsDue row = false
  known : ∀ session ∈ s.reports, (s.sessions.find? session.sessionId).isSome = true
  counted : ∀ session ∈ s.reports, session.finish ≤ s.finishes session.sessionId
  reading : ∀ key session, Reading s key session → ReadingOk s session
  found : ∀ key session, Found s key session → FoundOk s session
  apart : ∀ key other session session', key ≠ other → Found s key session →
    Found s other session' → session.sessionId ≠ session'.sessionId
  spread : ∀ key wait, s.waits key = some wait → wait.Spread

variable {s : State}

theorem Inv.reportsOnce (h : Inv s) : ReportsOnce s :=
  ⟨h.once, fun row hrow => h.due row.id row (Table.find?_of_mem hrow),
    fun row hrow => h.held row.id row (Table.find?_of_mem hrow)⟩

theorem inv_start : Inv .start := by
  refine ⟨List.nodup_nil, ?_, ?_, ?_, ?_, ?_, ?_, ?_, ?_⟩
  all_goals simp [State.start, Reading, Found]

/-- **The frame rule for waits.** Only what one wait has read matters to it. -/
theorem Inv.setWait (h : Inv s) {key : ℕ} {wait' : Option Wait}
    (hwait : ∀ wait, wait' = some wait → wait.Spread ∧
      (∀ session, wait.reading = some session → ReadingOk s session) ∧
      ∀ session ∈ wait.settled, FoundOk s session ∧ ∀ other found, other ≠ key →
        Found s other found → found.sessionId ≠ session.sessionId) : Inv (setWait s key wait') := by
  have hother : ∀ {other}, other ≠ key → (SessionControl.setWait s key wait').waits other =
      s.waits other := fun hne => Function.update_of_ne hne _ _
  have hself : (SessionControl.setWait s key wait').waits key = wait' :=
    Function.update_self _ _ _
  have hfound : ∀ {other session}, other ≠ key →
      Found (SessionControl.setWait s key wait') other session → Found s other session := by
    rintro other session hne ⟨wait, hw, hmem⟩
    exact ⟨wait, hother hne ▸ hw, hmem⟩
  refine ⟨h.once, h.due, h.held, h.known, h.counted, ?_, ?_, ?_, ?_⟩
  · rintro other session ⟨wait, hw, hreading⟩
    by_cases hne : other = key
    · subst hne
      exact ⟨((hwait wait (hself ▸ hw)).2.1 session hreading).last,
        ((hwait wait (hself ▸ hw)).2.1 session hreading).held⟩
    · have hok := h.reading other session ⟨wait, hother hne ▸ hw, hreading⟩
      exact ⟨hok.last, hok.held⟩
  · rintro other session hsession
    have hok : FoundOk s session := by
      by_cases hne : other = key
      · subst hne
        obtain ⟨wait, hw, hmem⟩ := hsession
        exact ((hwait wait (hself ▸ hw)).2.2 session hmem).1
      · exact h.found other session (hfound hne hsession)
    exact ⟨hok.known, hok.last, hok.new⟩
  · intro other other' session session' hne hsession hsession'
    by_cases hkey : other = key
    · subst hkey
      obtain ⟨wait, hw, hmem⟩ := hsession
      exact (((hwait wait (hself ▸ hw)).2.2 session hmem).2 other' session' (Ne.symm hne)
        (hfound (Ne.symm hne) hsession')).symm
    · by_cases hkey' : other' = key
      · subst hkey'
        obtain ⟨wait, hw, hmem⟩ := hsession'
        exact ((hwait wait (hself ▸ hw)).2.2 session' hmem).2 other session hne
          (hfound hne hsession)
      · exact h.apart other other' session session' hne (hfound hkey hsession)
          (hfound hkey' hsession')
  · intro other wait hw
    by_cases hne : other = key
    · subst hne
      exact (hwait wait (hself ▸ hw)).1
    · exact h.spread other wait (hother hne ▸ hw)

/-- What a wait has found of an unchanged state. -/
theorem Inv.settledOk (h : Inv s) {key : ℕ} {wait : Wait} (hw : s.waits key = some wait)
    (session : WaitedSession) (hmem : session ∈ wait.settled) : FoundOk s session ∧
      ∀ other found, other ≠ key → Found s other found → found.sessionId ≠ session.sessionId :=
  ⟨h.found key session ⟨wait, hw, hmem⟩, fun other found hne hfound =>
    h.apart other key found session hne hfound ⟨wait, hw, hmem⟩⟩

theorem nodup_sessionsLaunchedBy (sessions : SessionTable) : (sessionsLaunchedBy sessions).Nodup :=
  sessions.unique.sublist (List.filter_sublist.map _)

section

variable (h : Inv s)
include h

theorem inv_wait (key : ℕ) : Inv (step s (.wait key)) := by
  rw [step]
  cases hw : s.waits key with
  | some wait => exact h
  | none =>
    refine h.setWait ?_
    rintro _ ⟨⟩
    refine ⟨⟨nodup_sessionsLaunchedBy _, by simp [Wait.idle]⟩, by simp [Wait.idle], ?_⟩
    simp [Wait.idle]

theorem inv_collect (key : ℕ) : Inv (step s (.collect key)) := by
  rw [step]
  cases hw : s.waits key with
  | none => exact h
  | some wait =>
    dsimp only
    split
    · rename_i hidle
      refine h.setWait ?_
      rintro _ ⟨⟩
      have hspread := h.spread key wait hw
      rw [hidle] at hspread ⊢
      exact ⟨⟨hspread.1, by simpa [Wait.idle] using hspread.1⟩, by simp [Wait.idle],
        by simp [Wait.idle]⟩
    · exact h

theorem inv_readState (key : ℕ) : Inv (step s (.readState key)) := by
  rw [step]
  cases hw : s.waits key with
  | none => exact h
  | some wait =>
    refine h.setWait ?_
    rintro _ ⟨⟩
    have hspread := h.spread key wait hw
    have hsettled := h.settledOk hw
    obtain ⟨watched, rest, reading, settled, marking⟩ := wait
    cases reading with
    | some session =>
      exact ⟨hspread, fun session' hsession' => h.reading key session' ⟨_, hw, hsession'⟩, hsettled⟩
    | none =>
      cases rest with
      | nil => exact ⟨hspread, by simp [readState], hsettled⟩
      | cons id rest =>
        refine ⟨⟨hspread.1, ?_⟩, ?_, hsettled⟩
        · have hnodup : (settled.map (·.sessionId) ++ id :: rest).Nodup := by
            simpa [Wait.Spread] using hspread.2
          simp only [readState]
          cases (s.sessions.find? id).filter fun row => !row.state.isActive with
          | none => simpa using hnodup.sublist ((List.sublist_cons_self id rest).append_left _)
          | some row => simpa using hnodup
        · intro session hsession
          simp only [readState, Option.map_eq_some_iff, Option.filter_eq_some_iff] at hsession
          obtain ⟨row, ⟨hrow, hsettledRow⟩, rfl⟩ := hsession
          refine ⟨rfl, fun row' hrow' hreported => ?_⟩
          obtain rfl : row = row' := Option.some_inj.mp (hrow.symm.trans hrow')
          exact h.held id row hrow (by simpa using hsettledRow) hreported

theorem inv_readDue {key : ℕ} (hok : Undisturbed s (.readDue key)) :
    Inv (step s (.readDue key)) := by
  rw [step]
  cases hw : s.waits key with
  | none => exact h
  | some wait =>
    refine h.setWait ?_
    rintro _ ⟨⟩
    have hspread := h.spread key wait hw
    have hsettled := h.settledOk hw
    obtain ⟨watched, rest, reading, settled, marking⟩ := wait
    cases reading with
    | none => exact ⟨hspread, by simp [readDue], hsettled⟩
    | some session =>
      have hreading : Reading s key session := ⟨_, hw, rfl⟩
      have hsession := h.reading key session hreading
      have hnodup : (settled.map (·.sessionId) ++ session.sessionId :: rest).Nodup := by
        simpa [Wait.Spread] using hspread.2
      refine ⟨⟨hspread.1, ?_⟩, by simp [readDue], ?_⟩
      · simp only [readDue]
        split
        · simpa using hnodup
        · simpa using hnodup.sublist ((List.sublist_cons_self session.sessionId rest).append_left _)
      · intro session' hmem
        simp only [readDue] at hmem
        split at hmem
        · rename_i hdue
          rcases List.mem_append.mp hmem with hmem | hmem
          · exact hsettled session' hmem
          · obtain rfl := List.mem_singleton.mp hmem
            obtain ⟨row, hrow, hrowDue⟩ := (Option.any_eq_true _ _).mp hdue
            refine ⟨⟨by simp [hrow], hsession.last, fun hreported => ?_⟩, hok session' hreading⟩
            simp [hsession.held row hrow hreported] at hrowDue
        · exact hsettled session' hmem

theorem inv_leave (key : ℕ) : Inv (step s (.leave key)) := by
  rw [step]
  cases hw : s.waits key with
  | none => exact h
  | some wait =>
    dsimp only
    split
    · exact h
    · exact h.setWait fun _ hnone => by simp at hnone

/-- **The frame rule for rows.** A row that was there keeps its turn and its report, and a new
one is due. -/
theorem Inv.rows {sessions : SessionTable}
    (hold : ∀ id row, s.sessions.find? id = some row → ∃ row', sessions.find? id = some row' ∧
      row'.state.isActive = row.state.isActive ∧ waitReportIsDue row' = waitReportIsDue row)
    (hnew : ∀ id row', sessions.find? id = some row' → s.sessions.find? id = none →
      waitReportIsDue row' = true) : Inv { s with sessions := sessions } := by
  have hknown : ∀ {id}, (s.sessions.find? id).isSome = true → (sessions.find? id).isSome = true := by
    intro id hsome
    obtain ⟨row, hrow⟩ := Option.isSome_iff_exists.mp hsome
    obtain ⟨row', hrow', -⟩ := hold id row hrow
    simp [hrow']
  have hreported : ∀ {id finish}, Reported s id finish → (s.sessions.find? id).isSome = true := by
    rintro id finish ⟨session, hmem, rfl, -⟩
    exact h.known session hmem
  -- A row that was reported about was there before.
  have hback : ∀ {id row' finish}, sessions.find? id = some row' → Reported s id finish →
      ∃ row, s.sessions.find? id = some row ∧ row'.state.isActive = row.state.isActive ∧
        waitReportIsDue row' = waitReportIsDue row := by
    intro id row' finish hrow' hrep
    obtain ⟨row, hrow⟩ := Option.isSome_iff_exists.mp (hreported hrep)
    obtain ⟨row'', hrow'', hsame⟩ := hold id row hrow
    obtain rfl : row' = row'' := Option.some_inj.mp (hrow'.symm.trans hrow'')
    exact ⟨row, hrow, hsame⟩
  refine ⟨h.once, ?_, ?_, fun session hmem => hknown (h.known session hmem), h.counted, ?_, ?_,
    h.apart, h.spread⟩
  · intro id row' hrow' hunreported
    cases hrow : s.sessions.find? id with
    | none => exact hnew id row' hrow' hrow
    | some row =>
      obtain ⟨row'', hrow'', -, hdue⟩ := hold id row hrow
      obtain rfl : row' = row'' := Option.some_inj.mp (hrow'.symm.trans hrow'')
      rw [hdue]
      exact h.due id row hrow hunreported
  · intro id row' hrow' hinactive hrep
    obtain ⟨row, hrow, hactive, hdue⟩ := hback hrow' hrep
    rw [hdue]
    exact h.held id row hrow (hactive ▸ hinactive) hrep
  · intro key session hreading
    have hok := h.reading key session hreading
    refine ⟨hok.last, fun row' hrow' hrep => ?_⟩
    obtain ⟨row, hrow, -, hdue⟩ := hback hrow' hrep
    rw [hdue]
    exact hok.held row hrow hrep
  · intro key session hfound
    have hok := h.found key session hfound
    exact ⟨hknown hok.known, hok.last, hok.new⟩

theorem inv_persist (id : String) (state : SessionState) (stamp : String) :
    Inv (step s (.persist id state stamp)) := by
  have hfind : ∀ other, (s.sessions.insertOrIgnore ⟨id, state, stamp, none, false⟩).find? other =
      (s.sessions.find? other).or
        (if id = other then some ⟨id, state, stamp, none, false⟩ else none) := by
    intro other
    cases hfree : s.sessions.find? id with
    | none =>
      rw [Table.insertOrIgnore_of_free hfree, Table.find?_push]
      by_cases heq : id = other
      · simp [← heq, hfree]
      · simp [heq]
    | some row =>
      rw [Table.insertOrIgnore_of_taken hfree]
      by_cases heq : id = other
      · simp [← heq, hfree]
      · simp [heq]
  refine h.rows ?_ ?_
  · intro other row hrow
    exact ⟨row, by simp [hfind, hrow], rfl, rfl⟩
  · intro other row' hrow' hnone
    rw [hfind, hnone] at hrow'
    split at hrow'
    · cases hrow'
      rfl
    · cases hrow'

theorem inv_recordLaunch (id : String) : Inv (step s (.recordLaunch id)) := by
  refine h.rows ?_ ?_
  · intro other row hrow
    rw [find?_updateRow, hrow]
    split
    · exact ⟨_, rfl, rfl, rfl⟩
    · exact ⟨row, rfl, rfl, rfl⟩
  · intro other row' hrow' hnone
    simp [find?_updateRow, hnone] at hrow'

theorem inv_write {id : String} {write : SessionWrite} {stamp : String}
    (hok : Undisturbed s (.write id write stamp)) : Inv (step s (.write id write stamp)) := by
  cases hrow : s.sessions.find? id with
  | none =>
    have hfind : ∀ other, (writeRow s.sessions id write stamp).find? other =
        s.sessions.find? other := by
      intro other
      refine (find?_writeRow s.sessions id write stamp other).trans ?_
      split
      · rename_i heq
        rw [heq, hrow]
        rfl
      · rfl
    have hstep : step s (.write id write stamp) =
        { s with sessions := writeRow s.sessions id write stamp } := by simp [step, hrow]
    rw [hstep]
    refine h.rows (fun other row hother => ⟨row, (hfind other).trans hother, rfl, rfl⟩) ?_
    intro other row' hrow' hnone
    simp [hfind, hnone] at hrow'
  | some row =>
    obtain ⟨hclock, hturn, hreading, hfinish⟩ := hok row hrow
    have hfind : ∀ other, (step s (.write id write stamp)).sessions.find? other =
        if other = id then some (row.written write stamp) else s.sessions.find? other := by
      intro other
      refine (find?_writeRow s.sessions id write stamp other).trans ?_
      split
      · rename_i heq
        rw [heq, hrow]
        rfl
      · rfl
    have hfinishes : ∀ other, (step s (.write id write stamp)).finishes other =
        if other = id ∧ finishesTurn row write = true then s.finishes id + 1
          else s.finishes other := by
      intro other
      by_cases hends : finishesTurn row write = true
      · by_cases heq : other = id <;> simp [step, hrow, hends, heq]
      · simp [step, hrow, hends]
    have hdue : waitReportIsDue (row.written write stamp) = true :=
      waitReportIsDue_eq_true.mpr hclock
    have hsome : ∀ {other}, (s.sessions.find? other).isSome = true →
        ((step s (.write id write stamp)).sessions.find? other).isSome = true := by
      intro other hother
      rw [hfind]
      split
      · rfl
      · exact hother
    have hlast : ∀ {session}, (∃ key, Reading s key session ∨ Found s key session) →
        session.finish = s.finishes session.sessionId →
        session.finish = (step s (.write id write stamp)).finishes session.sessionId := by
      rintro session ⟨key, hheld⟩ heq
      rw [hfinishes, if_neg, heq]
      rintro ⟨hid, hends⟩
      exact hfinish hends key session hheld hid
    refine ⟨h.once, ?_, ?_, fun session hmem => hsome (h.known session hmem), ?_, ?_, ?_, h.apart,
      h.spread⟩
    · intro other row' hrow' hunreported
      rw [hfind] at hrow'
      rw [hfinishes] at hunreported
      split at hrow'
      · cases hrow'
        exact hdue
      · rename_i hne
        rw [if_neg fun hand => hne hand.1] at hunreported
        exact h.due other row' hrow' hunreported
    · intro other row' hrow' hinactive hreported
      rw [hfind] at hrow'
      rw [hfinishes] at hreported
      by_cases heq : other = id
      · subst heq
        rw [if_pos rfl] at hrow'
        cases hrow'
        by_cases hends : finishesTurn row write = true
        · rw [if_pos ⟨rfl, hends⟩] at hreported
          obtain ⟨session, hmem, hid, hlate⟩ := hreported
          have hcounted := h.counted session hmem
          rw [hid] at hcounted
          omega
        · rw [if_neg fun hand => hends hand.2] at hreported
          have hnext : (write.nextState row.state).isActive = false := hinactive
          have hbefore : row.state.isActive = false := by
            simpa [finishesTurn, hnext] using hends
          rw [hturn hreported hbefore] at hnext
          cases hnext
      · rw [if_neg heq] at hrow'
        rw [if_neg fun hand => heq hand.1] at hreported
        exact h.held other row' hrow' hinactive hreported
    · intro session hmem
      have hcounted := h.counted session hmem
      rw [hfinishes]
      split
      · rename_i hand
        rw [hand.1] at hcounted
        omega
      · exact hcounted
    · intro key session hsession
      have hokay := h.reading key session hsession
      refine ⟨hlast ⟨key, .inl hsession⟩ hokay.last, fun row' hrow' hreported => ?_⟩
      rw [hfind] at hrow'
      split at hrow'
      · rename_i hid
        exact absurd (hid ▸ hreported) (hreading key session hsession hid)
      · exact hokay.held row' hrow' hreported
    · intro key session hsession
      have hokay := h.found key session hsession
      exact ⟨hsome hokay.known, hlast ⟨key, .inr hsession⟩ hokay.last, hokay.new⟩

theorem inv_mark {key : ℕ} {reportedAt : String}
    (hok : Undisturbed s (.mark key reportedAt)) : Inv (step s (.mark key reportedAt)) := by
  rw [step]
  split
  rotate_left
  · exact h
  rename_i watched session settled marking hw
  have hfound : Found s key session := ⟨_, hw, List.mem_cons_self⟩
  have hsession := h.found key session hfound
  obtain ⟨row, hrow⟩ := Option.isSome_iff_exists.mp hsession.known
  have hclock := hok session hfound row hrow
  obtain ⟨hwatched, hnodup⟩ := h.spread key _ hw
  simp only [List.map_cons, Option.map_none, Option.toList_none, List.append_nil] at hnodup
  set s' : State := { setWait s key (some ⟨watched, [], none, settled, true⟩) with
    sessions := markWaitReported s.sessions session.sessionId reportedAt
    reports := session :: s.reports } with hs'
  have hfind : ∀ other, s'.sessions.find? other = if other = session.sessionId then
      some { row with waitReportedAt := some reportedAt } else s.sessions.find? other := by
    intro other
    refine (find?_markWaitReported s.sessions session.sessionId reportedAt other).trans ?_
    split
    · rename_i heq
      rw [heq, hrow]
      rfl
    · rfl
  have hmarked : waitReportIsDue { row with waitReportedAt := some reportedAt } = false := by
    rw [waitReportIsDue, Option.all_some, decide_eq_false_iff_not]
    exact String.not_lt.mpr hclock
  have hreported : ∀ {id finish}, Reported s' id finish ↔
      (id = session.sessionId ∧ finish = session.finish) ∨ Reported s id finish := by
    simp [Reported, hs', eq_comm]
  have hself : s'.waits key = some ⟨watched, [], none, settled, true⟩ := Function.update_self _ _ _
  have hother : ∀ {other}, other ≠ key → s'.waits other = s.waits other :=
    fun hne => Function.update_of_ne hne _ _
  -- What is found afterwards was found before, in another session.
  have hback : ∀ {other found}, Found s' other found →
      Found s other found ∧ found.sessionId ≠ session.sessionId := by
    rintro other found ⟨wait, hwait, hmem⟩
    by_cases heq : other = key
    · subst heq
      rw [hself] at hwait
      cases hwait
      refine ⟨⟨_, hw, List.mem_cons_of_mem _ hmem⟩, fun hid => ?_⟩
      exact (List.nodup_cons.mp hnodup).1 (hid ▸ List.mem_map_of_mem hmem)
    · have hbefore : Found s other found := ⟨wait, hother heq ▸ hwait, hmem⟩
      exact ⟨hbefore, h.apart other key found session heq hbefore hfound⟩
  refine ⟨?_, ?_, ?_, ?_, ?_, ?_, ?_, ?_, ?_⟩
  · refine List.nodup_cons.mpr ⟨fun hmem => ?_, h.once⟩
    obtain ⟨old, hold, heq⟩ := List.mem_map.mp hmem
    exact hsession.new ⟨old, hold, (Prod.mk.inj heq).1, (Prod.mk.inj heq).2⟩
  · intro id row' hrow' hunreported
    rw [hfind] at hrow'
    split at hrow'
    · rename_i heq
      exact absurd (hreported.mpr (.inl ⟨heq, heq ▸ hsession.last.symm⟩)) hunreported
    · exact h.due id row' hrow' fun hrep => hunreported (hreported.mpr (.inr hrep))
  · intro id row' hrow' hinactive hrep
    rw [hfind] at hrow'
    split at hrow'
    · cases hrow'
      exact hmarked
    · rename_i hne
      refine h.held id row' hrow' hinactive ?_
      exact (hreported.mp hrep).resolve_left fun hand => hne hand.1
  · intro old hold
    rw [hfind]
    split
    · rfl
    · rename_i hne
      rcases List.mem_cons.mp hold with rfl | hold
      · exact absurd rfl hne
      · exact h.known old hold
  · intro old hold
    rcases List.mem_cons.mp hold with rfl | hold
    · exact Nat.le_of_eq hsession.last
    · exact h.counted old hold
  · rintro other found ⟨wait, hwait, hreading⟩
    have hne : other ≠ key := by
      rintro rfl
      rw [hself] at hwait
      cases hwait
      cases hreading
    have hokay := h.reading other found ⟨wait, hother hne ▸ hwait, hreading⟩
    refine ⟨hokay.last, fun row' hrow' hrep => ?_⟩
    rw [hfind] at hrow'
    split at hrow'
    · cases hrow'
      exact hmarked
    · rename_i hid
      exact hokay.held row' hrow' ((hreported.mp hrep).resolve_left fun hand => hid hand.1)
  · intro other found hfound'
    obtain ⟨hbefore, hid⟩ := hback hfound'
    have hokay := h.found other found hbefore
    refine ⟨?_, hokay.last, fun hrep => ?_⟩
    · rw [hfind, if_neg hid]
      exact hokay.known
    · exact hokay.new ((hreported.mp hrep).resolve_left fun hand => hid hand.1)
  · intro other other' found found' hne hfound₁ hfound₂
    exact h.apart other other' found found' hne (hback hfound₁).1 (hback hfound₂).1
  · intro other wait hwait
    by_cases heq : other = key
    · subst heq
      rw [hself] at hwait
      cases hwait
      exact ⟨hwatched, by simpa using (List.nodup_cons.mp hnodup).2⟩
    · exact h.spread other wait (hother heq ▸ hwait)

/-- What each undisturbed step keeps. -/
theorem inv_step {act : Act} (hok : Undisturbed s act) : Inv (step s act) := by
  cases act with
  | persist id state stamp => exact inv_persist h id state stamp
  | recordLaunch id => exact inv_recordLaunch h id
  | write id write stamp => exact inv_write h hok
  | wait key => exact inv_wait h key
  | collect key => exact inv_collect h key
  | readState key => exact inv_readState h key
  | readDue key => exact inv_readDue h hok
  | mark key reportedAt => exact inv_mark h hok
  | leave key => exact inv_leave h key

end

/-- **Each finish is reported once, and is due until then**, in every state of every undisturbed
run. -/
theorem waits_report_once (acts : List Act) (h : Legal step Undisturbed .start acts) :
    ReportsOnce (run step .start acts) :=
  (Legal.invariant (fun _ _ hs hok => inv_step hs hok) h inv_start).reportsOnce

/-! ## Told twice, and never -/

/-- A session is launched, finishes, and is reported. -/
def toldRun : List Act :=
  [.persist "child" .running "1", .recordLaunch "child", .write "child" (.state .complete) "2",
    .wait 0, .collect 0, .readState 0, .readDue 0, .mark 0 "3", .leave 0]

/-- Its model is changed, and the launcher waits again. -/
def toldTwiceRun : List Act :=
  toldRun ++ [.write "child" .model "4", .wait 0, .collect 0, .readState 0, .readDue 0,
    .mark 0 "5", .leave 0]

/-- It runs and finishes again while a wait has found its first finish. -/
def neverToldRun : List Act :=
  [.persist "child" .running "1", .recordLaunch "child", .write "child" (.state .complete) "2",
    .wait 0, .collect 0, .readState 0, .readDue 0, .write "child" (.state .running) "3",
    .write "child" (.state .failed) "4", .mark 0 "5", .leave 0]

/-- **A finish is told twice, and one is never told.** -/
theorem told_twice_or_never :
    ¬ ReportsOnce (run step .start toldTwiceRun) ∧ ¬ ReportsOnce (run step .start neverToldRun) := by
  constructor
  · intro h
    have honce := h.once
    exact absurd honce (by decide)
  · intro h
    have hrow : ⟨"child", .failed, "4", some "5", true⟩ ∈
        (run step .start neverToldRun).sessions.rows := by decide
    have hreports : (run step .start neverToldRun).reports = [⟨"child", .complete, 1⟩] := by
      rfl
    have hfinishes : (run step .start neverToldRun).finishes "child" = 2 := by rfl
    have hdue := h.due _ hrow (by simp [Reported, hreports, hfinishes])
    exact absurd hdue (by decide)

/-- The wait that a step is of. -/
def Act.key : Act → Option ℕ
  | .wait key | .collect key | .readState key | .readDue key | .mark key _ | .leave key => some key
  | .persist .. | .recordLaunch .. | .write .. => none

/-- A wait leaves the others alone. -/
theorem waits_step_of_ne (s : State) {act : Act} {other : ℕ} (h : act.key ≠ some other) :
    (step s act).waits other = s.waits other := by
  have hset : ∀ {key}, some key ≠ some other → ∀ wait,
      (setWait s key wait).waits other = s.waits other :=
    fun hne wait => Function.update_of_ne (fun heq => hne (congrArg some heq.symm)) _ _
  cases act with
  | persist | recordLaunch | write => rfl
  | wait key | readState key | readDue key => rw [step]; split <;> first | rfl | exact hset h _
  | collect key | mark key | leave key =>
    rw [step]
    split
    · first
      | (split <;> first | rfl | exact hset h _)
      | exact hset h _
    · rfl

/-- One wait runs, and the others do not. -/
theorem waits_toldRun (n : ℕ) {other : ℕ} (hne : other ≠ 0) :
    (run step .start (toldRun.take n)).waits other = none := by
  have hkeys : ∀ act ∈ toldRun, act.key = none ∨ act.key = some 0 := by decide
  have hrun : ∀ (acts : List Act) (s : State), (∀ act ∈ acts, act.key ≠ some other) →
      (run step s acts).waits other = s.waits other := by
    intro acts
    induction acts with
    | nil => exact fun s _ => rfl
    | cons act acts ih =>
      intro s h
      obtain ⟨hact, hacts⟩ := List.forall_mem_cons.mp h
      rw [run_cons, ih _ hacts, waits_step_of_ne s hact]
  refine hrun _ _ fun act hact => ?_
  rcases hkeys act (List.mem_of_mem_take hact) with hkey | hkey <;> simp [hkey, Ne.symm hne]

/-- The first run is undisturbed. -/
theorem waits_report_once_told : ReportsOnce (run step .start toldRun) := by
  have hrow : (run step .start (toldRun.take 2)).sessions.find? "child" =
      some ⟨"child", .running, "1", none, true⟩ := by rfl
  have hwaits : ∀ key, (run step .start (toldRun.take 2)).waits key = none := by
    intro key
    by_cases hkey : key = 0
    · rw [hkey]
      rfl
    · exact waits_toldRun 2 hkey
  have hmarked : (run step .start (toldRun.take 7)).sessions.find? "child" =
      some ⟨"child", .complete, "2", none, true⟩ := by rfl
  refine waits_report_once toldRun
    ⟨trivial, trivial, ?_, trivial, trivial, trivial, ?_, ?_, trivial, trivial⟩
  · change Undisturbed (run step .start (toldRun.take 2)) _
    rintro row hrow'
    obtain rfl := Option.some_inj.mp (hrow.symm.trans hrow')
    refine ⟨by simp, fun _ hinactive => by simp [SessionState.isActive] at hinactive, ?_, ?_⟩
    · rintro key session ⟨wait, hw, -⟩
      simp [hwaits] at hw
    · rintro - key session (⟨wait, hw, -⟩ | ⟨wait, hw, -⟩) <;> simp [hwaits] at hw
  · change Undisturbed (run step .start (toldRun.take 6)) _
    rintro session - other found hne ⟨wait, hw, -⟩
    simp [waits_toldRun 6 hne] at hw
  · change Undisturbed (run step .start (toldRun.take 7)) _
    rintro session ⟨wait, hw, hmem⟩ row hrow'
    cases hw
    obtain rfl := List.mem_singleton.mp hmem
    obtain rfl := Option.some_inj.mp (hmarked.symm.trans hrow')
    decide

end Argmax.SessionControl
