import Argmax.Providers.Continuity

/-!
# The events of a session, as they grow

Every statement adds rows at the end. What that leaves of the newest prompt, of its answer and
of what is visible.
-/

namespace Argmax.Providers.Continuity

open Argmax.Lib Argmax.Persistence Argmax.Persistence.Continuity

variable {other : EventRow} {db db' : SessionTables}

/-! ## Rows -/

section Rows

variable {db db' : SessionTables} {event : NewEvent} {row : EventRow}

section

variable (h : persist db event = some (row, db'))
include h

/-- What a stored event adds. -/
theorem persist_eq_some :
    db' = { db with events := db'.events } ∧ db'.events.rows = db.events.rows ++ [row] ∧
      row.rowid = nextRowid db.events ∧ row.sessionId = db.sessionId ∧ row.type = event.type := by
  obtain ⟨events, hevents, heq⟩ := Option.map_eq_some_iff.mp h
  obtain ⟨rfl, rfl⟩ := Prod.mk.inj heq
  obtain ⟨hfree, rfl⟩ := Table.insert?_eq_some.mp hevents
  exact ⟨rfl, rfl, rfl, rfl, rfl⟩

theorem mem_events_persist (other : EventRow) :
    other ∈ db'.events ↔ other ∈ db.events ∨ other = row := by
  rw [Table.mem_def, (persist_eq_some h).2.1, List.mem_append, List.mem_singleton, ← Table.mem_def]

/-- A row that is not asked for does not change the newest one that is. -/
theorem newest_persist_of_false {p : EventRow → Bool}
    (hp : p row = false) : newest db'.events p = newest db.events p := by
  rw [newest, (persist_eq_some h).2.1, List.filter_append, List.filter_cons_of_neg (by simp [hp]),
    List.filter_nil, List.append_nil, newest]

/-- A row that is asked for is the newest one. -/
theorem newest_persist_of_true {p : EventRow → Bool}
    (hp : p row = true) : newest db'.events p = some row := by
  have hrow : row ∈ db'.events := (mem_events_persist h row).mpr (.inr rfl)
  cases hnewest : newest db'.events p with
  | none =>
    rw [newest_eq_none.mp hnewest row hrow] at hp
    cases hp
  | some other =>
    obtain ⟨hmem, -, hmax⟩ := newest_eq_some hnewest
    have hle := hmax row hrow hp
    rcases (mem_events_persist h other).mp hmem with hold | rfl
    · have := rowid_lt_nextRowid hold
      have := (persist_eq_some h).2.2.1
      omega
    · rfl

end

theorem lastCleared_mono {events events' : EventTable} {sessionId : String}
    (h : ∀ event ∈ events, event ∈ events') :
    lastCleared events sessionId ≤ lastCleared events' sessionId := by
  have hle : ∀ (rows : List EventRow) (n : ℕ), (∀ row ∈ rows, row.rowid ≤ n) →
      rows.foldr (fun event newest => max event.rowid newest) 0 ≤ n := by
    intro rows n hn
    induction rows with
    | nil => exact Nat.zero_le n
    | cons first rest ih =>
      obtain ⟨hfirst, hrest⟩ := List.forall_mem_cons.mp hn
      exact Nat.max_le.mpr ⟨hfirst, ih hrest⟩
  refine hle _ _ fun row hr => ?_
  obtain ⟨hmem, hp⟩ := List.mem_filter.mp hr
  exact le_foldr_rowid (List.mem_filter.mpr ⟨h row hmem, hp⟩)

theorem visible_iff : visible db other = true ↔
    (other.sessionId = db.sessionId ∧
      ["user.message", "message.completed", "error"].contains other.type = true ∧
      other.message.toList.any (· != ' ') = true ∧ notChildAgent other.payload = true) ∧
    lastCleared db.events db.sessionId < other.rowid ∧ 0 < other.rowid ∧
      other.rowid ≤ maxRowid := by
  simp only [visible, eligible, Bool.and_eq_true, beq_iff_eq, decide_eq_true_eq]
  tauto

/-- What is visible later was visible when it was stored. -/
theorem visible_of_later (hsession : db'.sessionId = db.sessionId)
    (hevents : ∀ event ∈ db.events, event ∈ db'.events) (h : visible db' other = true) :
    visible db other = true := by
  rw [visible_iff] at h ⊢
  rw [hsession] at h
  exact ⟨h.1, (lastCleared_mono hevents).trans_lt h.2.1, h.2.2⟩

theorem type_of_visible (h : visible db other = true) :
    other.type = "user.message" ∨ other.type = "message.completed" ∨ other.type = "error" := by
  simpa using (visible_iff.mp h).1.2.1

theorem eligible_of_visible {rowid : ℕ} (h : visible db other = true) (hlt : rowid < other.rowid) :
    eligible db.events db.sessionId rowid maxRowid other = true := by
  rw [visible_iff] at h
  simp only [eligible, Bool.and_eq_true, beq_iff_eq, decide_eq_true_eq]
  tauto

/-- Lifecycle markers are no messages and no output. -/
theorem session_type {type : String} (h : "session.".toList.isPrefixOf type.toList = true) :
    type ≠ "user.message" ∧ type ≠ "message.completed" ∧ type ≠ "error" ∧
      isOutput type = false := by
  refine ⟨?_, ?_, ?_, by rw [isOutput, h]; simp⟩ <;> rintro rfl <;> revert h <;> decide

theorem answered_iff : db.answered = true ↔ ∀ prompt, db.newestPrompt = some prompt →
    ∃ other ∈ db.events, other.sessionId = db.sessionId ∧ prompt.rowid < other.rowid ∧
      isOutput other.type = true := by
  rw [SessionTables.answered]
  cases db.newestPrompt with
  | none => simp
  | some prompt => simp [Table.mem_def, and_assoc]

end Rows

/-! ## Growth -/

/-- Rows have places of their own. -/
def Distinct (events : EventTable) : Prop :=
  ∀ event ∈ events, ∀ other ∈ events, event.rowid = other.rowid → event = other

/-- Rows are added at the end. -/
structure Grows (db db' : SessionTables) : Prop where
  sessionId : db'.sessionId = db.sessionId
  events : ∀ event ∈ db.events, event ∈ db'.events
  newer : ∀ event ∈ db'.events, event ∈ db.events ∨ ∀ old ∈ db.events, old.rowid < event.rowid
  distinct : Distinct db.events → Distinct db'.events

theorem Grows.of_eq (hsession : db'.sessionId = db.sessionId) (hevents : db'.events = db.events) :
    Grows db db' where
  sessionId := hsession
  events _ he := hevents ▸ he
  newer _ he := .inl (hevents ▸ he)
  distinct hd := hevents ▸ hd

theorem Grows.trans {db'' : SessionTables} (h : Grows db db') (h' : Grows db' db'') :
    Grows db db'' where
  sessionId := h'.sessionId.trans h.sessionId
  events e he := h'.events e (h.events e he)
  newer e he := by
    rcases h'.newer e he with hold | hnew
    · exact h.newer e hold
    · exact .inr fun old ho => hnew old (h.events old ho)
  distinct hd := h'.distinct (h.distinct hd)

theorem grows_persist {event : NewEvent} {row : EventRow} (h : persist db event = some (row, db')) :
    Grows db db' := by
  have hmem := mem_events_persist h
  have hlt : ∀ old ∈ db.events, old.rowid < row.rowid := fun old ho =>
    (persist_eq_some h).2.2.1 ▸ rowid_lt_nextRowid ho
  constructor
  case sessionId => rw [(persist_eq_some h).1]
  case events => exact fun e he => (hmem e).mpr (.inl he)
  case newer =>
    intro e he
    rcases (hmem e).mp he with hold | rfl
    · exact .inl hold
    · exact .inr hlt
  case distinct =>
    intro hd e he e' he' heq
    rcases (hmem e).mp he with hold | rfl
    · rcases (hmem e').mp he' with hold' | rfl
      · exact hd e hold e' hold' heq
      · exact absurd heq (Nat.ne_of_lt (hlt e hold))
    · rcases (hmem e').mp he' with hold' | rfl
      · exact absurd heq.symm (Nat.ne_of_lt (hlt e' hold'))
      · rfl

/-- The newest prompt after an event that is none, and whether it is answered. -/
theorem answered_persist {event : NewEvent} {row : EventRow}
    (h : persist db event = some (row, db')) (hne : event.type ≠ "user.message") :
    db'.newestPrompt = db.newestPrompt ∧ db'.answered = (db.answered || isOutput event.type) := by
  obtain ⟨hdb, hrows, hrow, hsession, htype⟩ := persist_eq_some h
  have hid : db'.sessionId = db.sessionId := (grows_persist h).sessionId
  have hprompt : db'.newestPrompt = db.newestPrompt := by
    rw [SessionTables.newestPrompt, hid]
    exact newest_persist_of_false h (by simp [htype, hne])
  rw [SessionTables.answered, SessionTables.answered, hprompt]
  cases hnewest : db.newestPrompt with
  | none => simp
  | some prompt =>
    have hlt : prompt.rowid < row.rowid :=
      hrow ▸ rowid_lt_nextRowid (newest_eq_some hnewest).1
    simp [hrows, hid, hsession, hlt, htype]

/-- A batch is stored at the end. -/
theorem grows_persistAll {events : List NewEvent} {rows : List EventRow}
    (h : persistAll db events = some (rows, db')) :
    db' = { db with events := db'.events } ∧ Grows db db' := by
  induction events generalizing db rows with
  | nil =>
    obtain ⟨rfl, rfl⟩ := Prod.mk.inj (Option.some.inj h)
    exact ⟨rfl, .of_eq rfl rfl⟩
  | cons event events ih =>
    obtain ⟨⟨row, mid⟩, hpersist, h⟩ := Option.bind_eq_some_iff.mp h
    obtain ⟨⟨rest, last⟩, hrest, h⟩ := Option.bind_eq_some_iff.mp h
    obtain ⟨rfl, rfl⟩ := Prod.mk.inj (Option.some.inj h)
    have ⟨hdb, hgrows⟩ := ih hrest
    exact ⟨by rw [hdb, (persist_eq_some hpersist).1], (grows_persist hpersist).trans hgrows⟩

theorem persistAll_eq_some {events : List NewEvent} {rows : List EventRow}
    (h : persistAll db events = some (rows, db'))
    (hne : ∀ event ∈ events, event.type ≠ "user.message") :
    db' = { db with events := db'.events } ∧ Grows db db' ∧
      (∀ e, e ∈ db'.events ↔ e ∈ db.events ∨ e ∈ rows) ∧
      db'.newestPrompt = db.newestPrompt ∧
      db'.answered = (db.answered || events.any fun event => isOutput event.type) := by
  have ⟨hdb, hgrows⟩ := grows_persistAll h
  refine ⟨hdb, hgrows, ?_⟩
  clear hdb hgrows
  induction events generalizing db rows with
  | nil =>
    obtain ⟨rfl, rfl⟩ := Prod.mk.inj (Option.some.inj h)
    exact ⟨by simp, rfl, by simp⟩
  | cons event events ih =>
    obtain ⟨⟨row, mid⟩, hpersist, h⟩ := Option.bind_eq_some_iff.mp h
    obtain ⟨⟨rest, last⟩, hrest, h⟩ := Option.bind_eq_some_iff.mp h
    obtain ⟨rfl, rfl⟩ := Prod.mk.inj (Option.some.inj h)
    obtain ⟨hfirst, hothers⟩ := List.forall_mem_cons.mp hne
    obtain ⟨hmem, hprompt, hanswered⟩ := ih hrest hothers
    obtain ⟨hprompt', hanswered'⟩ := answered_persist hpersist hfirst
    refine ⟨fun e => ?_, hprompt.trans hprompt', ?_⟩
    · rw [hmem, mem_events_persist hpersist, List.mem_cons, or_assoc]
    · rw [hanswered, hanswered', List.any_cons, Bool.or_assoc]

end Argmax.Providers.Continuity
