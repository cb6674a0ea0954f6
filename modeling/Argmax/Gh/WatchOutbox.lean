import Argmax.Gh.Watch

/-!
# The outbox of a watch

No notice that was staged is lost. It stays in its row until it is in the inbox of its
session, unless its chat was archived when a pass came to it, and until then every pass
offers it again as it was staged. No two notices have an id in common.

The argument looks at a row as an outbox: how many notices it staged, and which one waits.
Passes are the only writers of that, one at a time, so what a pass reads in its list of
watches is what it finds in the row, or the row is gone.
-/

namespace Argmax.Gh

open Argmax.Lib Argmax.Persistence.PrWatches

/-! ## Ids of notices -/

/-- A number and what follows it are read off a text. -/
theorem toDigits_append_cons_inj {m n : ℕ} {c : Char} (hc : c.isDigit = false)
    {rest rest' : List Char}
    (h : Nat.toDigits 10 m ++ c :: rest = Nat.toDigits 10 n ++ c :: rest') :
    m = n ∧ rest = rest' := by
  have hdigits : ∀ k : ℕ, ∀ d ∈ Nat.toDigits 10 k, d.isDigit = true := fun k d hd =>
    Nat.isDigit_of_mem_toDigits (by decide) (by decide) hd
  have htake : ∀ (k : ℕ) (text : List Char),
      (Nat.toDigits 10 k ++ c :: text).takeWhile Char.isDigit = Nat.toDigits 10 k := by
    intro k text
    rw [List.takeWhile_append_of_pos (hdigits k), List.takeWhile_cons_of_neg (by simp [hc]),
      List.append_nil]
  have hsame : Nat.toDigits 10 m = Nat.toDigits 10 n := by
    rw [← htake m rest, h, htake n rest']
  have hmn : m = n := by
    rw [← Nat.ofDigitChars_ten_toDigits (n := m), hsame, Nat.ofDigitChars_ten_toDigits]
  subst hmn
  simpa using h

/-- The `seq`-th id of a watch. -/
def idAt (watchId seq : ℕ) (head : List Char) : String :=
  String.ofList ("pr-watch:".toList ++ (Nat.toDigits 10 watchId ++ ':' ::
    (Nat.toDigits 10 seq ++ ':' :: head)))

theorem idAt_inj {watchId watchId' seq seq' : ℕ} {head head' : List Char}
    (h : idAt watchId seq head = idAt watchId' seq' head') : watchId = watchId' ∧ seq = seq' := by
  have hcolon : Char.isDigit ':' = false := by decide
  have hlist := List.append_cancel_left (String.ofList_injective h)
  obtain ⟨hid, hrest⟩ := toDigits_append_cons_inj hcolon hlist
  exact ⟨hid, (toDigits_append_cons_inj hcolon hrest).1⟩

/-- One of the first `seq` ids of a watch. -/
def Numbered (watchId seq : ℕ) (id : String) : Prop := ∃ k ≤ seq, ∃ head, id = idAt watchId k head

theorem Numbered.mono {watchId seq seq' : ℕ} {id : String} (h : Numbered watchId seq id)
    (hle : seq ≤ seq') : Numbered watchId seq' id := by
  obtain ⟨k, hk, head, rfl⟩ := h
  exact ⟨k, Nat.le_trans hk hle, head, rfl⟩

/-- The next id of a watch is none of the first, and no id of another watch. -/
theorem next_ne {watchId other seq : ℕ} {head : List Char} {id : String}
    (h : ∃ k head, id = idAt other k head) (hsame : other = watchId → Numbered watchId seq id) :
    id ≠ idAt watchId (seq + 1) head := by
  rintro rfl
  obtain ⟨k, head', heq⟩ := h
  obtain ⟨k', hk', head'', heq'⟩ := hsame (idAt_inj heq).1.symm
  have := (idAt_inj heq').2
  omega

/-! ## Rows as outboxes -/

/-- How many notices a row staged, and the one that waits. -/
def outbox (watches : PrWatches) (watchId : ℕ) : Option (ℕ × Option PendingPrWatchNotice) :=
  (watches.find? watchId).map fun watch => (watch.noticeSeq, watch.pendingNotice)

variable {watches : PrWatches} {watch watch' : PrWatchRecord} {id : ℕ} {s s' : State}
  {writes : List Write} {write : Write}

theorem outbox_of_mem (h : watch ∈ watches) :
    outbox watches watch.id = some (watch.noticeSeq, watch.pendingNotice) := by
  rw [outbox, Table.find?_of_mem h, Option.map_some]

theorem outbox_updateById {f : PrWatchRecord → PrWatchRecord}
    (hf : ∀ watch, (f watch).id = watch.id) (other : ℕ) :
    outbox (updateById watches id f hf) other =
      if other = id then
        (watches.find? id).map fun watch => ((f watch).noticeSeq, (f watch).pendingNotice)
      else outbox watches other := by
  rw [outbox, updateById]
  cases hfind : watches.find? other with
  | none =>
    split
    · rename_i heq
      simp [← heq, hfind]
    · simp [outbox, hfind]
  | some watch =>
    have hid := Table.key_of_find? hfind
    split
    · rename_i heq
      simp [← heq, hfind, hid]
    · rename_i hne
      simp [outbox, hfind, hid, hne]

theorem outbox_deletePrWatchById (watches : PrWatches) (id other : ℕ) :
    outbox (deletePrWatchById watches id) other = if other = id then none else outbox watches other := by
  rw [outbox, deletePrWatchById, Table.find?_delete]
  cases hfind : watches.find? other with
  | none => simp [outbox, hfind]
  | some watch =>
    have hid := Table.key_of_find? hfind
    by_cases heq : other = id <;> simp [outbox, hfind, hid, heq]

/-- What a write does to the outbox of its watch. -/
def Write.after : Write → Option (ℕ × Option PendingPrWatchNotice) →
    Option (ℕ × Option PendingPrWatchNotice)
  | .setNotFoundCount _, box | .updateCursors _, box | .deliver _, box => box
  | .recordFetchFailure _ _ none, box => box.map fun row => (row.1, none)
  | .recordFetchFailure _ _ (some notice), box =>
    box.map fun row => (row.1 + 1, some { notice with endsWatch := false })
  | .stage _ notice, box => box.map fun row => (row.1 + 1, some notice)
  | .finish notice _, box => if notice.endsWatch then none else box.map fun row => (row.1, none)
  | .delete, _ => none

theorem outbox_perform (s : State) (watch : PrWatchRecord) (write : Write) (other : ℕ) :
    outbox (perform s watch write).watches other =
      if other = watch.id then write.after (outbox s.watches watch.id)
      else outbox s.watches other := by
  cases write with
  | setNotFoundCount count =>
    rw [perform, setNotFoundCount, outbox_updateById]
    rfl
  | recordFetchFailure count degraded notice =>
    rw [perform, recordFetchFailure, outbox_updateById]
    cases notice <;> simp [Write.after, outbox, Function.comp_def, withFetchFailure]
  | updateCursors cursors =>
    rw [perform, updateCursors, outbox_updateById]
    rfl
  | stage cursors notice =>
    rw [perform, stageNotice, outbox_updateById]
    simp [Write.after, outbox, Function.comp_def, staged]
  | deliver notice =>
    by_cases h : other = watch.id <;> simp [perform, Write.after, h]
  | finish notice recipientArchived =>
    rw [perform]
    by_cases hends : notice.endsWatch = true
    · simp [hends, outbox_deletePrWatchById, Write.after]
    · rw [if_neg hends, clearNotice, outbox_updateById]
      simp [hends, Write.after, outbox, Function.comp_def, cleared]
  | delete => rw [perform, outbox_deletePrWatchById]; rfl

/-! ## The invariant -/

/-- Every notice of the watch that was staged or delivered has one of its first `seq` ids. -/
structure Behind (s : State) (watchId seq : ℕ) : Prop where
  staged : ∀ entry ∈ s.stagedNotices, entry.watchId = watchId → Numbered watchId seq entry.notice.id
  told : ∀ message ∈ s.inbox, message.watchId = watchId → Numbered watchId seq message.messageId

/-- The notice is in the inbox as it was staged. -/
def Told (s : State) (notice : PendingPrWatchNotice) : Prop :=
  ∃ message ∈ s.inbox, message.messageId = notice.id ∧ message.body = notice.body

/-- The row of a watch, if it is there, has no notice that waits. -/
def Idle (s : State) (watch : PrWatchRecord) : Prop :=
  ∀ row, outbox s.watches watch.id = some row → row = (watch.noticeSeq, none)

/-- The notice has the next id of the watch. -/
structure New (s : State) (watch : PrWatchRecord) (notice : PendingPrWatchNotice) : Prop where
  next : ∃ head, notice.id = idAt watch.id (watch.noticeSeq + 1) head
  behind : Behind s watch.id watch.noticeSeq
  idle : Idle s watch

/-- The row of a watch, if it is there, has this notice waiting. -/
def Waits (s : State) (watch : PrWatchRecord) (notice : PendingPrWatchNotice) : Prop :=
  ∀ row, outbox s.watches watch.id = some row → row.2 = some notice

/-- The notice can be delivered under its id. When its watch is gone it may not have been
staged. -/
structure Offered (s : State) (watch : PrWatchRecord) (notice : PendingPrWatchNotice) : Prop where
  id : ∃ seq head, notice.id = idAt watch.id seq head
  waits : Waits s watch notice
  staged : ⟨watch.id, notice⟩ ∈ s.stagedNotices ∨
    ∀ entry ∈ s.stagedNotices, entry.notice.id ≠ notice.id
  free : ∀ message ∈ s.inbox, message.messageId = notice.id → message.body = notice.body

/-- What is left of a pass over a watch fits its row. -/
inductive Fits (s : State) (watch : PrWatchRecord) : List Write → Prop
  | nil : Fits s watch []
  | setNotFoundCount (count : ℕ) {writes : List Write} (h : Fits s watch writes) :
    Fits s watch (.setNotFoundCount count :: writes)
  | updateCursors (cursors : PrWatchCursors) (h : Idle s watch) :
    Fits s watch [.updateCursors cursors]
  | failed (count : ℕ) (degraded : Bool) (h : Idle s watch) :
    Fits s watch [.recordFetchFailure count degraded none]
  | degraded (count : ℕ) (degraded : Bool) {notice : PendingPrWatchNotice}
    (h : New s watch notice) (hends : notice.endsWatch = false) (recipientArchived : Bool) :
    Fits s watch
      (.recordFetchFailure count degraded (some notice) :: deliverStaged notice recipientArchived)
  | stage (cursors : PrWatchCursors) {notice : PendingPrWatchNotice} (h : New s watch notice)
    (recipientArchived : Bool) :
    Fits s watch (.stage cursors notice :: deliverStaged notice recipientArchived)
  | deliver {notice : PendingPrWatchNotice} (h : Offered s watch notice) :
    Fits s watch (deliverStaged notice false)
  | finish {notice : PendingPrWatchNotice} (h : Waits s watch notice) (recipientArchived : Bool)
    (htold : recipientArchived = false → Told s notice) :
    Fits s watch [.finish notice recipientArchived]
  | delete (h : Idle s watch) : Fits s watch [.delete]

/-- What became of a staged notice. -/
inductive Fate (s : State) (entry : StagedNotice) : Prop
  | told (h : Told s entry.notice)
  | waits {seq : ℕ} (h : outbox s.watches entry.watchId = some (seq, some entry.notice))
  | archived (h : entry.notice.id ∈ s.archivedIds)
  | removed (h : entry.watchId ∈ s.removedIds)

/-- What holds of the rows, the list of the tick, the log and the inbox. -/
structure Core (s : State) : Prop where
  rowIds : ∀ watchId, outbox s.watches watchId ≠ none → watchId < s.nextId
  stagedIds : ∀ entry ∈ s.stagedNotices, entry.watchId < s.nextId ∧
    ∃ seq head, entry.notice.id = idAt entry.watchId seq head
  toldIds : ∀ message ∈ s.inbox, message.watchId < s.nextId ∧
    ∃ seq head, message.messageId = idAt message.watchId seq head
  rows : ∀ watchId seq pending, outbox s.watches watchId = some (seq, pending) →
    Behind s watchId seq ∧ ∀ notice, pending = some notice → ⟨watchId, notice⟩ ∈ s.stagedNotices
  listed : ∀ watch ∈ s.listed, watch.id < s.nextId ∧ Behind s watch.id watch.noticeSeq ∧
    (∀ notice, watch.pendingNotice = some notice → ⟨watch.id, notice⟩ ∈ s.stagedNotices) ∧
    ∀ row, outbox s.watches watch.id = some row → row = (watch.noticeSeq, watch.pendingNotice)
  listedOnce : (s.listed.map (·.id)).Nodup
  distinct : (s.stagedNotices.map (·.notice.id)).Nodup
  same : ∀ message ∈ s.inbox, ∀ entry ∈ s.stagedNotices, message.messageId = entry.notice.id →
    message.body = entry.notice.body
  fate : ∀ entry ∈ s.stagedNotices, Fate s entry

/-- What holds of the pass that runs. -/
def Runs (s : State) : Prop :=
  ∀ watch writes, s.running = some (watch, writes) → watch.id < s.nextId ∧
    (∀ other ∈ s.listed, other.id ≠ watch.id) ∧ Fits s watch writes

/-- What every state that is reached satisfies. -/
structure Inv (s : State) : Prop where
  core : Core s
  runs : Runs s

theorem inv_start : Inv .start := by
  refine ⟨?_, by simp [Runs, State.start]⟩
  constructor <;> simp [State.start, outbox]

/-! ## What sessions do meanwhile -/

theorem Fits.of_rows (h : Fits s watch writes) (hstaged : s'.stagedNotices = s.stagedNotices)
    (hinbox : s'.inbox = s.inbox)
    (hrow : ∀ row, outbox s'.watches watch.id = some row → outbox s.watches watch.id = some row) :
    Fits s' watch writes := by
  have hbehind : ∀ {seq}, Behind s watch.id seq → Behind s' watch.id seq := fun h =>
    ⟨hstaged ▸ h.staged, hinbox ▸ h.told⟩
  have hidle : Idle s watch → Idle s' watch := fun h row hr => h row (hrow row hr)
  have hwaits : ∀ {notice}, Waits s watch notice → Waits s' watch notice := fun h row hr =>
    h row (hrow row hr)
  have hnew : ∀ {notice}, New s watch notice → New s' watch notice := fun h =>
    ⟨h.next, hbehind h.behind, hidle h.idle⟩
  induction h with
  | nil => exact .nil
  | setNotFoundCount count _ ih => exact .setNotFoundCount count ih
  | updateCursors cursors h => exact .updateCursors cursors (hidle h)
  | failed count degraded h => exact .failed count degraded (hidle h)
  | degraded count degraded h hends archived =>
    exact .degraded count degraded (hnew h) hends archived
  | stage cursors h archived => exact .stage cursors (hnew h) archived
  | deliver h => exact .deliver ⟨h.id, hwaits h.waits, hstaged ▸ h.staged, hinbox ▸ h.free⟩
  | finish h archived htold =>
    exact .finish (hwaits h) archived fun ha => by simpa [Told, hinbox] using htold ha
  | delete h => exact .delete (hidle h)

/-- Rows may go that have no notice waiting or were removed, and new ones may come. -/
theorem Core.of_rows (h : Core s) (hstaged : s'.stagedNotices = s.stagedNotices)
    (hinbox : s'.inbox = s.inbox) (harchived : s'.archivedIds = s.archivedIds)
    (hremoved : s.removedIds ⊆ s'.removedIds) (hlisted : s'.listed = s.listed)
    (hid : s.nextId ≤ s'.nextId)
    (hrow : ∀ watchId row, outbox s'.watches watchId = some row →
      outbox s.watches watchId = some row ∨
        (s.nextId ≤ watchId ∧ watchId < s'.nextId ∧ row = (0, none)))
    (hkept : ∀ watchId seq notice, outbox s.watches watchId = some (seq, some notice) →
      outbox s'.watches watchId = some (seq, some notice) ∨ watchId ∈ s'.removedIds) : Core s' := by
  have hbehind : ∀ {watchId seq}, Behind s watchId seq → Behind s' watchId seq := fun h =>
    ⟨hstaged ▸ h.staged, hinbox ▸ h.told⟩
  have hold : ∀ watchId < s.nextId, ∀ row, outbox s'.watches watchId = some row →
      outbox s.watches watchId = some row := by
    intro watchId hlt row hr
    rcases hrow watchId row hr with hsame | ⟨hge, -, -⟩
    · exact hsame
    · omega
  constructor
  case rowIds =>
    intro watchId hne
    obtain ⟨row, hr⟩ := Option.ne_none_iff_exists'.mp hne
    rcases hrow watchId row hr with hsame | ⟨-, hlt, -⟩
    · exact Nat.lt_of_lt_of_le (h.rowIds watchId (by simp [hsame])) hid
    · exact hlt
  case stagedIds =>
    rw [hstaged]
    exact fun entry he => ⟨Nat.lt_of_lt_of_le (h.stagedIds entry he).1 hid, (h.stagedIds entry he).2⟩
  case toldIds =>
    rw [hinbox]
    exact fun message hm => ⟨Nat.lt_of_lt_of_le (h.toldIds message hm).1 hid, (h.toldIds message hm).2⟩
  case rows =>
    intro watchId seq pending hr
    rcases hrow watchId _ hr with hsame | ⟨hge, -, hnew⟩
    · obtain ⟨hb, hp⟩ := h.rows watchId seq pending hsame
      exact ⟨hbehind hb, hstaged ▸ hp⟩
    · obtain ⟨rfl, rfl⟩ := Prod.mk.inj hnew
      refine ⟨⟨?_, ?_⟩, by simp⟩
      · intro entry he heq
        have := (h.stagedIds entry (hstaged ▸ he)).1
        omega
      · intro message hm heq
        have := (h.toldIds message (hinbox ▸ hm)).1
        omega
  case listed =>
    rw [hlisted]
    intro watch hw
    obtain ⟨hlt, hb, hp, hr⟩ := h.listed watch hw
    exact ⟨Nat.lt_of_lt_of_le hlt hid, hbehind hb, hstaged ▸ hp,
      fun row hrow' => hr row (hold watch.id hlt row hrow')⟩
  case listedOnce => exact hlisted ▸ h.listedOnce
  case distinct => exact hstaged ▸ h.distinct
  case same =>
    rw [hinbox, hstaged]
    exact h.same
  case fate =>
    rw [hstaged]
    intro entry he
    cases h.fate entry he with
    | told h => exact .told (by simpa [Told, hinbox] using h)
    | archived h => exact .archived (harchived ▸ h)
    | removed h => exact .removed (hremoved h)
    | waits hwaits =>
      rcases hkept _ _ _ hwaits with h | h
      · exact .waits h
      · exact .removed h

/-- The pass that runs goes on. -/
theorem Runs.of_rows (h : Runs s) (hstaged : s'.stagedNotices = s.stagedNotices)
    (hinbox : s'.inbox = s.inbox) (hlisted : s'.listed = s.listed)
    (hrunning : s'.running = s.running) (hid : s.nextId ≤ s'.nextId)
    (hrow : ∀ watchId row, outbox s'.watches watchId = some row →
      outbox s.watches watchId = some row ∨
        (s.nextId ≤ watchId ∧ watchId < s'.nextId ∧ row = (0, none))) : Runs s' := by
  intro watch writes hr
  obtain ⟨hlt, hother, hfits⟩ := h watch writes (hrunning ▸ hr)
  refine ⟨Nat.lt_of_lt_of_le hlt hid, hlisted ▸ hother, hfits.of_rows hstaged hinbox ?_⟩
  intro row hrow'
  rcases hrow watch.id row hrow' with hsame | ⟨hge, -, -⟩
  · exact hsame
  · omega

/-- A session that watches anew gets a row with a new id. -/
theorem outbox_upsert {sessionId projectId headSha createdAt : String} {prNumber : ℕ}
    {cleanupOnMerge : Bool} {watchId : ℕ} {row : ℕ × Option PendingPrWatchNotice}
    (h : outbox (upsertPrWatch watches id sessionId projectId prNumber cleanupOnMerge headSha
      createdAt) watchId = some row) :
    outbox watches watchId = some row ∨ watchId = id ∧ row = (0, none) := by
  rw [upsertPrWatch] at h
  split at h
  · rw [outbox, Table.find?_update, Option.map_map] at h
    refine .inl ?_
    rw [outbox, ← h]
    congr 1
    funext watch
    rw [Function.comp_apply]
    split <;> rfl
  · rw [outbox, Option.map_eq_some_iff] at h
    obtain ⟨watch, hfind, rfl⟩ := h
    cases hfree : watches.find?
        (newWatch id sessionId projectId prNumber cleanupOnMerge headSha createdAt).id with
    | some taken =>
      rw [Table.insertOrIgnore_of_taken hfree] at hfind
      exact .inl (by simp [outbox, hfind])
    | none =>
      rw [Table.insertOrIgnore_of_free hfree, Table.find?_push] at hfind
      split at hfind
      · rename_i heq
        obtain rfl := Option.some.inj hfind
        exact .inr ⟨heq.symm, rfl⟩
      · exact .inl (by simp [outbox, hfind])

/-- The rows that are there keep their outboxes. -/
theorem outbox_upsert_of_some {sessionId projectId headSha createdAt : String} {prNumber : ℕ}
    {cleanupOnMerge : Bool} {watchId : ℕ} {row : ℕ × Option PendingPrWatchNotice}
    (h : outbox watches watchId = some row) :
    outbox (upsertPrWatch watches id sessionId projectId prNumber cleanupOnMerge headSha
      createdAt) watchId = some row := by
  obtain ⟨watch, hfind, rfl⟩ := Option.map_eq_some_iff.mp h
  rw [upsertPrWatch]
  split
  · rw [outbox, Table.find?_update, hfind]
    simp only [Option.map_some]
    split <;> rfl
  · have hmem := Table.mem_insertOrIgnore_of_mem (Table.mem_of_find? hfind)
      (r := newWatch id sessionId projectId prNumber cleanupOnMerge headSha createdAt)
    rw [← Table.key_of_find? hfind, outbox_of_mem hmem]

/-! ## What a pass reads -/

section Looks

variable {View Feedback : Type} {planner : Planner View Feedback}

theorem noticeId_eq (watch : PrWatchRecord) (headSha : String) :
    ∃ head, noticeId watch headSha = idAt watch.id (watch.noticeSeq + 1) head :=
  ⟨headSha.toList.take 7, rfl⟩

variable {s : State} {watch : PrWatchRecord}

section

variable (hbehind : Behind s watch.id watch.noticeSeq)
include hbehind

theorem fits_fetchFailure (hidle : Idle s watch)
    (pr : WatchedPrState) (archived : Bool) (what error : String) :
    Fits s watch (fetchFailure watch pr archived what error) := by
  rw [fetchFailure]
  split
  · exact .degraded _ _ ⟨noticeId_eq watch _, hbehind, hidle⟩ rfl archived
  · exact .failed _ _ hidle

theorem fits_planned (hidle : Idle s watch)
    (pr : WatchedPrState) (archived : Bool) (pass : WatchPass) :
    Fits s watch (planned watch pr archived pass) := by
  rw [planned]
  split
  · split
    · exact .updateCursors _ hidle
    · exact .nil
  · split
    · split
      · exact .delete hidle
      · exact .nil
    · exact .stage _ ⟨noticeId_eq watch _, hbehind, hidle⟩ false

theorem fits_viewed (hidle : Idle s watch)
    (pr : WatchedPrState) (reads : Reads View Feedback) :
    Fits s watch (viewed planner watch pr reads) := by
  have hfinished : ∀ (terminal : Option Terminal) (feedback : Option Feedback) (pass : WatchPass),
      Fits s watch (if watch.cursors.fetchFailureCount > 0 ∧ terminal.isNone ∧ feedback.isNone then []
        else planned watch pr reads.recipientArchived pass) := by
    intro terminal feedback pass
    split
    · exact .nil
    · exact fits_planned hbehind hidle pr _ pass
  rw [viewed]
  split
  · exact fits_fetchFailure hbehind hidle pr _ _ _
  · split
    · exact .nil
    · dsimp only
      split
      · split
        · exact fits_fetchFailure hbehind hidle pr _ _ _
        · exact hfinished _ _ _
      · exact hfinished _ _ _

/-- **What a pass will write fits the row it was listed with.** -/
theorem fits_passWrites
    (hpending : ∀ notice, watch.pendingNotice = some notice → ⟨watch.id, notice⟩ ∈ s.stagedNotices)
    (hrow : ∀ row, outbox s.watches watch.id = some row →
      row = (watch.noticeSeq, watch.pendingNotice))
    (hids : ∀ entry ∈ s.stagedNotices, ∃ seq head, entry.notice.id = idAt entry.watchId seq head)
    (hsame : ∀ message ∈ s.inbox, ∀ entry ∈ s.stagedNotices,
      message.messageId = entry.notice.id → message.body = entry.notice.body)
    (reads : Reads View Feedback) : Fits s watch (passWrites planner watch reads) := by
  rw [passWrites]
  cases hnotice : watch.pendingNotice with
  | some notice =>
    have hmem := hpending notice hnotice
    have hwaits : Waits s watch notice := fun row hr => by rw [hrow row hr, hnotice]
    cases harchived : reads.recipientArchived with
    | true => exact .finish hwaits true (by simp)
    | false => exact .deliver ⟨hids _ hmem, hwaits, .inl hmem, fun m hm => hsame m hm _ hmem⟩
  | none =>
    have hidle : Idle s watch := fun row hr => by rw [hrow row hr, hnotice]
    dsimp only
    split
    · exact .nil
    · split
      · split
        · exact .nil
        · split
          · exact .setNotFoundCount _ .nil
          · exact .stage _ ⟨noticeId_eq watch "", hbehind, hidle⟩ _
      · rename_i pr _ _
        have hrest : Fits s watch (if pr.refreshError.isSome ∨ pr.headSha = "" ∨
            pr.refreshedAt < reads.tickStartedAt then [] else viewed planner watch pr reads) := by
          split
          · exact .nil
          · exact fits_viewed hbehind hidle pr reads
        split
        · exact .setNotFoundCount 0 hrest
        · exact hrest

end

end Looks

/-! ## What a pass writes -/

theorem Core.of_listed (h : Core s) (hwatches : s'.watches = s.watches) (hid : s'.nextId = s.nextId)
    (hinbox : s'.inbox = s.inbox) (hstaged : s'.stagedNotices = s.stagedNotices)
    (harchived : s'.archivedIds = s.archivedIds) (hremoved : s'.removedIds = s.removedIds)
    (hlisted : s'.listed.Sublist s.listed) : Core s' := by
  have hrest : Core { s' with listed := s.listed } :=
    h.of_rows hstaged hinbox harchived (by simp [hremoved]) rfl (Nat.le_of_eq hid.symm)
      (fun _ _ hr => .inl (by simpa [hwatches] using hr)) (fun _ _ _ hr => .inl (by simpa [hwatches] using hr))
  exact
    { rowIds := hrest.rowIds
      stagedIds := hrest.stagedIds
      toldIds := hrest.toldIds
      rows := fun watchId seq pending hr =>
        ⟨⟨(hrest.rows watchId seq pending hr).1.staged, (hrest.rows watchId seq pending hr).1.told⟩,
          (hrest.rows watchId seq pending hr).2⟩
      listed := fun watch hw =>
        have ⟨hlt, hb, hp, hr⟩ := hrest.listed watch (hlisted.subset hw)
        ⟨hlt, ⟨hb.staged, hb.told⟩, hp, hr⟩
      listedOnce := h.listedOnce.sublist (hlisted.map _)
      distinct := hrest.distinct
      same := hrest.same
      fate := fun entry he => by
        cases hrest.fate entry he with
        | told h => exact .told h
        | archived h => exact .archived h
        | removed h => exact .removed h
        | waits h => exact .waits h }

/-- A write that stages a notice, or finds its row gone. -/
theorem core_stage (s' : State) {notice : PendingPrWatchNotice} (h : Core s)
    (hlt : watch.id < s.nextId) (hother : ∀ other ∈ s.listed, other.id ≠ watch.id)
    (hnew : New s watch notice)
    (hrow : ∀ other, outbox s'.watches other = if other = watch.id then
      (outbox s.watches watch.id).map fun row => (row.1 + 1, some notice)
      else outbox s.watches other) (hlog : s'.stagedNotices = logStaged s watch.id notice)
    (hinbox : s'.inbox = s.inbox) (harchived : s'.archivedIds = s.archivedIds)
    (hremoved : s'.removedIds = s.removedIds) (hlisted : s'.listed = s.listed)
    (hid : s'.nextId = s.nextId) : Core s' ∧ Offered s' watch notice := by
  obtain ⟨head, hhead⟩ := hnew.next
  have hfresh : ∀ entry ∈ s.stagedNotices, entry.notice.id ≠ notice.id := fun entry he =>
    hhead ▸ next_ne (h.stagedIds entry he).2 (hnew.behind.staged entry he)
  have huntold : ∀ message ∈ s.inbox, message.messageId ≠ notice.id := fun message hm =>
    hhead ▸ next_ne (h.toldIds message hm).2 (hnew.behind.told message hm)
  have hfree : ∀ message ∈ s'.inbox, message.messageId = notice.id → message.body = notice.body :=
    fun message hm heq => absurd heq (huntold message (hinbox ▸ hm))
  have hkeeps : ∀ other, other ≠ watch.id → outbox s'.watches other = outbox s.watches other :=
    fun other hne => by rw [hrow, if_neg hne]
  cases hbox : outbox s.watches watch.id with
  | none =>
    have hgone : hasRow s watch.id = false := by
      simpa [hasRow, outbox] using hbox
    have hstaged : s'.stagedNotices = s.stagedNotices := by simp [hlog, logStaged, hgone]
    have hsame : ∀ other, outbox s'.watches other = outbox s.watches other := by
      intro other
      by_cases hne : other = watch.id
      · rw [hrow, if_pos hne, hne, hbox, Option.map_none]
      · exact hkeeps other hne
    refine ⟨h.of_rows hstaged hinbox harchived (by simp [hremoved]) hlisted (Nat.le_of_eq hid.symm)
      (fun _ _ hr => .inl (hsame _ ▸ hr)) (fun _ _ _ hr => .inl ((hsame _).trans hr)), ?_⟩
    refine ⟨⟨_, head, hhead⟩, fun row hr => ?_, .inr (hstaged ▸ hfresh), hfree⟩
    simp [hsame, hbox] at hr
  | some row =>
    have hidle := hnew.idle row hbox
    have hthere : hasRow s watch.id = true := by
      cases hfind : s.watches.find? watch.id with
      | none => simp [outbox, hfind] at hbox
      | some watch => simp [hasRow, hfind]
    have hstaged : s'.stagedNotices = ⟨watch.id, notice⟩ :: s.stagedNotices := by
      simp [hlog, logStaged, hthere]
    have hmine : outbox s'.watches watch.id = some (watch.noticeSeq + 1, some notice) := by
      rw [hrow, if_pos rfl, hbox, hidle, Option.map_some]
    have hmem : (⟨watch.id, notice⟩ : StagedNotice) ∈ s'.stagedNotices := by simp [hstaged]
    have hbehind : ∀ {watchId seq}, watchId ≠ watch.id → Behind s watchId seq →
        Behind s' watchId seq := by
      intro watchId seq hne hb
      refine ⟨fun entry he heq => ?_, hinbox ▸ hb.told⟩
      rw [hstaged, List.mem_cons] at he
      rcases he with rfl | he
      · exact absurd heq.symm hne
      · exact hb.staged entry he heq
    refine ⟨?_, ⟨_, head, hhead⟩, fun row hr => ?_, .inl hmem, hfree⟩
    · constructor
      case rowIds =>
        intro watchId hne
        rw [hid]
        by_cases heq : watchId = watch.id
        · exact heq ▸ hlt
        · exact h.rowIds watchId (hkeeps watchId heq ▸ hne)
      case stagedIds =>
        rw [hid, hstaged, List.forall_mem_cons]
        exact ⟨⟨hlt, _, head, hhead⟩, h.stagedIds⟩
      case toldIds => rw [hid, hinbox]; exact h.toldIds
      case rows =>
        intro watchId seq pending hr
        by_cases heq : watchId = watch.id
        · subst heq
          obtain ⟨rfl, rfl⟩ := Prod.mk.inj (Option.some.inj (hmine.symm.trans hr))
          refine ⟨⟨?_, ?_⟩, by simpa using hmem⟩
          · rw [hstaged, List.forall_mem_cons]
            exact ⟨fun _ => ⟨_, Nat.le_refl _, head, hhead⟩,
              fun entry he heq => (hnew.behind.staged entry he heq).mono (Nat.le_succ _)⟩
          · rw [hinbox]
            exact fun message hm heq => (hnew.behind.told message hm heq).mono (Nat.le_succ _)
        · obtain ⟨hb, hp⟩ := h.rows watchId seq pending (hkeeps watchId heq ▸ hr)
          exact ⟨hbehind heq hb, fun notice hn => by simp [hstaged, hp notice hn]⟩
      case listed =>
        rw [hlisted]
        intro other ho
        obtain ⟨hlt, hb, hp, hr⟩ := h.listed other ho
        have hne := hother other ho
        exact ⟨hid ▸ hlt, hbehind hne hb, fun notice hn => by simp [hstaged, hp notice hn],
          hkeeps _ hne ▸ hr⟩
      case listedOnce => exact hlisted ▸ h.listedOnce
      case distinct =>
        rw [hstaged, List.map_cons, List.nodup_cons]
        exact ⟨by simpa using hfresh, h.distinct⟩
      case same =>
        intro message hm entry he heq
        rw [hstaged, List.mem_cons] at he
        rcases he with rfl | he
        · exact hfree message hm heq
        · exact h.same message (hinbox ▸ hm) entry he heq
      case fate =>
        rw [hstaged, List.forall_mem_cons]
        refine ⟨.waits hmine, fun entry he => ?_⟩
        cases h.fate entry he with
        | told h => exact .told (by simpa [Told, hinbox] using h)
        | archived h => exact .archived (harchived ▸ h)
        | removed h => exact .removed (hremoved ▸ h)
        | waits h =>
          by_cases heq : entry.watchId = watch.id
          · simp [heq, hbox, hidle] at h
          · exact .waits ((hkeeps _ heq).trans h)
    · exact Option.some.inj (hmine.symm.trans hr) ▸ rfl

/-- A delivery puts the notice into the inbox, or finds it there. -/
theorem core_deliver (s' : State) {notice : PendingPrWatchNotice} (h : Core s)
    (hlt : watch.id < s.nextId) (hother : ∀ other ∈ s.listed, other.id ≠ watch.id)
    (hoffered : Offered s watch notice) (hwatches : s'.watches = s.watches)
    (hinbox : s'.inbox = s.inbox.insertOrIgnore
      ⟨watch.id, watch.sessionId, watch.prNumber, notice.id, notice.body⟩)
    (hstaged : s'.stagedNotices = s.stagedNotices) (harchived : s'.archivedIds = s.archivedIds)
    (hremoved : s'.removedIds = s.removedIds) (hlisted : s'.listed = s.listed)
    (hid : s'.nextId = s.nextId) : Core s' ∧ Told s' notice := by
  have hmem : ∀ message ∈ s'.inbox, message ∈ s.inbox ∨ message =
      ⟨watch.id, watch.sessionId, watch.prNumber, notice.id, notice.body⟩ := by
    rw [hinbox]
    exact fun message => Table.mem_of_mem_insertOrIgnore
  have htold : Told s' notice := by
    obtain ⟨message, hm, heq⟩ := Table.exists_mem_insertOrIgnore (t := s.inbox)
      ⟨watch.id, watch.sessionId, watch.prNumber, notice.id, notice.body⟩
    rw [← hinbox] at hm
    refine ⟨message, hm, heq, ?_⟩
    rcases hmem message hm with hm | rfl
    · exact hoffered.free message hm heq
    · rfl
  have hbehind : ∀ {watchId seq}, (watchId = watch.id → Numbered watchId seq notice.id) →
      Behind s watchId seq → Behind s' watchId seq := by
    intro watchId seq hown hb
    refine ⟨hstaged ▸ hb.staged, fun message hm heq => ?_⟩
    rcases hmem message hm with hm | rfl
    · exact hb.told message hm heq
    · exact hown heq.symm
  have hbox : ∀ watchId, outbox s'.watches watchId = outbox s.watches watchId := by simp [hwatches]
  refine ⟨?_, htold⟩
  constructor
  case rowIds => rw [hid, hwatches]; exact h.rowIds
  case stagedIds => rw [hid, hstaged]; exact h.stagedIds
  case toldIds =>
    rw [hid]
    intro message hm
    rcases hmem message hm with hm | rfl
    · exact h.toldIds message hm
    · exact ⟨hlt, hoffered.id⟩
  case rows =>
    intro watchId seq pending hr
    obtain ⟨hb, hp⟩ := h.rows watchId seq pending (hbox watchId ▸ hr)
    refine ⟨hbehind ?_ hb, hstaged ▸ hp⟩
    -- The row has this notice waiting, so its id is one that the row gave out.
    rintro rfl
    have hpending : pending = some notice := hoffered.waits _ (hbox _ ▸ hr)
    exact hb.staged _ (hp notice hpending) rfl
  case listed =>
    rw [hlisted]
    intro other ho
    obtain ⟨hlt, hb, hp, hr⟩ := h.listed other ho
    exact ⟨hid ▸ hlt, hbehind (fun heq => absurd heq (hother other ho)) hb, hstaged ▸ hp,
      hbox _ ▸ hr⟩
  case listedOnce => exact hlisted ▸ h.listedOnce
  case distinct => exact hstaged ▸ h.distinct
  case same =>
    rw [hstaged]
    intro message hm entry he heq
    rcases hmem message hm with hm | rfl
    · exact h.same message hm entry he heq
    · rcases hoffered.staged with hin | hnone
      · have := List.inj_on_of_nodup_map h.distinct hin he heq
        simp [← this]
      · exact absurd heq.symm (hnone entry he)
  case fate =>
    rw [hstaged]
    intro entry he
    cases h.fate entry he with
    | told h =>
      obtain ⟨message, hm, heq⟩ := h
      exact .told ⟨message, hinbox ▸ Table.mem_insertOrIgnore_of_mem hm, heq⟩
    | archived h => exact .archived (harchived ▸ h)
    | removed h => exact .removed (hremoved ▸ h)
    | waits h => exact .waits ((hbox _).trans h)

/-- The end of a delivery clears the notice, or ends the watch. -/
theorem core_finish {notice : PendingPrWatchNotice} (h : Core s)
    (hother : ∀ other ∈ s.listed, other.id ≠ watch.id) (hwaits : Waits s watch notice)
    (hconfirmed : Told s notice ∨ notice.id ∈ s'.archivedIds)
    (hrow : ∀ other, outbox s'.watches other = if other = watch.id then
      (if notice.endsWatch then none else
        (outbox s.watches watch.id).map fun row => (row.1, none))
      else outbox s.watches other) (hinbox : s'.inbox = s.inbox)
    (hstaged : s'.stagedNotices = s.stagedNotices) (harchived : s.archivedIds ⊆ s'.archivedIds)
    (hremoved : s'.removedIds = s.removedIds) (hlisted : s'.listed = s.listed)
    (hid : s'.nextId = s.nextId) : Core s' := by
  have hkeeps : ∀ other, other ≠ watch.id → outbox s'.watches other = outbox s.watches other :=
    fun other hne => by rw [hrow, if_neg hne]
  have hmine : ∀ row, outbox s'.watches watch.id = some row →
      row.2 = none ∧ ∃ pending, outbox s.watches watch.id = some (row.1, pending) := by
    intro row hr
    rw [hrow, if_pos rfl] at hr
    split at hr
    · simp at hr
    · obtain ⟨⟨seq, pending⟩, hold, rfl⟩ := Option.map_eq_some_iff.mp hr
      exact ⟨rfl, pending, hold⟩
  have hbehind : ∀ {watchId seq}, Behind s watchId seq → Behind s' watchId seq := fun h =>
    ⟨hstaged ▸ h.staged, hinbox ▸ h.told⟩
  constructor
  case rowIds =>
    rw [hid]
    intro watchId hne
    by_cases heq : watchId = watch.id
    · obtain ⟨row, hr⟩ := Option.ne_none_iff_exists'.mp (heq ▸ hne)
      obtain ⟨-, pending, hold⟩ := hmine row hr
      exact heq ▸ h.rowIds watch.id (by simp [hold])
    · exact h.rowIds watchId (hkeeps watchId heq ▸ hne)
  case stagedIds => rw [hid, hstaged]; exact h.stagedIds
  case toldIds => rw [hid, hinbox]; exact h.toldIds
  case rows =>
    intro watchId seq pending hr
    by_cases heq : watchId = watch.id
    · subst heq
      obtain ⟨hnone, pending', hold⟩ := hmine _ hr
      exact ⟨hbehind (h.rows _ _ _ hold).1, fun notice hn => by simp_all⟩
    · obtain ⟨hb, hp⟩ := h.rows watchId seq pending (hkeeps watchId heq ▸ hr)
      exact ⟨hbehind hb, hstaged ▸ hp⟩
  case listed =>
    rw [hlisted]
    intro other ho
    obtain ⟨hlt, hb, hp, hr⟩ := h.listed other ho
    exact ⟨hid ▸ hlt, hbehind hb, hstaged ▸ hp, hkeeps _ (hother other ho) ▸ hr⟩
  case listedOnce => exact hlisted ▸ h.listedOnce
  case distinct => exact hstaged ▸ h.distinct
  case same =>
    rw [hinbox, hstaged]
    exact h.same
  case fate =>
    rw [hstaged]
    intro entry he
    cases h.fate entry he with
    | told h => exact .told (by simpa [Told, hinbox] using h)
    | archived h => exact .archived (harchived h)
    | removed h => exact .removed (hremoved ▸ h)
    | waits hw =>
      by_cases heq : entry.watchId = watch.id
      · have hentry : entry.notice = notice :=
          Option.some.inj (hwaits _ (heq ▸ hw))
        rcases hconfirmed with htold | harch
        · exact .told (by simpa [Told, hinbox, hentry] using htold)
        · exact .archived (hentry ▸ harch)
      · exact .waits ((hkeeps _ heq).trans hw)

/-- A write that leaves the outboxes of all rows as they are. -/
theorem Core.of_same (h : Core s)
    (hrow : ∀ watchId, outbox s'.watches watchId = outbox s.watches watchId)
    (hinbox : s'.inbox = s.inbox) (hstaged : s'.stagedNotices = s.stagedNotices)
    (harchived : s'.archivedIds = s.archivedIds) (hremoved : s'.removedIds = s.removedIds)
    (hlisted : s'.listed = s.listed) (hid : s'.nextId = s.nextId) : Core s' :=
  h.of_rows hstaged hinbox harchived (by simp [hremoved]) hlisted (Nat.le_of_eq hid.symm)
    (fun _ _ hr => .inl ((hrow _).symm.trans hr)) fun _ _ _ hr => .inl ((hrow _).trans hr)

/-- An idle row that stays idle. -/
theorem Idle.map_none (h : Idle s watch) :
    ((outbox s.watches watch.id).map fun row => (row.1, (none : Option PendingPrWatchNotice))) =
      outbox s.watches watch.id := by
  cases hbox : outbox s.watches watch.id with
  | none => rfl
  | some row => simp [h row hbox]

/-- **The next write of a pass.** -/
theorem core_perform (h : Core s) (hlt : watch.id < s.nextId)
    (hother : ∀ other ∈ s.listed, other.id ≠ watch.id) (hfits : Fits s watch (write :: writes)) :
    Core (perform s watch write) ∧ Fits (perform s watch write) watch writes := by
  have hdelivers : ∀ {s' : State} {notice : PendingPrWatchNotice} (archived : Bool),
      Offered s' watch notice → Fits s' watch (deliverStaged notice archived) := by
    intro s' notice archived ho
    cases archived with
    | true => exact .finish ho.waits true (by simp)
    | false => exact .deliver ho
  cases hfits with
  | setNotFoundCount count hrest =>
    have hsame : ∀ other, outbox (perform s watch (.setNotFoundCount count)).watches other =
        outbox s.watches other := by
      intro other
      rw [outbox_perform]
      by_cases heq : other = watch.id <;> simp [heq, Write.after]
    exact ⟨h.of_same hsame rfl rfl rfl rfl rfl rfl,
      hrest.of_rows rfl rfl fun row hr => (hsame _).symm.trans hr⟩
  | updateCursors cursors hidle =>
    refine ⟨h.of_same (fun other => ?_) rfl rfl rfl rfl rfl rfl, .nil⟩
    rw [outbox_perform]
    by_cases heq : other = watch.id <;> simp [heq, Write.after]
  | failed count degraded hidle =>
    refine ⟨h.of_same (fun other => ?_) rfl rfl rfl rfl rfl rfl, .nil⟩
    rw [outbox_perform]
    by_cases heq : other = watch.id <;> simp [heq, Write.after, hidle.map_none]
  | degraded count degraded hnew hends archived =>
    rename_i notice
    have hnotice : { notice with endsWatch := false } = notice := by
      rw [← hends]
    obtain ⟨hcore, hoffered⟩ := core_stage (perform s watch
        (.recordFetchFailure count degraded (some notice))) h hlt hother hnew
      (fun other => by rw [outbox_perform, Write.after, hnotice]) rfl rfl rfl rfl rfl rfl
    exact ⟨hcore, hdelivers archived hoffered⟩
  | stage cursors hnew archived =>
    rename_i notice
    obtain ⟨hcore, hoffered⟩ := core_stage (perform s watch (.stage cursors notice)) h hlt
      hother hnew (fun other => by rw [outbox_perform, Write.after]) rfl rfl rfl rfl rfl rfl
    exact ⟨hcore, hdelivers archived hoffered⟩
  | deliver hoffered =>
    rename_i notice
    obtain ⟨hcore, htold⟩ := core_deliver (perform s watch (.deliver notice)) h hlt hother
      hoffered rfl rfl rfl rfl rfl rfl rfl
    have hwaits : Waits (perform s watch (.deliver notice)) watch notice := hoffered.waits
    exact ⟨hcore, .finish hwaits false fun _ => htold⟩
  | finish hwaits archived htold =>
    refine ⟨core_finish h hother hwaits ?_ (fun other => ?_) rfl rfl ?_ rfl rfl rfl, .nil⟩
    · cases archived with
      | true => exact .inr (by simp [perform])
      | false => exact .inl (htold rfl)
    · rw [outbox_perform, Write.after]
    · cases archived <;> simp [perform]
  | delete hidle =>
    refine ⟨h.of_rows rfl rfl rfl (by simp [perform]) rfl (Nat.le_refl _) ?_ ?_, .nil⟩
    · intro watchId row hr
      rw [outbox_perform] at hr
      split at hr
      · simp [Write.after] at hr
      · exact .inl hr
    · intro watchId seq notice hr
      refine .inl ?_
      rw [outbox_perform]
      split
      · rename_i heq
        have hrow := hidle _ (heq ▸ hr)
        simp at hrow
      · exact hr

/-! ## Steps -/

section Steps

variable {View Feedback : Type} (planner : Planner View Feedback)

theorem runs_none (h : s.running = none) : Runs s := by
  intro watch writes hr
  simp [h] at hr

theorem inv_upsert (h : Inv s) (sessionId projectId : String) (prNumber : ℕ) (cleanupOnMerge : Bool)
    (headSha createdAt : String) :
    Inv (step planner s
      (.upsert sessionId projectId prNumber cleanupOnMerge headSha createdAt)) := by
  have hrow : ∀ watchId row, outbox (upsertPrWatch s.watches s.nextId sessionId projectId prNumber
      cleanupOnMerge headSha createdAt) watchId = some row → outbox s.watches watchId = some row ∨
        (s.nextId ≤ watchId ∧ watchId < s.nextId + 1 ∧ row = (0, none)) := by
    intro watchId row hr
    rcases outbox_upsert hr with hold | ⟨rfl, rfl⟩
    · exact .inl hold
    · exact .inr ⟨Nat.le_refl _, Nat.lt_succ_self _, rfl⟩
  exact ⟨h.core.of_rows rfl rfl rfl (by simp [step]) rfl (Nat.le_succ _) hrow
      fun _ _ _ hr => .inl (outbox_upsert_of_some hr),
    h.runs.of_rows rfl rfl rfl rfl (Nat.le_succ _) hrow⟩

theorem inv_remove (h : Inv s) (watchId : ℕ) : Inv (step planner s (.remove watchId)) := by
  have hrow : ∀ other row, outbox (deletePrWatchById s.watches watchId) other = some row →
      outbox s.watches other = some row ∨
        (s.nextId ≤ other ∧ other < s.nextId ∧ row = (0, none)) := by
    intro other row hr
    rw [outbox_deletePrWatchById] at hr
    split at hr
    · simp at hr
    · exact .inl hr
  refine ⟨h.core.of_rows rfl rfl rfl (by simp [step]) rfl (Nat.le_refl _) hrow ?_,
    h.runs.of_rows rfl rfl rfl rfl (Nat.le_refl _) hrow⟩
  intro other seq notice hr
  rw [step, outbox_deletePrWatchById]
  by_cases heq : other = watchId
  · exact .inr (by simp [heq])
  · exact .inl (by rw [if_neg heq, hr])

/-- A tick lists the rows as they are. -/
theorem inv_list (h : Inv s) : Inv (step planner s .list) := by
  rw [step]
  split
  · rename_i hidle
    have hnone : s.running = none := Option.isNone_iff_eq_none.mp hidle.1
    refine ⟨?_, runs_none hnone⟩
    have hcore := h.core
    exact
      { rowIds := hcore.rowIds
        stagedIds := hcore.stagedIds
        toldIds := hcore.toldIds
        rows := fun watchId seq pending hr =>
          have ⟨hb, hp⟩ := hcore.rows watchId seq pending hr
          ⟨⟨hb.staged, hb.told⟩, hp⟩
        listed := fun watch hw =>
          have hbox : outbox s.watches watch.id = _ := outbox_of_mem hw
          have ⟨hb, hp⟩ := hcore.rows _ _ _ hbox
          ⟨hcore.rowIds watch.id (by simp [hbox]), ⟨hb.staged, hb.told⟩, hp,
            fun row hr => Option.some.inj (hr.symm.trans hbox)⟩
        listedOnce := s.watches.unique
        distinct := hcore.distinct
        same := hcore.same
        fate := fun entry he => by
          cases hcore.fate entry he with
          | told h => exact .told h
          | archived h => exact .archived h
          | removed h => exact .removed h
          | waits h => exact .waits h }
  · exact h

/-- A pass starts with the row as it was listed. -/
theorem inv_look (h : Inv s) (reads : Reads View Feedback) :
    Inv (step planner s (.look reads)) := by
  rw [step]
  split
  · rename_i watch listed hnone hlisted
    obtain ⟨hlt, hb, hp, hr⟩ := h.core.listed watch (by simp [hlisted])
    have honce := h.core.listedOnce
    rw [hlisted, List.map_cons, List.nodup_cons] at honce
    refine ⟨h.core.of_listed rfl rfl rfl rfl rfl rfl (by simp [hlisted]), ?_⟩
    intro watch' writes heq
    obtain ⟨rfl, rfl⟩ := Prod.mk.inj (Option.some.inj heq)
    refine ⟨hlt, fun other ho heq => honce.1 (heq ▸ List.mem_map_of_mem ho), ?_⟩
    exact (fits_passWrites hb hp hr (fun entry he => (h.core.stagedIds entry he).2) h.core.same
      reads).of_rows rfl rfl fun row hr => hr
  · exact h

theorem inv_write (h : Inv s) : Inv (step planner s .write) := by
  rw [step]
  split
  · rename_i watch write writes hrunning
    obtain ⟨hlt, hother, hfits⟩ := h.runs watch (write :: writes) hrunning
    obtain ⟨hcore, hrest⟩ := core_perform h.core hlt hother hfits
    have hid : (perform s watch write).nextId = s.nextId := by cases write <;> rfl
    have hlisted : (perform s watch write).listed = s.listed := by cases write <;> rfl
    refine ⟨hcore.of_same (fun _ => rfl) rfl rfl rfl rfl rfl rfl, ?_⟩
    intro watch' writes' heq
    split at heq
    · simp at heq
    · obtain ⟨rfl, rfl⟩ := Prod.mk.inj (Option.some.inj heq)
      exact ⟨hid ▸ hlt, hlisted ▸ hother, hrest.of_rows rfl rfl fun row hr => hr⟩
  · exact ⟨h.core.of_same (fun _ => rfl) rfl rfl rfl rfl rfl rfl, runs_none rfl⟩
  · exact h

theorem inv_step (act : Act View Feedback) (h : Inv s) : Inv (step planner s act) := by
  cases act with
  | upsert => exact inv_upsert planner h _ _ _ _ _ _
  | remove watchId => exact inv_remove planner h watchId
  | list => exact inv_list planner h
  | look reads => exact inv_look planner h reads
  | skip =>
    rw [step]
    split
    · rename_i hnone
      exact ⟨h.core.of_listed rfl rfl rfl rfl rfl rfl (List.tail_sublist _),
        runs_none (Option.isNone_iff_eq_none.mp hnone)⟩
    · exact h
  | write => exact inv_write planner h
  | fail => exact ⟨h.core.of_same (fun _ => rfl) rfl rfl rfl rfl rfl rfl, runs_none rfl⟩
  | restart => exact ⟨h.core.of_listed rfl rfl rfl rfl rfl rfl (List.nil_sublist _), runs_none rfl⟩

/-- What a pass has yet to write is the rest of what it read. -/
def Passes (s : State) : Prop :=
  ∀ watch writes, s.running = some (watch, writes) →
    ∃ reads : Reads View Feedback, writes <:+ passWrites planner watch reads

theorem passes_step (act : Act View Feedback) (h : Passes planner s) :
    Passes planner (step planner s act) := by
  have hnone : ∀ {s' : State}, s'.running = none → Passes planner s' := by
    intro s' hr watch writes heq
    simp [hr] at heq
  cases act with
  | upsert => exact h
  | remove watchId => exact h
  | list =>
    rw [step]
    split <;> exact h
  | look reads =>
    rw [step]
    split
    · intro watch writes heq
      obtain ⟨rfl, rfl⟩ := Prod.mk.inj (Option.some.inj heq)
      exact ⟨reads, List.suffix_refl _⟩
    · exact h
  | skip =>
    rw [step]
    split <;> exact h
  | write =>
    rw [step]
    split
    · rename_i watch write writes hrunning
      intro watch' writes' heq
      split at heq
      · simp at heq
      · obtain ⟨rfl, rfl⟩ := Prod.mk.inj (Option.some.inj heq)
        obtain ⟨reads, hsuffix⟩ := h watch (write :: writes) hrunning
        exact ⟨reads, (List.suffix_cons write writes).trans hsuffix⟩
    · exact hnone rfl
    · exact h
  | fail => exact hnone rfl
  | restart => exact hnone rfl

end Steps

/-! ## Cursors -/

/-- The notice that a write stages, delivers or clears. -/
def Write.notice : Write → Option PendingPrWatchNotice
  | .recordFetchFailure _ _ notice => notice
  | .stage _ notice | .deliver notice | .finish notice _ => some notice
  | .setNotFoundCount _ | .updateCursors _ | .delete => none

/-- The write moves cursors and stages nothing. -/
inductive Write.Moves : Write → Prop
  | updateCursors (cursors : PrWatchCursors) : Moves (.updateCursors cursors)
  | failed (count : ℕ) (degraded : Bool) : Moves (.recordFetchFailure count degraded none)

theorem not_moves_deliverStaged (notice : PendingPrWatchNotice) (archived : Bool) :
    ∀ write ∈ deliverStaged notice archived, ¬ write.Moves := by
  intro write hw hm
  cases archived <;> cases hm <;> simp [deliverStaged] at hw

/-- A pass that moves cursors without a notice has no notice at all. -/
theorem Fits.quiet (h : Fits s watch writes) (hw : write ∈ writes) (hm : write.Moves) :
    ∀ other ∈ writes, other.notice = none := by
  induction h with
  | nil => simp at hw
  | setNotFoundCount count _ ih =>
    rcases List.mem_cons.mp hw with rfl | hw
    · nomatch hm
    · exact List.forall_mem_cons.mpr ⟨rfl, ih hw⟩
  | updateCursors | failed | delete => simp [Write.notice]
  | degraded | stage =>
    rcases List.mem_cons.mp hw with rfl | hw
    · nomatch hm
    · exact absurd hm (not_moves_deliverStaged _ _ write hw)
  | deliver => exact absurd hm (not_moves_deliverStaged _ _ write hw)
  | finish =>
    rw [List.mem_singleton.mp hw] at hm
    nomatch hm

theorem quiet_passWrites {View Feedback : Type} {planner : Planner View Feedback}
    {reads : Reads View Feedback} (hw : write ∈ passWrites planner watch reads) (hm : write.Moves) :
    ∀ other ∈ passWrites planner watch reads, other.notice = none := by
  cases hpending : watch.pendingNotice with
  | some notice =>
    rw [passWrites, hpending] at hw
    exact absurd hm (not_moves_deliverStaged _ _ write hw)
  | none =>
    -- What a pass writes does not depend on the state, so it can be read in the first.
    refine (@fits_passWrites _ _ planner State.start watch ?_ ?_ ?_ ?_ ?_ reads).quiet hw hm
    · exact ⟨by simp [State.start], by simp [State.start]⟩
    · simp [hpending]
    · simp [State.start, outbox]
    · simp [State.start]
    · simp [State.start]

theorem eq_of_mem_updateById {f : PrWatchRecord → PrWatchRecord}
    {hf : ∀ watch, (f watch).id = watch.id} (hw : watch ∈ watches)
    (hw' : watch' ∈ updateById watches id f hf) (hid : watch'.id = watch.id) :
    watch' = if watch.id = id then f watch else watch := by
  simp only [updateById, Table.mem_update] at hw'
  obtain ⟨old, hold, rfl⟩ := hw'
  have hsame : old.id = watch.id := by
    rw [← hid]
    split <;> simp [hf]
  rw [Table.eq_of_key hold hw hsame]

section Cursors

variable {View Feedback : Type} (planner : Planner View Feedback)

/-- The cursors of a row moved: with the notice that they imply, or in a pass without one. -/
def Accounted (s s' : State) (watch watch' : PrWatchRecord) : Prop :=
  (∃ notice, s'.stagedNotices = ⟨watch.id, notice⟩ :: s.stagedNotices ∧
    watch'.pendingNotice = some notice) ∨
  ∃ (pass : PrWatchRecord) (writes : List Write) (reads : Reads View Feedback),
    s.running = some (pass, writes) ∧ pass.id = watch.id ∧
      writes <:+ passWrites planner pass reads ∧
      ∀ write ∈ passWrites planner pass reads, write.notice = none

theorem logStaged_of_mem (h : watch ∈ s.watches) (notice : PendingPrWatchNotice) :
    logStaged s watch.id notice = ⟨watch.id, notice⟩ :: s.stagedNotices := by
  simp [logStaged, hasRow, Table.find?_of_mem h]

/-- The next write of a pass moves the cursors of its own row, with a notice or without any. -/
theorem cursors_perform {pass : PrWatchRecord} (hfits : Fits s pass (write :: writes))
    (hw : watch ∈ s.watches) (hw' : watch' ∈ (perform s pass write).watches)
    (hid : watch'.id = watch.id) (hne : watch'.cursors ≠ watch.cursors) :
    pass.id = watch.id ∧ (write.Moves ∨ ∃ notice,
      (perform s pass write).stagedNotices = ⟨watch.id, notice⟩ :: s.stagedNotices ∧
        watch'.pendingNotice = some notice) := by
  have hrow : ∀ {f : PrWatchRecord → PrWatchRecord} (hf : ∀ watch, (f watch).id = watch.id),
      watch' ∈ updateById s.watches pass.id f hf → pass.id = watch.id ∧ watch' = f watch := by
    intro f hf hmem
    have heq := eq_of_mem_updateById hw hmem hid
    split at heq
    · exact ⟨Eq.symm ‹_›, heq⟩
    · exact absurd (congrArg PrWatchRecord.cursors heq) hne
  have hdelete : watch' ∉ deletePrWatchById s.watches pass.id := by
    intro hmem
    simp only [deletePrWatchById, Table.mem_delete] at hmem
    exact hne (congrArg PrWatchRecord.cursors (Table.eq_of_key hmem.1 hw hid))
  cases write with
  | setNotFoundCount count =>
    obtain ⟨-, rfl⟩ := hrow (id_withNotFoundCount _) hw'
    exact absurd rfl hne
  | recordFetchFailure count degraded notice =>
    obtain ⟨hpass, rfl⟩ := hrow (id_withFetchFailure _ _ _) hw'
    refine ⟨hpass, ?_⟩
    cases hfits with
    | failed => exact .inl (.failed count degraded)
    | degraded _ _ _ hends =>
      rename_i notice _ _
      refine .inr ⟨notice, ?_, ?_⟩
      · rw [perform, hpass]
        exact logStaged_of_mem hw notice
      · simp [withFetchFailure, ← hends]
  | updateCursors cursors =>
    obtain ⟨hpass, rfl⟩ := hrow (id_withCursors _) hw'
    exact ⟨hpass, .inl (.updateCursors cursors)⟩
  | stage cursors notice =>
    obtain ⟨hpass, rfl⟩ := hrow (id_staged _ _) hw'
    refine ⟨hpass, .inr ⟨notice, ?_, rfl⟩⟩
    rw [perform, hpass]
    exact logStaged_of_mem hw notice
  | deliver notice => exact absurd (congrArg PrWatchRecord.cursors (Table.eq_of_key hw' hw hid)) hne
  | finish notice archived =>
    rw [perform] at hw'
    split at hw'
    · exact absurd hw' hdelete
    · obtain ⟨-, rfl⟩ := hrow id_cleared hw'
      exact absurd rfl hne
  | delete => exact absurd hw' hdelete

/-- A session that watches again keeps the cursors. -/
theorem cursors_upsert {sessionId projectId headSha createdAt : String} {prNumber : ℕ}
    {cleanupOnMerge : Bool} (hw : watch ∈ watches) (hid : watch'.id = watch.id)
    (hw' : watch' ∈ upsertPrWatch watches id sessionId projectId prNumber cleanupOnMerge headSha
      createdAt) : watch'.cursors = watch.cursors := by
  rw [upsertPrWatch] at hw'
  split at hw'
  · simp only [Table.mem_update] at hw'
    obtain ⟨old, hold, rfl⟩ := hw'
    have hsame : old.id = watch.id := by
      rw [← hid]
      split <;> rfl
    rw [← Table.eq_of_key hold hw hsame]
    split <;> rfl
  · have hkept := Table.mem_insertOrIgnore_of_mem hw
      (r := newWatch id sessionId projectId prNumber cleanupOnMerge headSha createdAt)
    rw [Table.eq_of_key hw' hkept hid]

theorem accounted_step (h : Inv s) (hpasses : Passes planner s) (act : Act View Feedback)
    (hw : watch ∈ s.watches) (hw' : watch' ∈ (step planner s act).watches)
    (hid : watch'.id = watch.id) (hne : watch'.cursors ≠ watch.cursors) :
    Accounted planner s (step planner s act) watch watch' := by
  have hsame : watch' ∈ s.watches → False := fun hmem =>
    hne (congrArg PrWatchRecord.cursors (Table.eq_of_key hmem hw hid))
  cases act with
  | upsert => exact absurd (cursors_upsert hw hid hw') hne
  | remove watchId =>
    simp only [step, deletePrWatchById, Table.mem_delete] at hw'
    exact absurd hw'.1 hsame
  | list | skip =>
    rw [step] at hw'
    split at hw' <;> exact absurd hw' hsame
  | look reads =>
    rw [step] at hw'
    split at hw' <;> exact absurd hw' hsame
  | write =>
    rw [step] at hw' ⊢
    cases hrunning : s.running with
    | none =>
      rw [hrunning] at hw'
      exact absurd hw' hsame
    | some pass =>
      obtain ⟨pass, writes⟩ := pass
      cases writes with
      | nil =>
        rw [hrunning] at hw'
        exact absurd hw' hsame
      | cons write writes =>
        rw [hrunning] at hw'
        have hfits := (h.runs pass _ hrunning).2.2
        obtain ⟨hpass, hmoves | ⟨notice, hstaged, hpending⟩⟩ :=
          cursors_perform hfits hw hw' hid hne
        · obtain ⟨reads, hsuffix⟩ := hpasses pass _ hrunning
          exact .inr ⟨pass, _, reads, hrunning, hpass, hsuffix,
            quiet_passWrites (hsuffix.subset (List.mem_cons_self ..)) hmoves⟩
        · exact .inl ⟨notice, hstaged, hpending⟩
  | fail | restart => exact absurd hw' hsame

/-! ## Every run -/

/-- What the watches promise. -/
structure Outbox (s : State) : Prop where
  /-- No two notices share an id. -/
  distinct : (s.stagedNotices.map (·.notice.id)).Nodup
  /-- A notice that arrived has the body it was staged with. -/
  same : ∀ message ∈ s.inbox, ∀ entry ∈ s.stagedNotices, message.messageId = entry.notice.id →
    message.body = entry.notice.body
  /-- Every staged notice arrived or waits in its row, or was given up. -/
  fate : ∀ entry ∈ s.stagedNotices, Fate s entry
  /-- The next pass over a row offers the notice that waits in it. -/
  offered : ∀ row ∈ s.watches, ∀ notice, row.pendingNotice = some notice →
    ⟨row.id, notice⟩ ∈ s.stagedNotices ∧
      ∀ (watch : PrWatchRecord) (listed : List PrWatchRecord) (reads : Reads View Feedback),
        s.running = none → s.listed = watch :: listed → watch.id = row.id →
          (step planner s (.look reads)).running =
            some (watch, deliverStaged notice reads.recipientArchived)
  /-- Cursors move with the notice that they imply, or in a pass without one. -/
  cursors : ∀ (act : Act View Feedback), ∀ watch ∈ s.watches,
    ∀ watch' ∈ (step planner s act).watches, watch'.id = watch.id →
      watch'.cursors ≠ watch.cursors → Accounted planner s (step planner s act) watch watch'

/-- **No notice is lost, and none has two ids.** -/
theorem outbox_of_run (acts : List (Act View Feedback)) :
    Outbox planner (run (step planner) .start acts) := by
  have hinv : Inv (run (step planner) .start acts) ∧ Passes planner (run (step planner) .start acts) :=
    run_invariant (I := fun s => Inv s ∧ Passes planner s)
      (fun s act h => ⟨inv_step planner act h.1, passes_step planner act h.2⟩)
      ⟨inv_start, fun watch writes h => by simp [State.start] at h⟩ acts
  obtain ⟨hinv, hpasses⟩ := hinv
  refine ⟨hinv.core.distinct, hinv.core.same, hinv.core.fate, ?_, ?_⟩
  · intro row hrow notice hnotice
    have hbox := outbox_of_mem hrow
    refine ⟨(hinv.core.rows _ _ _ hbox).2 notice hnotice, ?_⟩
    intro watch listed reads hnone hlisted hid
    have hread := (hinv.core.listed watch (by simp [hlisted])).2.2.2 _ (hid ▸ hbox)
    have hpending : watch.pendingNotice = some notice := by
      rw [← (Prod.mk.inj hread).2, hnotice]
    simp [step, hnone, hlisted, passWrites, hpending]
  · exact fun act watch hw watch' hw' => accounted_step planner hinv hpasses act hw hw'

end Cursors

/-! ## Archived chats -/

/-- A planner that always has something to say. -/
def talkative : Planner Unit Unit where
  headRefOid _ := some "abc"
  terminalState _ _ := none
  wantsThreads _ _ _ _ := false
  planWatchPass watch _ _ _ _ _ := ⟨some "news", currentCursors watch, false⟩

/-- An open pull request, read for a chat that is archived or not. -/
def openPr (recipientArchived : Bool) : Reads Unit Unit where
  pr := some ⟨"abc", none, none, none, "1", none⟩
  recipientArchived := recipientArchived
  tickStartedAt := "0"
  view := .ok ()
  remote := false
  reviewThreads := .ok ()
  cleanup := ""

/-- A delivery fails, the chat is archived, and the next pass drops the notice from its row. -/
def droppedRun : List (Act Unit Unit) :=
  [.upsert "s" "p" 7 false "abc" "0", .list, .look (openPr false), .write, .fail,
    .list, .look (openPr true), .write]

/-- **A staged notice is not offered for ever.** -/
theorem notice_dropped :
    ∃ entry ∈ (run (step talkative) .start droppedRun).stagedNotices,
      (∀ message ∈ (run (step talkative) .start droppedRun).inbox,
        message.messageId ≠ entry.notice.id) ∧
      outbox (run (step talkative) .start droppedRun).watches entry.watchId = some (1, none) ∧
      (run (step talkative) .start droppedRun).removedIds = [] := by
  decide

end Argmax.Gh
