import Argmax.Providers.ForkMergeExclusive
import Mathlib.Algebra.BigOperators.Group.List.Basic
import Mathlib.Algebra.Group.Action.Defs

/-!
# What a draft holds

`draft` takes the newest visible messages of a range, leaves out those that are blank, and
drops the oldest while what it counts exceeds the limit. It counts bytes, without the line
feeds between the messages, and takes a line feed off with each message that it drops. So a
message is dropped only where it does not fit, but what remains may exceed the limit by the
line feeds.
-/

namespace Argmax.Providers.ForkMerge

open Argmax.Lib Argmax.Lib.Text Argmax.Persistence

/-! ## Messages -/

/-- The visible rows of a range, oldest first. -/
def visibleRows (s : State) (fork : ForkRecord) (range : MergeRange) : List EventRow :=
  (eligibleNewestFirst s.events fork.childSessionId range.fromRowid range.throughRowid).reverse

/-- The lines of some rows. A blank message has none. -/
def linesOf (rows : List EventRow) : List (EventRow × String) :=
  rows.filterMap fun event => (contextLine event).map fun line => (event, line)

/-- The messages of a range. -/
def messages (s : State) (fork : ForkRecord) (range : MergeRange) : List (EventRow × String) :=
  linesOf (visibleRows s fork range)

/-- The messages among the newest rows of a range. -/
def window (s : State) (fork : ForkRecord) (range : MergeRange) : List (EventRow × String) :=
  linesOf ((visibleRows s fork range).rtake mergeMaxMessages)

/-- The bytes of the messages. -/
def lineBytes (lines : List (EventRow × String)) : ℕ :=
  (lines.map fun line => byteLength line.2.toList).sum

/-- The messages as the text has them. -/
def joined (lines : List (EventRow × String)) : String :=
  String.intercalate "\n" (lines.map (·.2))

variable {lines : List (EventRow × String)} {count : ℕ} {text : List Char}

/-- A line feed stands between two messages, whatever is counted that adds up. -/
theorem size_joined {size : List Char → ℕ} (happend : ∀ a b, size (a ++ b) = size a + size b)
    (hbreak : size ['\n'] = 1) (h : lines ≠ []) :
    size (joined lines).toList + 1 =
      (lines.map fun line => size line.2.toList).sum + lines.length := by
  induction lines with
  | nil => exact absurd rfl h
  | cons line lines ih =>
    cases lines with
    | nil => simp [joined]
    | cons next rest =>
      have hrest := ih (by simp)
      have hjoined : joined (line :: next :: rest) = line.2 ++ "\n" ++ joined (next :: rest) := by
        simp [joined]
      have hbreak' : size "\n".toList = 1 := hbreak
      rw [hjoined, String.toList_append, String.toList_append, happend, happend, List.map_cons,
        List.sum_cons, List.length_cons]
      omega

theorem byteLength_joined (h : lines ≠ []) :
    byteLength (joined lines).toList + 1 = lineBytes lines + lines.length :=
  size_joined byteLength_append (by decide) h

/-- A line takes its speaker and at most a clamped text. -/
theorem byteLength_clampContextText (text : List Char) :
    byteLength (clampContextText text) ≤ 4003 := by
  rw [clampContextText]
  split
  · omega
  · have hmax : ∀ starts : List ℕ, (∀ i ∈ starts, byteLength (text.take i) ≤ 4000) →
        byteLength (text.take (starts.foldr max 0)) ≤ 4000 := by
      intro starts h
      induction starts with
      | nil => simp
      | cons i starts ih =>
        obtain ⟨hi, hstarts⟩ := List.forall_mem_cons.mp h
        rw [List.foldr_cons]
        rcases max_choice i (starts.foldr max 0) with heq | heq <;> rw [heq]
        · exact hi
        · exact ih hstarts
    have hstarts := hmax ((List.range text.length).filter fun i =>
      byteLength (text.take i) ≤ 4000) (by simp)
    have htrim : ∀ text : List Char, byteLength (trimEnd text) ≤ byteLength text :=
      fun text => byteLength_sublist (List.rdropWhile_prefix _ _).sublist
    have hdots : byteLength "...".toList = 3 := by decide
    rw [byteLength_append]
    have hle := htrim (text.take (((List.range text.length).filter fun i =>
      byteLength (text.take i) ≤ 4000).foldr max 0))
    omega

theorem byteLength_contextLine {event : EventRow} {line : String}
    (h : contextLine event = some line) : byteLength line.toList ≤ 4014 := by
  obtain ⟨speaker, hspeaker, h⟩ := Option.bind_eq_some_iff.mp h
  split at h
  · cases h
  · cases h
    have hclamp := byteLength_clampContextText (trim event.message.toList)
    have hname : byteLength speaker.toList ≤ 9 := by
      split at hspeaker <;> cases hspeaker <;> decide
    have hcolon : byteLength ": ".toList = 2 := by decide
    simp only [String.toList_append, byteLength_append, String.toList_ofList]
    omega

/-! ## The loop -/

theorem dropOldest_cons {chars : ℕ} {line next : EventRow × String}
    {rest : List (EventRow × String)} :
    dropOldest chars (line :: next :: rest) =
      if mergeMaxChars < chars then
        dropOldest (chars - (byteLength line.2.toList + 1)) (next :: rest)
      else line :: next :: rest := rfl

theorem dropOldest_of_le {chars : ℕ} (h : chars ≤ mergeMaxChars) :
    dropOldest chars lines = lines := by
  cases lines with
  | nil => rfl
  | cons line lines =>
    cases lines with
    | nil => rfl
    | cons next rest => rw [dropOldest_cons, if_neg (by omega)]

theorem dropOldest_suffix (chars : ℕ) (lines : List (EventRow × String)) :
    dropOldest chars lines <:+ lines := by
  induction lines generalizing chars with
  | nil => exact List.suffix_rfl
  | cons line lines ih =>
    cases lines with
    | nil => exact List.suffix_rfl
    | cons next rest =>
      rw [dropOldest_cons]
      split
      · exact (ih _).trans (List.suffix_cons _ _)
      · exact List.suffix_rfl

theorem dropOldest_ne_nil (h : lines ≠ []) (chars : ℕ) : dropOldest chars lines ≠ [] := by
  induction lines generalizing chars with
  | nil => exact absurd rfl h
  | cons line lines ih =>
    cases lines with
    | nil => simp [dropOldest]
    | cons next rest =>
      rw [dropOldest_cons]
      split
      · exact ih (by simp) _
      · simp

/-- **What the loop leaves.** What it counts is the bytes of what remains less one for each
message dropped; it stops at the limit or at a single message, and it drops nothing that
fits. -/
theorem dropOldest_spec {chars dropped : ℕ} (h : ∀ line ∈ lines, byteLength line.2.toList ≤ 4014)
    (hchars : chars + dropped = lineBytes lines) :
    (lineBytes (dropOldest chars lines) + (dropOldest chars lines).length ≤
        mergeMaxChars + dropped + lines.length ∨ (dropOldest chars lines).length ≤ 1) ∧
      ∀ older line, lines = older ++ line :: dropOldest chars lines →
        mergeMaxChars + dropped < lineBytes (line :: dropOldest chars lines) := by
  induction lines generalizing chars dropped with
  | nil => simp [dropOldest]
  | cons line lines ih =>
    cases lines with
    | nil => simp [dropOldest, List.cons_eq_append_iff]
    | cons next rest =>
      obtain ⟨hline, hrest⟩ := List.forall_mem_cons.mp h
      have hbytes : lineBytes (line :: next :: rest) =
          byteLength line.2.toList + lineBytes (next :: rest) := by simp [lineBytes]
      rw [dropOldest_cons]
      by_cases hmore : mergeMaxChars < chars
      · have hcount : chars - (byteLength line.2.toList + 1) + (dropped + 1) =
            lineBytes (next :: rest) := by
          simp only [mergeMaxChars] at hmore
          omega
        obtain ⟨hbound, hfits⟩ := ih hrest hcount
        rw [if_pos hmore, List.length_cons]
        refine ⟨hbound.imp_left fun hle => by omega, fun older last heq => ?_⟩
        cases older with
        | nil =>
          obtain ⟨rfl, hkept⟩ := List.cons.inj heq
          rw [← hkept]
          omega
        | cons first older =>
          have hlater := hfits older last (List.cons.inj heq).2
          omega
      · rw [if_neg hmore]
        refine ⟨.inl (by omega), fun older last heq => ?_⟩
        have hlength := congrArg List.length heq
        simp only [List.length_append, List.length_cons] at hlength
        omega

/-- The loop, where a subtraction below zero fails. -/
def dropOldestChecked : ℕ → List (EventRow × String) → Option (List (EventRow × String))
  | chars, line :: next :: rest =>
    if mergeMaxChars < chars then
      if byteLength line.2.toList + 1 ≤ chars then
        dropOldestChecked (chars - (byteLength line.2.toList + 1)) (next :: rest)
      else none
    else some (line :: next :: rest)
  | _, lines => some lines

/-- **The count never goes below zero.** -/
theorem dropOldestChecked_eq (h : ∀ line ∈ lines, byteLength line.2.toList ≤ 4014) (chars : ℕ) :
    dropOldestChecked chars lines = some (dropOldest chars lines) := by
  induction lines generalizing chars with
  | nil => rfl
  | cons line lines ih =>
    cases lines with
    | nil => rfl
    | cons next rest =>
      obtain ⟨hline, hrest⟩ := List.forall_mem_cons.mp h
      rw [dropOldest_cons, dropOldestChecked]
      split
      · rename_i hmore
        rw [if_pos (by simp only [mergeMaxChars] at hmore; omega)]
        exact ih hrest _
      · rfl

/-! ## The draft -/

theorem draft_lines (s : State) (fork : ForkRecord) (range : MergeRange) (childLabel : String) :
    let lines := dropOldest (lineBytes (window s fork range)) (window s fork range)
    (draft s fork range childLabel).carried = lines.map (·.1) ∧
      (draft s fork range childLabel).shown = lines.length ∧
      (draft s fork range childLabel).truncated =
        decide (lines.length < (visibleRows s fork range).length) ∧
      ∃ heading note, (draft s fork range childLabel).text = heading ++ joined lines ++ note := by
  have hread : visibleMessagesAfter s.events fork.childSessionId range.fromRowid
      range.throughRowid mergeMaxMessages =
      (window s fork range, (visibleRows s fork range).length) := by
    refine Prod.ext ?_ ?_
    · simp [visibleMessagesAfter, window, linesOf, visibleRows, List.rtake_eq_reverse_take_reverse]
    · simp [visibleMessagesAfter, visibleRows]
  unfold draft
  rw [hread]
  exact ⟨rfl, rfl, rfl, _, _, rfl⟩

theorem mem_linesOf {rows : List EventRow} {line : EventRow × String}
    (h : line ∈ linesOf rows) : line.1 ∈ rows ∧ contextLine line.1 = some line.2 := by
  obtain ⟨event, hevent, hline⟩ := List.mem_filterMap.mp h
  obtain ⟨text, htext, rfl⟩ := Option.map_eq_some_iff.mp hline
  exact ⟨hevent, htext⟩

/-- The window is the end of the messages. -/
theorem window_suffix (s : State) (fork : ForkRecord) (range : MergeRange) :
    window s fork range <:+ messages s fork range :=
  (List.drop_suffix _ _).filterMap _

theorem length_window_le (s : State) (fork : ForkRecord) (range : MergeRange) :
    (window s fork range).length ≤ mergeMaxMessages := by
  refine (List.length_filterMap_le _ _).trans ?_
  rw [List.rtake, List.length_drop]
  omega

/-- No row comes twice. -/
theorem nodup_visibleRows (s : State) (fork : ForkRecord) (range : MergeRange) :
    (visibleRows s fork range).Nodup := by
  rw [visibleRows, List.nodup_reverse, eligibleNewestFirst, (List.mergeSort_perm _ _).nodup_iff]
  exact (List.Nodup.of_map _ s.events.unique).filter _

theorem map_linesOf_sublist (rows : List EventRow) : ((linesOf rows).map (·.1)).Sublist rows := by
  induction rows with
  | nil => simp [linesOf]
  | cons event rows ih =>
    rw [linesOf, List.filterMap_cons]
    cases contextLine event with
    | none => exact ih.cons event
    | some line => exact ih.cons_cons event

/-- What a draft holds: these lines. -/
structure DraftBound (s : State) (fork : ForkRecord) (range : MergeRange) (drafted : Draft)
    (lines : List (EventRow × String)) : Prop where
  text : ∃ heading note, drafted.text = heading ++ joined lines ++ note
  carried : drafted.carried = lines.map (·.1)
  shown : drafted.shown = lines.length
  /-- They are the last of the range, in order, and the last of its newest rows. -/
  suffix : lines <:+ messages s fork range
  newest : lines <:+ window s fork range
  length_le : lines.length ≤ mergeMaxMessages
  /-- They fit but for the line feeds, unless there is one. -/
  bound : byteLength (joined lines).toList < mergeMaxChars + mergeMaxMessages ∨ lines.length = 1
  /-- The next older one among the newest rows does not fit. -/
  fits : ∀ older line, window s fork range = older ++ line :: lines →
    mergeMaxChars < byteLength (joined (line :: lines)).toList
  /-- The count never goes below zero. -/
  checked : dropOldestChecked (lineBytes (window s fork range)) (window s fork range) = some lines
  truncated : drafted.truncated = true ↔ ∃ event ∈ visibleRows s fork range, event ∉ drafted.carried

/-- A part of some rows leaves one out just when it is shorter. -/
theorem length_lt_iff_exists {part rows : List EventRow} (h : part.Sublist rows)
    (hnodup : rows.Nodup) : part.length < rows.length ↔ ∃ event ∈ rows, event ∉ part := by
  constructor
  · intro hlt
    by_contra hall
    push Not at hall
    have hle := (List.subperm_of_subset hnodup hall).length_le
    omega
  · rintro ⟨event, hevent, hnot⟩
    refine lt_of_le_of_ne h.length_le fun heq => hnot ?_
    rwa [h.eq_of_length heq]

/-- **What a draft holds**, in every state, for every fork and every range. -/
theorem draft_bound (s : State) (fork : ForkRecord) (range : MergeRange) (childLabel : String) :
    ∃ lines, DraftBound s fork range (draft s fork range childLabel) lines := by
  obtain ⟨hcarried, hshown, htruncated, htext⟩ := draft_lines s fork range childLabel
  have hlines : ∀ line ∈ window s fork range, byteLength line.2.toList ≤ 4014 :=
    fun line hline => byteLength_contextLine (mem_linesOf hline).2
  have hcount : lineBytes (window s fork range) + 0 = lineBytes (window s fork range) := rfl
  obtain ⟨hbound, hfits⟩ := dropOldest_spec hlines hcount
  have hsuffix := dropOldest_suffix (lineBytes (window s fork range)) (window s fork range)
  have hchecked := dropOldestChecked_eq hlines (lineBytes (window s fork range))
  have hlength := length_window_le s fork range
  generalize dropOldest (lineBytes (window s fork range)) (window s fork range) = lines at *
  refine ⟨lines, htext, hcarried, hshown, hsuffix.trans (window_suffix s fork range), hsuffix,
    hsuffix.length_le.trans hlength, ?_, ?_, hchecked, ?_⟩
  · by_cases hempty : lines = []
    · subst hempty
      exact .inl (by decide)
    · have hjoined := byteLength_joined hempty
      have hpos := List.length_pos_iff.mpr hempty
      rcases hbound with hle | hone
      · exact .inl (by omega)
      · exact .inr (by omega)
  · intro older line heq
    have hjoined := byteLength_joined (List.cons_ne_nil line lines)
    have hmore := hfits older line heq
    rw [List.length_cons] at hjoined
    omega
  · have hsublist : (lines.map (·.1)).Sublist (visibleRows s fork range) :=
      (hsuffix.sublist.map _).trans ((map_linesOf_sublist _).trans (List.drop_sublist _ _))
    rw [htruncated, hcarried, decide_eq_true_eq,
      ← length_lt_iff_exists hsublist (nodup_visibleRows s fork range), List.length_map]

/-! ## What a draft does not hold -/

/-- A fork of a whole chat. -/
def wholeFork : ForkRecord := ⟨"f", some "source", "child", none, none⟩

/-- A fork with these messages of the user, the newest first. -/
def forkWith (count : ℕ) (text : List Char) (h : ((List.range count).map toString).Nodup) : State :=
  start ⟨[wholeFork], by simp⟩ .empty
    ⟨(List.range count).map fun i =>
      ⟨count - i, toString i, "child", "user.message", String.ofList text, .object []⟩,
      by rwa [List.map_map]⟩ PendingMessages.init

/-- All of them are visible, and they stand in order. -/
theorem visibleRows_forkWith (h : ((List.range count).map toString).Nodup)
    (htext : text.any (· != ' ') = true) :
    visibleRows (forkWith count text h) wholeFork ⟨none, 0, "0", count⟩ =
      (forkWith count text h).events.rows.reverse := by
  have hcleared : lastCleared (forkWith count text h).events "child" = 0 := by
    have hnone : ((forkWith count text h).events.rows.filter fun event =>
        event.sessionId == "child" && event.type == "session.cleared") = [] := by
      simp [forkWith, start]
    rw [lastCleared, hnone]
    rfl
  have hchild : notChildAgent (.object []) = true := by decide
  have hall : (forkWith count text h).events.rows.filter
      (eligible (forkWith count text h).events "child" 0 count) =
      (forkWith count text h).events.rows := by
    rw [List.filter_eq_self]
    intro event hevent
    obtain ⟨i, hi, rfl⟩ := List.mem_map.mp hevent
    have hlt := List.mem_range.mp hi
    simp [eligible, hchild, htext]
    omega
  have hsorted : (forkWith count text h).events.rows.Pairwise fun a b => b.rowid ≤ a.rowid := by
    refine List.pairwise_map.mpr (List.pairwise_lt_range.imp ?_)
    dsimp only
    omega
  rw [visibleRows, eligibleNewestFirst, wholeFork, hall,
    List.mergeSort_of_pairwise (by simpa using hsorted)]

/-- The lines of messages that all say the same. -/
theorem map_linesOf {rows : List EventRow} {line : String}
    (h : ∀ event ∈ rows, contextLine event = some line) :
    (linesOf rows).map (·.2) = List.replicate rows.length line := by
  induction rows with
  | nil => rfl
  | cons event rows ih =>
    obtain ⟨hevent, hrows⟩ := List.forall_mem_cons.mp h
    have hrest := ih hrows
    simp only [linesOf] at hrest
    simp [linesOf, hevent, hrest, List.replicate_succ]

theorem contextLine_forkWith (h : ((List.range count).map toString).Nodup) (htext : text ≠ [])
    (htrim : trim text = text) (hclamp : byteLength text ≤ 4000) :
    ∀ event ∈ (forkWith count text h).events.rows,
      contextLine event = some ("User: " ++ String.ofList text) := by
  intro event hevent
  obtain ⟨i, -, rfl⟩ := List.mem_map.mp hevent
  simp [contextLine, htrim, htext, clampContextText, hclamp]

theorem byteLength_userLine (text : List Char) :
    byteLength ("User: " ++ String.ofList text).toList = 6 + byteLength text := by
  have hname : byteLength "User: ".toList = 6 := by decide
  rw [String.toList_append, byteLength_append, hname, String.toList_ofList]

theorem length_userLine (text : List Char) :
    ("User: " ++ String.ofList text).toList.length = 6 + text.length := by
  have hname : "User: ".toList.length = 6 := by decide
  rw [String.toList_append, List.length_append, hname, String.toList_ofList]

theorem rows_forkWith (h : ((List.range count).map toString).Nodup) :
    (forkWith count text h).events.rows.length = count := by
  simp [forkWith, start]

/-- What is drafted of messages that all say the same and fit. -/
theorem shown_forkWith (h : ((List.range count).map toString).Nodup)
    (hvisible : text.any (· != ' ') = true) (hne : text ≠ []) (htrim : trim text = text)
    (hclamp : byteLength text ≤ 4000)
    (hfits : min count mergeMaxMessages * (6 + byteLength text) ≤ mergeMaxChars) :
    (draft (forkWith count text h) wholeFork ⟨none, 0, "0", count⟩ "fork").shown =
      min count mergeMaxMessages := by
  have hsame : ∀ event ∈ (forkWith count text h).events.rows.reverse.rtake mergeMaxMessages,
      contextLine event = some ("User: " ++ String.ofList text) :=
    fun event hevent => contextLine_forkWith h hne htrim hclamp event
      (List.mem_reverse.mp (List.mem_of_mem_drop hevent))
  have hlines : (window (forkWith count text h) wholeFork ⟨none, 0, "0", count⟩).map (·.2) =
      List.replicate (min count mergeMaxMessages) ("User: " ++ String.ofList text) := by
    rw [window, visibleRows_forkWith h hvisible, map_linesOf hsame, List.rtake, List.length_drop,
      List.length_reverse, rows_forkWith]
    congr 1
    omega
  have hbytes : lineBytes (window (forkWith count text h) wholeFork ⟨none, 0, "0", count⟩) =
      min count mergeMaxMessages * (6 + byteLength text) := by
    have hmap := congrArg (fun lines => (lines.map fun line => byteLength line.toList).sum) hlines
    rwa [List.map_map, List.map_replicate, byteLength_userLine, List.sum_replicate,
      smul_eq_mul] at hmap
  rw [(draft_lines _ _ _ _).2.1, dropOldest_of_le (hbytes ▸ hfits), ← List.length_map, hlines,
    List.length_replicate]

/-- How long such messages are when they are joined. -/
theorem joined_forkWith (h : ((List.range count).map toString).Nodup)
    (hvisible : text.any (· != ' ') = true) (hne : text ≠ []) (htrim : trim text = text)
    (hclamp : byteLength text ≤ 4000) (hcount : 0 < count) :
    (messages (forkWith count text h) wholeFork ⟨none, 0, "0", count⟩).length = count ∧
      (joined (messages (forkWith count text h) wholeFork
        ⟨none, 0, "0", count⟩)).toList.length + 1 = count * (6 + text.length) + count := by
  have hlines : (messages (forkWith count text h) wholeFork ⟨none, 0, "0", count⟩).map (·.2) =
      List.replicate count ("User: " ++ String.ofList text) := by
    rw [messages, visibleRows_forkWith h hvisible, map_linesOf fun event hevent =>
      contextLine_forkWith h hne htrim hclamp event (List.mem_reverse.mp hevent),
      List.length_reverse, rows_forkWith]
  have hlength := congrArg List.length hlines
  rw [List.length_map, List.length_replicate] at hlength
  have hsum := congrArg (fun lines => (lines.map fun line => line.toList.length).sum) hlines
  rw [List.map_map, List.map_replicate, length_userLine, List.sum_replicate] at hsum
  have hsize := size_joined (fun _ _ => List.length_append) rfl
    (List.ne_nil_of_length_pos (hlength ▸ hcount))
  rw [hlength] at hsize
  exact ⟨hlength, hsize.trans (congrArg (· + count) hsum)⟩

theorem trim_replicate (n : ℕ) : trim (List.replicate n 'x') = List.replicate n 'x' := by
  simp [trim, trimStart, trimEnd, List.rdropWhile, isWhitespace]

theorem byteLength_replicate (n : ℕ) : byteLength (List.replicate n 'x') = n := by
  have hx : Char.utf8Size 'x' = 1 := by decide
  simp [byteLength, hx]

theorem visible_replicate (n : ℕ) : (List.replicate (n + 1) 'x').any (· != ' ') = true := by
  simp [List.replicate_succ]

/-- So many messages of so many letters. -/
def lettersFork (count length : ℕ) (h : ((List.range count).map toString).Nodup) : State :=
  forkWith count (List.replicate (length + 1) 'x') h

/-- **A draft falls short.** One of forty-one short messages is left out although it fits,
and six long ones are shown although they exceed the limit. -/
theorem draft_falls_short :
    let few : MergeRange := ⟨none, 0, "0", 6⟩
    let many : MergeRange := ⟨none, 0, "0", 41⟩
    let short := lettersFork 41 0 (by decide)
    let long := lettersFork 6 3993 (by decide)
    ((draft short wholeFork many "fork").shown = 40 ∧
      (messages short wholeFork many).length = 41 ∧
      (joined (messages short wholeFork many)).toList.length ≤ mergeMaxChars) ∧
    (draft long wholeFork few "fork").shown = 6 ∧
      (messages long wholeFork few).length = 6 ∧
      mergeMaxChars < (joined (messages long wholeFork few)).toList.length := by
  intro few many short long
  have hletters : ∀ count length, (h : ((List.range count).map toString).Nodup) →
      length < 4000 → 0 < count → min count mergeMaxMessages * (7 + length) ≤ mergeMaxChars →
      (draft (lettersFork count length h) wholeFork ⟨none, 0, "0", count⟩ "fork").shown =
          min count mergeMaxMessages ∧
        (messages (lettersFork count length h) wholeFork ⟨none, 0, "0", count⟩).length = count ∧
        (joined (messages (lettersFork count length h) wholeFork
          ⟨none, 0, "0", count⟩)).toList.length + 1 = count * (7 + length) + count := by
    intro count length h hlength hcount hfits
    have hbytes := byteLength_replicate (length + 1)
    have hne : List.replicate (length + 1) 'x' ≠ [] := by simp [List.replicate_succ]
    obtain ⟨hmessages, hjoined⟩ := joined_forkWith h (visible_replicate length) hne
      (trim_replicate _) (by omega) hcount
    refine ⟨shown_forkWith h (visible_replicate length) hne (trim_replicate _) (by omega) ?_,
      hmessages, ?_⟩
    · rwa [hbytes, show 6 + (length + 1) = 7 + length by omega]
    · rw [lettersFork, hjoined, List.length_replicate, show 6 + (length + 1) = 7 + length by omega]
  obtain ⟨hshort, hmany, hjoined⟩ := hletters 41 0 _ (by decide) (by decide) (by decide)
  obtain ⟨hlong, hfew, hexceeds⟩ := hletters 6 3993 _ (by decide) (by decide) (by decide)
  have hjoined' : (joined (messages short wholeFork many)).toList.length + 1 = 328 := hjoined
  have hexceeds' : (joined (messages long wholeFork few)).toList.length + 1 = 24006 := hexceeds
  have hlimit : mergeMaxChars = 24000 := rfl
  exact ⟨⟨hshort, hmany, by omega⟩, hlong, hfew, by omega⟩

end Argmax.Providers.ForkMerge
