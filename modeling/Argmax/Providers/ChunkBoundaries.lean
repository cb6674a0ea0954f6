import Argmax.Providers.FlushQueue

/-!
# Where the chunks of an output end

The queue completes a text at line feeds and carriage returns, the normalizer breaks it
at line feeds only. So how many lines a text has depends on where its chunks end, unless
no line has two stretches between carriage returns that are not blank.

What reaches the buffer depends on the lines alone: the pieces that the queue completes
are the text up to its last line break, whatever the chunks, and each ends with a break.
-/

namespace Argmax.Providers

open Argmax.Lib Argmax.Lib.Text

/-! ## Lines without blanks -/

/-- A line as it is normalized: trimmed, and nothing if it is blank. -/
def content (line : List Char) : List (List Char) :=
  if (trim line).isEmpty then [] else [trim line]

/-- The lines of a text as they are normalized. -/
def contentLines (text : List Char) : List (List Char) :=
  (segments (· == '\n') text).flatMap content

/-- The stretches of a text between line breaks of either kind. -/
def stretches (text : List Char) : List (List Char) :=
  (segments isLineBreak text).flatMap content

/-- Each line of the text is at most one stretch. -/
def OneStretch (text : List Char) : Prop :=
  ∀ line ∈ segments (· == '\n') text, (stretches line).length ≤ 1

instance (text : List Char) : Decidable (OneStretch text) :=
  inferInstanceAs (Decidable (∀ line ∈ segments (· == '\n') text, (stretches line).length ≤ 1))

theorem content_of_blank {line : List Char} (h : ∀ c ∈ line, isWhitespace c = true) :
    content line = [] := by
  rw [content, trim_eq_nil.mpr h]
  rfl

theorem content_blank_append {blank : List Char} (h : ∀ c ∈ blank, isWhitespace c = true)
    (text : List Char) : content (blank ++ text) = content text := by
  rw [content, content, trim_blank_append h]

theorem content_append_blank {blank : List Char} (h : ∀ c ∈ blank, isWhitespace c = true)
    (text : List Char) : content (text ++ blank) = content text := by
  rw [content, content, trim_append_blank h]

theorem length_content_le (line : List Char) : (content line).length ≤ 1 := by
  rw [content]
  split <;> simp

theorem content_eq_nil {line : List Char} :
    content line = [] ↔ ∀ c ∈ line, isWhitespace c = true := by
  rw [content, ← trim_eq_nil]
  split
  · rename_i hempty
    simpa using hempty
  · rename_i hne
    simpa using hne

/-- What is between two parts of a line is at most two stretches. -/
theorem length_content_append_le (first second : List Char) :
    (content (first ++ second)).length ≤ (content first).length + (content second).length := by
  by_cases hfirst : content first = []
  · rw [content_blank_append (content_eq_nil.mp hfirst)]
    omega
  · have hpos := List.length_pos_iff.mpr hfirst
    have hle := length_content_le (first ++ second)
    omega

theorem length_content_flatten_le (parts : List (List Char)) :
    (content parts.flatten).length ≤ (parts.flatMap content).length := by
  induction parts with
  | nil => simp [content_of_blank]
  | cons part parts ih =>
    rw [List.flatten_cons, List.flatMap_cons, List.length_append]
    have hle := length_content_append_le part parts.flatten
    omega

/-- A line of one stretch is that stretch. -/
theorem content_flatten {parts : List (List Char)} (h : (parts.flatMap content).length ≤ 1) :
    content parts.flatten = parts.flatMap content := by
  induction parts with
  | nil => exact content_of_blank (by simp)
  | cons part parts ih =>
    rw [List.flatMap_cons, List.length_append] at h
    rw [List.flatten_cons, List.flatMap_cons]
    by_cases hblank : content part = []
    · rw [content_blank_append (content_eq_nil.mp hblank), hblank]
      exact ih (by omega)
    · have hpos := List.length_pos_iff.mpr hblank
      have hrest : parts.flatMap content = [] := List.length_eq_zero_iff.mp (by omega)
      have hblanks : ∀ c ∈ parts.flatten, isWhitespace c = true := by
        rw [← content_eq_nil, ih (by omega), hrest]
      rw [content_append_blank hblanks, hrest, List.append_nil]

theorem length_content_le_stretches (line : List Char) :
    (content line).length ≤ (stretches line).length := by
  have hle := length_content_flatten_le (segments isLineBreak line)
  rwa [flatten_segments] at hle

theorem content_eq_stretches {line : List Char} (h : (stretches line).length ≤ 1) :
    content line = stretches line := by
  have hflatten := content_flatten h
  rwa [flatten_segments] at hflatten

/-! ## Lines against stretches -/

theorem stretches_flatMap (text : List Char) :
    stretches text = (segments (· == '\n') text).flatMap stretches := by
  have hbreak : ∀ c : Char, (c == '\n') = true → isLineBreak c = true := by
    intro c hc
    rw [isLineBreak, hc]
    rfl
  rw [stretches, segments_refine hbreak, List.flatMap_assoc]
  rfl

/-- **A text whose lines are stretches.** -/
theorem contentLines_eq_stretches {text : List Char} (h : OneStretch text) :
    contentLines text = stretches text := by
  rw [stretches_flatMap, contentLines, List.flatMap_congr]
  intro line hline
  exact content_eq_stretches (h line hline)

theorem length_flatMap_le {α β : Type} {f g : α → List β} {as : List α}
    (h : ∀ a ∈ as, (f a).length ≤ (g a).length) :
    (as.flatMap f).length ≤ (as.flatMap g).length := by
  induction as with
  | nil => simp
  | cons a as ih =>
    rw [List.flatMap_cons, List.flatMap_cons, List.length_append, List.length_append]
    have hhead := h a List.mem_cons_self
    have hrest := ih fun b hb => h b (List.mem_cons_of_mem _ hb)
    omega

/-- Where the sums agree the terms do. -/
theorem length_eq_of_flatMap {α β : Type} {f g : α → List β} {as : List α}
    (h : ∀ a ∈ as, (f a).length ≤ (g a).length)
    (hsum : (as.flatMap g).length ≤ (as.flatMap f).length) :
    ∀ a ∈ as, (f a).length = (g a).length := by
  induction as with
  | nil => simp
  | cons a as ih =>
    rw [List.flatMap_cons, List.flatMap_cons, List.length_append, List.length_append] at hsum
    have hhead := h a List.mem_cons_self
    have hle := length_flatMap_le fun b hb => h b (List.mem_cons_of_mem _ hb)
    intro b hb
    rcases List.mem_cons.mp hb with rfl | hlater
    · omega
    · exact ih (fun c hc => h c (List.mem_cons_of_mem _ hc)) (by omega) b hlater

theorem length_contentLines_le (text : List Char) :
    (contentLines text).length ≤ (stretches text).length := by
  rw [stretches_flatMap]
  exact length_flatMap_le fun line _ => length_content_le_stretches line

/-- **A text with as many stretches as lines.** -/
theorem oneStretch_of_length {text : List Char}
    (h : (stretches text).length ≤ (contentLines text).length) : OneStretch text := by
  rw [stretches_flatMap] at h
  intro line hline
  rw [← length_eq_of_flatMap (fun line _ => length_content_le_stretches line) h line hline]
  exact length_content_le line

/-- Cutting a text makes no line less. -/
theorem length_contentLines_append_le (first second : List Char) :
    (contentLines (first ++ second)).length ≤
      (contentLines first).length + (contentLines second).length := by
  have hsplit := List.rdropWhile_append_rtakeWhile (p := fun c => !(c == '\n')) (l := first)
  have hclosed : Closed (· == '\n') (first.rdropWhile fun c => !(c == '\n')) := by
    intro c hc
    by_cases hne : (first.rdropWhile fun c => !(c == '\n')) = []
    · rw [hne] at hc
      cases hc
    · have hlast := List.rdropWhile_last_not _ first hne
      rw [List.getLast?_eq_some_getLast hne] at hc
      cases hc
      simpa using hlast
  have hopen : ∀ c ∈ first.rtakeWhile fun c => !(c == '\n'), (c == '\n') = false := by
    intro c hc
    simpa using List.mem_rtakeWhile_imp hc
  generalize (first.rtakeWhile fun c => !(c == '\n')) = rest at hsplit hopen
  rw [← hsplit, List.append_assoc, contentLines, contentLines, segments_append hclosed,
    segments_append hclosed, List.flatMap_append, List.flatMap_append, List.length_append,
    List.length_append]
  by_cases hrest : rest = []
  · rw [hrest]
    exact le_refl _
  rw [segments_open_append hopen hrest, segments_of_open hopen hrest, contentLines]
  cases segments (· == '\n') second with
  | nil => simp
  | cons line later =>
    have hle := length_content_append_le rest line
    simp only [List.headD_cons, List.tail_cons, List.flatMap_cons, List.length_append]
    omega

theorem length_contentLines_flatten_le (pieces : List (List Char)) :
    (contentLines pieces.flatten).length ≤ (pieces.flatMap contentLines).length := by
  induction pieces with
  | nil => exact le_refl _
  | cons piece pieces ih =>
    rw [List.flatten_cons, List.flatMap_cons, List.length_append]
    have hle := length_contentLines_append_le piece pieces.flatten
    omega

/-- **Pieces that end with breaks have the stretches of the whole.** -/
theorem flatMap_contentLines {pieces : List (List Char)}
    (h : ∀ piece ∈ pieces, Closed isLineBreak piece) (hone : OneStretch pieces.flatten) :
    pieces.flatMap contentLines = stretches pieces.flatten := by
  have hstretches : stretches pieces.flatten = pieces.flatMap stretches := by
    rw [stretches, segments_flatten h, List.flatMap_assoc]
    rfl
  rw [hstretches, List.flatMap_congr]
  intro piece hpiece
  apply contentLines_eq_stretches
  apply oneStretch_of_length
  have hle := length_contentLines_flatten_le pieces
  rw [contentLines_eq_stretches hone, hstretches] at hle
  rw [length_eq_of_flatMap (fun piece _ => length_contentLines_le piece) hle piece hpiece]

/-! ## The pieces that the queue completes -/

theorem closed_splitCompleted (pending : List Char) :
    Closed isLineBreak (splitCompleted pending).1 := by
  intro c hc
  rw [splitCompleted] at hc
  by_cases hne : (pending.rdropWhile fun c => !isLineBreak c) = []
  · rw [hne] at hc
    cases hc
  · have hlast := List.rdropWhile_last_not _ pending hne
    rw [List.getLast?_eq_some_getLast hne] at hc
    cases hc
    simpa using hlast

theorem splitCompleted_append (pending : List Char) :
    (splitCompleted pending).1 ++ (splitCompleted pending).2 = pending :=
  List.rdropWhile_append_rtakeWhile

theorem not_isLineBreak_trailing (pending : List Char) :
    ∀ c ∈ (splitCompleted pending).2, isLineBreak c = false := by
  intro c hc
  simpa using List.mem_rtakeWhile_imp hc

/-- A closed text and a text without breaks are what a text splits into. -/
theorem splitCompleted_of {completed trailing : List Char} (h : Closed isLineBreak completed)
    (h' : ∀ c ∈ trailing, isLineBreak c = false) :
    splitCompleted (completed ++ trailing) = (completed, trailing) := by
  have hdrop : ∀ c ∈ trailing.reverse, (!isLineBreak c) = true := by
    intro c hc
    rw [h' c (List.mem_reverse.mp hc)]
    rfl
  have hself : completed.rdropWhile (fun c => !isLineBreak c) = completed := by
    rw [List.rdropWhile_eq_self_iff]
    intro hne hlast
    rw [h _ (by rw [List.getLast?_eq_some_getLast hne]; rfl)] at hlast
    cases hlast
  have hnil : completed.rtakeWhile (fun c => !isLineBreak c) = [] := by
    rw [List.rtakeWhile_eq_nil_iff]
    intro hne hlast
    rw [h _ (by rw [List.getLast?_eq_some_getLast hne]; rfl)] at hlast
    cases hlast
  rw [splitCompleted, List.rdropWhile, List.rtakeWhile, List.reverse_append,
    List.dropWhile_append_of_pos hdrop, List.takeWhile_append_of_pos hdrop,
    List.reverse_append, List.reverse_reverse]
  rw [List.rdropWhile] at hself
  rw [List.rtakeWhile] at hnil
  rw [hself, hnil, List.nil_append]

/-- The pieces that are completed chunk by chunk. -/
def pieces : List Char → List (List Char) → List (List Char)
  | _, [] => []
  | pending, chunk :: chunks =>
    (splitCompleted (pending ++ chunk)).1 :: pieces (splitCompleted (pending ++ chunk)).2 chunks

theorem closed_pieces (pending : List Char) (chunks : List (List Char)) :
    ∀ piece ∈ pieces pending chunks, Closed isLineBreak piece := by
  induction chunks generalizing pending with
  | nil => exact fun _ hpiece => nomatch hpiece
  | cons chunk chunks ih =>
    intro piece hpiece
    rcases List.mem_cons.mp hpiece with rfl | hlater
    · exact closed_splitCompleted _
    · exact ih _ piece hlater

/-- **The pieces are the text up to its last break.** -/
theorem flatten_pieces {pending : List Char} (h : ∀ c ∈ pending, isLineBreak c = false)
    (chunks : List (List Char)) :
    (pieces pending chunks).flatten = (splitCompleted (pending ++ chunks.flatten)).1 := by
  induction chunks generalizing pending with
  | nil =>
    have hsplit := @splitCompleted_of [] pending (fun _ hc => nomatch hc) h
    rw [List.flatten_nil, List.append_nil]
    exact (congrArg Prod.fst hsplit).symm
  | cons chunk chunks ih =>
    have htrailing := not_isLineBreak_trailing (pending ++ chunk)
    have hrest := closed_splitCompleted ((splitCompleted (pending ++ chunk)).2 ++ chunks.flatten)
    have hwhole := splitCompleted_of ((closed_splitCompleted (pending ++ chunk)).append hrest)
      (not_isLineBreak_trailing ((splitCompleted (pending ++ chunk)).2 ++ chunks.flatten))
    rw [pieces, List.flatten_cons, ih htrailing]
    rw [List.append_assoc, splitCompleted_append, ← List.append_assoc, splitCompleted_append,
      List.append_assoc] at hwhole
    exact (congrArg Prod.fst hwhole).symm

variable {buffer : SessionFlushBuffer}

/-! ## What the lines make -/

section Run

variable {σ : Type} (protocol : Protocol σ) (provider : ProviderId) (sessionId : String)
  (stream : ProviderOutputStream)

/-- One line after those before it. -/
def normalizeAfter (state : NormalizedProviderResult × NormalizerSessionContext σ)
    (line : List Char) : NormalizedProviderResult × NormalizerSessionContext σ :=
  let out := normalizeLine protocol provider ⟨sessionId, stream, []⟩ line state.2
  (state.1.extend out.1, out.2)

/-- All lines, one after the other. -/
def normalizeAll (lines : List (List Char)) (context : NormalizerSessionContext σ) :
    NormalizedProviderResult × NormalizerSessionContext σ :=
  lines.foldl (normalizeAfter protocol provider sessionId stream) (.empty, context)

theorem foldl_normalizeAfter (lines : List (List Char))
    (state : NormalizedProviderResult × NormalizerSessionContext σ) :
    lines.foldl (normalizeAfter protocol provider sessionId stream) state =
      (state.1.extend (normalizeAll protocol provider sessionId stream lines state.2).1,
        (normalizeAll protocol provider sessionId stream lines state.2).2) := by
  induction lines generalizing state with
  | nil => simp [normalizeAll]
  | cons line lines ih =>
    have hcons : normalizeAll protocol provider sessionId stream (line :: lines) state.2 =
        lines.foldl (normalizeAfter protocol provider sessionId stream)
          (normalizeAfter protocol provider sessionId stream (.empty, state.2) line) := rfl
    rw [List.foldl_cons, ih, hcons, ih]
    simp [normalizeAfter, NormalizedProviderResult.extend_assoc]

theorem normalizeAll_append (lines lines' : List (List Char))
    (context : NormalizerSessionContext σ) :
    normalizeAll protocol provider sessionId stream (lines ++ lines') context =
      ((normalizeAll protocol provider sessionId stream lines context).1.extend
          (normalizeAll protocol provider sessionId stream lines'
            (normalizeAll protocol provider sessionId stream lines context).2).1,
        (normalizeAll protocol provider sessionId stream lines'
          (normalizeAll protocol provider sessionId stream lines context).2).2) := by
  rw [normalizeAll, List.foldl_append, foldl_normalizeAfter]
  rfl

/-- A line feed and a carriage return before it are trimmed anyway. -/
theorem content_lines (text : List Char) : (lines text).flatMap content = contentLines text := by
  rw [lines, List.flatMap_map]
  apply List.flatMap_congr
  intro line _
  have hdrop : ∀ {c : Char} {part : List Char}, isWhitespace c = true →
      part.getLast? = some c → content part.dropLast = content part := by
    intro c part hc hlast
    obtain ⟨rest, hrest⟩ := List.getLast?_eq_some_iff.mp hlast
    rw [hrest, List.dropLast_concat]
    exact (content_append_blank (by simpa using hc) rest).symm
  split
  · rename_i hfeed
    split
    · rename_i hreturn
      rw [hdrop (by decide) hreturn, hdrop (by decide) hfeed]
    · rw [hdrop (by decide) hfeed]
  · rfl

/-- **The normalizer takes a chunk by its lines.** -/
theorem normalizeProviderEvent_eq (event : ProviderOutputEvent)
    (context : NormalizerSessionContext σ) :
    normalizeProviderEvent protocol provider event context =
      normalizeAll protocol provider event.sessionId event.stream (contentLines event.message)
        context := by
  rw [normalizeProviderEvent, normalizeAll, ← content_lines]
  generalize (NormalizedProviderResult.empty, context) = state
  induction lines event.message generalizing state with
  | nil => rfl
  | cons line rest ih =>
    rw [List.foldl_cons, ih, List.flatMap_cons]
    rw [normalizeNext, content]
    split <;> rfl

/-! ## What the buffer gathers -/

/-- Events are in the order of their sequence numbers. -/
structure SessionFlushBuffer.InOrder (buffer : SessionFlushBuffer) : Prop where
  ascending : buffer.pendingEvents.Pairwise fun a b => a.sequence ≤ b.sequence
  bounded : ∀ pending ∈ buffer.pendingEvents, pending.sequence ≤ buffer.sequence

/-- Events that have been flushed or wait in the buffer. -/
def gatheredEvents (delta : Option Batch) (buffer : SessionFlushBuffer) :
    List PersistTimelineEventInput :=
  delta.toList.flatMap (·.events) ++ buffer.pendingEvents.map (·.event)

/-- Usage records that have been flushed or wait in the buffer. -/
def gatheredUsages (delta : Option Batch) (buffer : SessionFlushBuffer) : List NormalizedUsage :=
  delta.toList.flatMap (·.usages) ++ buffer.pendingUsages

/-- A flush takes all there is. -/
theorem flushSessionBuffer_spec (h : buffer.InOrder) :
    (flushSessionBuffer buffer).2.InOrder ∧
      (flushSessionBuffer buffer).2.pendingEvents = [] ∧
      (flushSessionBuffer buffer).2.pendingUsages = [] ∧
      (flushSessionBuffer buffer).1.delta.toList.flatMap (·.events) =
        buffer.pendingEvents.map (·.event) ∧
      (flushSessionBuffer buffer).1.delta.toList.flatMap (·.usages) = buffer.pendingUsages := by
  have hdelta : ∀ {β : Type} (batch : Batch) (f : Batch → List β), f .empty = [] →
      batch.delta.toList.flatMap f = f batch := by
    intro β batch f hempty
    rw [Batch.delta]
    split
    · rename_i heq
      rw [heq, hempty]
      rfl
    · simp
  rw [flushSessionBuffer]
  split
  · rename_i hempty
    simp only [SessionFlushBuffer.isEmpty, Bool.and_eq_true, List.isEmpty_iff] at hempty
    obtain ⟨⟨⟨⟨hevents, _⟩, husages⟩, _⟩, _⟩ := hempty
    refine ⟨h, hevents, husages, ?_, ?_⟩
    · rw [hevents]
      rfl
    · rw [husages]
      rfl
  · have hsorted : (buffer.pendingEvents.mergeSort fun a b =>
        decide (a.sequence ≤ b.sequence)) = buffer.pendingEvents := by
      apply List.mergeSort_of_pairwise
      exact h.ascending.imp fun hle => decide_eq_true hle
    refine ⟨⟨List.Pairwise.nil, fun _ hpending => nomatch hpending⟩, rfl, rfl, ?_, ?_⟩
    · rw [hdelta _ _ rfl, hsorted]
    · rw [hdelta _ _ rfl]

/-- A flush loses nothing of what is gathered. -/
theorem flushWhen_spec (immediately : Bool) (h : buffer.InOrder) :
    (flushWhen immediately buffer).2.InOrder ∧
      gatheredEvents (flushWhen immediately buffer).1 (flushWhen immediately buffer).2 =
        buffer.pendingEvents.map (·.event) ∧
      gatheredUsages (flushWhen immediately buffer).1 (flushWhen immediately buffer).2 =
        buffer.pendingUsages := by
  rw [flushWhen]
  split
  · obtain ⟨horder, hevents, husages, hflushed, hflushed'⟩ := flushSessionBuffer_spec h
    refine ⟨horder, ?_, ?_⟩
    · rw [gatheredEvents, hevents, hflushed, List.map_nil, List.append_nil]
    · rw [gatheredUsages, husages, hflushed', List.append_nil]
  · exact ⟨h, rfl, rfl⟩

theorem queueTimelineEvents_spec (events : List PersistTimelineEventInput)
    (providerInvocationId : String) (h : buffer.InOrder) :
    let buffer' := events.foldl (fun buffer event =>
      buffer.queueTimelineEvent (attachProviderInvocationId event providerInvocationId)) buffer
    buffer'.InOrder ∧ buffer'.pendingUsages = buffer.pendingUsages ∧
      buffer'.pendingEvents.map (·.event) = buffer.pendingEvents.map (·.event) ++
        events.map fun event => attachProviderInvocationId event providerInvocationId := by
  induction events generalizing buffer with
  | nil => simpa using h
  | cons event events ih =>
    have hnext : (buffer.queueTimelineEvent
        (attachProviderInvocationId event providerInvocationId)).InOrder := by
      rw [SessionFlushBuffer.queueTimelineEvent]
      refine ⟨?_, ?_⟩
      · rw [List.pairwise_append]
        refine ⟨h.ascending, List.pairwise_singleton _ _, ?_⟩
        intro pending hpending last hlast
        rw [List.mem_singleton.mp hlast]
        exact (h.bounded pending hpending).trans (Nat.le_succ _)
      · intro pending hpending
        rcases List.mem_append.mp hpending with hold | hnew
        · exact (h.bounded pending hold).trans (Nat.le_succ _)
        · rw [List.mem_singleton.mp hnew]
    obtain ⟨horder, husages, hevents⟩ := ih hnext
    refine ⟨horder, husages, ?_⟩
    rw [List.foldl_cons, hevents]
    simp [SessionFlushBuffer.queueTimelineEvent]

theorem foldl_queueUsage (usages : List NormalizedUsage) (buffer : SessionFlushBuffer) :
    usages.foldl (fun buffer usage => buffer.queueUsage usage) buffer =
      { buffer with pendingUsages := buffer.pendingUsages ++ usages } := by
  induction usages generalizing buffer with
  | nil => simp
  | cons usage usages ih =>
    rw [List.foldl_cons, ih]
    simp [SessionFlushBuffer.queueUsage]

theorem foldl_queueApproval (approvals : List NormalizedApprovalRequest)
    (providerInvocationId : String) (buffer : SessionFlushBuffer) :
    ∃ pendingApprovals, approvals.foldl (fun buffer approval =>
      buffer.queueApprovalForInvocation approval providerInvocationId) buffer =
      { buffer with pendingApprovals := pendingApprovals } := by
  induction approvals generalizing buffer with
  | nil => exact ⟨_, rfl⟩
  | cons approval approvals ih =>
    obtain ⟨pendingApprovals, hrest⟩ :=
      ih (buffer.queueApprovalForInvocation approval providerInvocationId)
    rw [List.foldl_cons, hrest]
    exact ⟨pendingApprovals, rfl⟩

/-- What a result of the normalizer adds to the buffer. -/
theorem ingestNormalizedResult_spec (h : buffer.InOrder) (providerInvocationId : String)
    (result : NormalizedProviderResult) :
    (ingestNormalizedResult buffer providerInvocationId result).1.InOrder ∧
      (ingestNormalizedResult buffer providerInvocationId result).1.pendingEvents.map (·.event) =
        buffer.pendingEvents.map (·.event) ++
          result.events.map (attachProviderInvocationId · providerInvocationId) ∧
      (ingestNormalizedResult buffer providerInvocationId result).1.pendingUsages =
        buffer.pendingUsages ++ result.usages := by
  obtain ⟨horder, husages, hevents⟩ :=
    queueTimelineEvents_spec result.events providerInvocationId h
  rw [ingestNormalizedResult]
  rw [foldl_queueUsage]
  obtain ⟨pendingApprovals, happrovals⟩ := foldl_queueApproval result.approvals
    providerInvocationId (if result.permissionBlocked then _ else _)
  rw [happrovals]
  split
  · exact ⟨⟨horder.ascending, horder.bounded⟩, hevents, by rw [← husages]⟩
  · exact ⟨⟨horder.ascending, horder.bounded⟩, hevents, by rw [← husages]⟩

/-- **One chunk.** The piece it completes is normalized; the buffer gathers the rest of
what there is. -/
theorem queueOutputToSession_spec {session : ProviderFlushSession σ}
    (h : session.buffer.InOrder) (chunk : List Char) :
    let pending := session.streamBuffers stream ++ chunk
    let out := normalizeAll protocol session.provider sessionId stream
      (contentLines (splitCompleted pending).1) session.normalizerContext
    let step := queueOutputToSession protocol session session.providerInvocationId
      ⟨sessionId, stream, chunk⟩
    step.2.buffer.InOrder ∧ step.2.provider = session.provider ∧
      step.2.providerInvocationId = session.providerInvocationId ∧
      step.2.streamBuffers stream = (splitCompleted pending).2 ∧
      step.2.normalizerContext = out.2 ∧
      gatheredEvents step.1.delta step.2.buffer =
        session.buffer.pendingEvents.map (·.event) ++
          out.1.events.map (attachProviderInvocationId · session.providerInvocationId) ∧
      gatheredUsages step.1.delta step.2.buffer = session.buffer.pendingUsages ++ out.1.usages ∧
      step.1.providerConversationId = out.1.providerConversationId := by
  intro pending out step
  have hraw : (session.buffer.queueRawOutput ⟨sessionId, stream.asStr, chunk⟩).InOrder :=
    ⟨h.ascending, h.bounded⟩
  by_cases hcompleted : (splitCompleted pending).1 = []
  · have hout : out = (.empty, session.normalizerContext) := by
      change normalizeAll protocol session.provider sessionId stream
        (contentLines (splitCompleted pending).1) session.normalizerContext = _
      rw [hcompleted]
      rfl
    have hsplit := splitCompleted_append pending
    rw [hcompleted, List.nil_append] at hsplit
    have hstep : step = (⟨none, none, true, true⟩,
        { setStreamBuffer session stream pending with
          buffer := session.buffer.queueRawOutput ⟨sessionId, stream.asStr, chunk⟩ }) := by
      exact if_pos (by rw [List.isEmpty_iff]; exact hcompleted)
    rw [hstep, hout, hsplit]
    refine ⟨hraw, rfl, rfl, if_pos rfl, rfl, ?_, ?_, rfl⟩
    · simp [gatheredEvents, SessionFlushBuffer.queueRawOutput, NormalizedProviderResult.empty]
    · simp [gatheredUsages, SessionFlushBuffer.queueRawOutput, NormalizedProviderResult.empty]
  · have hout : normalizeProviderEvent protocol session.provider
        ⟨sessionId, stream, (splitCompleted pending).1⟩ session.normalizerContext = out :=
      normalizeProviderEvent_eq protocol session.provider _ _
    obtain ⟨horder, hevents, husages⟩ := ingestNormalizedResult_spec hraw
      session.providerInvocationId out.1
    obtain ⟨horder', hevents', husages'⟩ :=
      flushWhen_spec (normalizedResultRequiresImmediateFlush out.1) horder
    let flushed := flushWhen (normalizedResultRequiresImmediateFlush out.1)
      (ingestNormalizedResult
        (session.buffer.queueRawOutput ⟨sessionId, stream.asStr, chunk⟩)
        session.providerInvocationId out.1).1
    have hstep : step =
        (⟨flushed.1, out.1.providerConversationId, !flushed.2.isEmpty,
            !(trim (splitCompleted pending).2).isEmpty⟩,
          { setStreamBuffer session stream (splitCompleted pending).2 with
            normalizerContext := out.2
            buffer := flushed.2 }) := by
      change queueOutputToSession protocol session session.providerInvocationId
        ⟨sessionId, stream, chunk⟩ = _
      rw [queueOutputToSession]
      refine (if_neg (by rw [List.isEmpty_iff]; exact hcompleted)).trans ?_
      simp only [flushed]
      rw [← hout]
      rfl
    rw [hstep]
    refine ⟨horder', rfl, rfl, if_pos rfl, rfl, ?_, ?_, rfl⟩
    · rw [hevents', hevents]
      rfl
    · rw [husages', husages]
      rfl

/-! ## Runs -/

/-- The chunks of a text, queued one after the other. -/
def writeChunks (queue : ProviderEventFlushQueue σ) (providerInvocationId : String) :
    List (List Char) → List QueueOutputResult × ProviderEventFlushQueue σ
  | [] => ([], queue)
  | chunk :: chunks =>
    let (result, queue) :=
      queueOutputEvent protocol queue providerInvocationId ⟨sessionId, stream, chunk⟩
    let (results, queue) := writeChunks queue providerInvocationId chunks
    (result :: results, queue)

/-- What has reached the buffer of a session, with the conversation reported last. -/
structure Delivered where
  events : List PersistTimelineEventInput
  usages : List NormalizedUsage
  providerConversationId : Option String

/-- What reaches the buffer from the chunks of a text, up to the flush at its end. -/
def delivered (queue : ProviderEventFlushQueue σ) (providerInvocationId : String)
    (chunks : List (List Char)) : Delivered :=
  let (results, queue) := writeChunks protocol sessionId stream queue providerInvocationId chunks
  let batches :=
    results.filterMap (·.delta) ++ (flushPendingOutput queue sessionId).1.toList
  { events := batches.flatMap (·.events)
    usages := batches.flatMap (·.usages)
    providerConversationId := (results.filterMap (·.providerConversationId)).getLast? }

theorem flatMap_filterMap_cons {β : Type} (f : Batch → List β) (result : QueueOutputResult)
    (results : List QueueOutputResult) :
    ((result :: results).filterMap (·.delta)).flatMap f =
      result.delta.toList.flatMap f ++ (results.filterMap (·.delta)).flatMap f := by
  cases hdelta : result.delta with
  | none => simp [hdelta]
  | some batch => simp [hdelta]

theorem getLast?_filterMap_cons (result : QueueOutputResult)
    (results : List QueueOutputResult) :
    ((result :: results).filterMap (·.providerConversationId)).getLast? =
      (results.filterMap (·.providerConversationId)).getLast?.or result.providerConversationId := by
  cases hid : result.providerConversationId with
  | none => simp [hid]
  | some id =>
    rw [List.filterMap_cons_some hid, List.getLast?_cons]
    cases (results.filterMap (·.providerConversationId)).getLast? <;> rfl

theorem delivered_cons (queue : ProviderEventFlushQueue σ) (providerInvocationId : String)
    (chunk : List Char) (chunks : List (List Char)) :
    let step := queueOutputEvent protocol queue providerInvocationId ⟨sessionId, stream, chunk⟩
    let rest := delivered protocol sessionId stream step.2 providerInvocationId chunks
    delivered protocol sessionId stream queue providerInvocationId (chunk :: chunks) =
      { events := step.1.delta.toList.flatMap (·.events) ++ rest.events
        usages := step.1.delta.toList.flatMap (·.usages) ++ rest.usages
        providerConversationId :=
          rest.providerConversationId.or step.1.providerConversationId } := by
  intro step rest
  have hevents : ∀ {β : Type} (f : Batch → List β) (results : List QueueOutputResult)
      (final : List Batch), ((step.1 :: results).filterMap (·.delta) ++ final).flatMap f =
        step.1.delta.toList.flatMap f ++ (results.filterMap (·.delta) ++ final).flatMap f := by
    intro β f results final
    rw [List.flatMap_append, List.flatMap_append, flatMap_filterMap_cons, List.append_assoc]
  rw [delivered, writeChunks]
  dsimp only
  rw [hevents, hevents, getLast?_filterMap_cons]
  rfl

/-- **A run.** What is delivered comes of the lines of the pieces. -/
theorem delivered_eq {queue : ProviderEventFlushQueue σ} {session : ProviderFlushSession σ}
    (hqueue : queue sessionId = some session) (h : session.buffer.InOrder)
    (chunks : List (List Char)) :
    let out := normalizeAll protocol session.provider sessionId stream
      ((pieces (session.streamBuffers stream) chunks).flatMap contentLines)
      session.normalizerContext
    delivered protocol sessionId stream queue session.providerInvocationId chunks =
      { events := session.buffer.pendingEvents.map (·.event) ++
          out.1.events.map (attachProviderInvocationId · session.providerInvocationId)
        usages := session.buffer.pendingUsages ++ out.1.usages
        providerConversationId := out.1.providerConversationId } := by
  induction chunks generalizing queue session with
  | nil =>
    obtain ⟨_, _, _, hevents, husages⟩ := flushSessionBuffer_spec h
    have hflush : (flushPendingOutput queue sessionId).1 =
        (flushSessionBuffer session.buffer).1.delta := by
      rw [flushPendingOutput, hqueue]
    rw [delivered, writeChunks]
    dsimp only
    rw [hflush, List.filterMap_nil, List.nil_append, hevents, husages]
    simp [pieces, normalizeAll, NormalizedProviderResult.empty]
  | cons chunk chunks ih =>
    obtain ⟨horder, hprovider, hinvocation, hstream, hcontext, hevents, husages, hid⟩ :=
      queueOutputToSession_spec protocol sessionId stream h chunk
    have hstep : queueOutputEvent protocol queue session.providerInvocationId
        ⟨sessionId, stream, chunk⟩ =
        ((queueOutputToSession protocol session session.providerInvocationId
            ⟨sessionId, stream, chunk⟩).1,
          fun other => if other = sessionId then
            some (queueOutputToSession protocol session session.providerInvocationId
              ⟨sessionId, stream, chunk⟩).2 else queue other) := by
      rw [queueOutputEvent, hqueue]
      exact if_pos rfl
    generalize queueOutputToSession protocol session session.providerInvocationId
      ⟨sessionId, stream, chunk⟩ = step at *
    have hrest := @ih (fun other => if other = sessionId then some step.2 else queue other)
      step.2 (if_pos rfl) horder
    rw [hprovider, hinvocation, hstream, hcontext] at hrest
    rw [delivered_cons, hstep]
    rw [hrest, pieces, List.flatMap_cons, normalizeAll_append]
    rw [← List.append_assoc, ← List.append_assoc, ← gatheredEvents, ← gatheredUsages, hevents,
      husages, hid]
    simp [NormalizedProviderResult.extend]

end Run

/-! ## Chunk boundaries -/

theorem initializeSession_self {σ : Type} (queue : ProviderEventFlushQueue σ)
    (sessionId providerInvocationId : String) (provider : ProviderId)
    (context : NormalizerSessionContext σ) :
    initializeSession queue sessionId provider providerInvocationId context sessionId =
      some ⟨provider, providerInvocationId, context, fun _ => [], .new⟩ :=
  if_pos rfl

/-- Pieces that end with breaks come out one by one. -/
theorem pieces_of_closed {chunks : List (List Char)}
    (h : ∀ chunk ∈ chunks, Closed isLineBreak chunk) {trailing : List Char}
    (h' : ∀ c ∈ trailing, isLineBreak c = false) :
    pieces [] (chunks ++ [trailing]) = chunks ++ [[]] := by
  induction chunks with
  | nil =>
    have hsplit := @splitCompleted_of [] trailing (fun _ hc => nomatch hc) h'
    rw [List.nil_append] at hsplit
    rw [List.nil_append, pieces, List.nil_append, hsplit]
    rfl
  | cons chunk chunks ih =>
    have hsplit := @splitCompleted_of chunk [] (h chunk List.mem_cons_self) (fun _ hc => nomatch hc)
    rw [List.append_nil] at hsplit
    rw [List.cons_append, pieces, List.nil_append, hsplit,
      ih fun other hother => h other (List.mem_cons_of_mem _ hother)]
    rfl

/-- A stretch is one line. -/
theorem contentLines_of_mem_segments {text stretch : List Char}
    (h : stretch ∈ segments isLineBreak text) : contentLines stretch = content stretch := by
  have hfeed : ∀ c ∈ stretch.dropLast, (c == '\n') = false := by
    intro c hc
    have hbreak := not_delimiter_of_mem_dropLast h c hc
    rw [isLineBreak, Bool.or_eq_false_iff] at hbreak
    exact hbreak.1
  rw [contentLines, segments_eq_singleton hfeed (ne_nil_of_mem_segments h), List.flatMap_cons,
    List.flatMap_nil, List.append_nil]

/-- A protocol of which every line is an event. -/
def everyLine : Protocol Unit where
  fromStr := fun _ => some (.object [])
  tracingRecord := fun _ => none
  normalizeJsonPayload := fun _ sessionId _ _ context =>
    (normalized ⟨sessionId, "message.delta", "", .object []⟩, context)

theorem length_events_everyLine (provider : ProviderId) (sessionId : String)
    (stream : ProviderOutputStream) (lines : List (List Char))
    (context : NormalizerSessionContext Unit) :
    (normalizeAll everyLine provider sessionId stream lines context).1.events.length =
      lines.length := by
  induction lines generalizing context with
  | nil => rfl
  | cons line lines ih =>
    have hone : (normalizeLine everyLine provider ⟨sessionId, stream, []⟩ line
        context).1.events.length = 1 := by
      rw [normalizeLine]
      split <;> rfl
    rw [normalizeAll, List.foldl_cons, foldl_normalizeAfter, normalizeAfter]
    simp only [NormalizedProviderResult.extend, NormalizedProviderResult.empty, List.nil_append,
      List.length_append, ih, List.length_cons]
    omega

/-- **What reaches the buffer does not depend on the chunks of a text, if and only if no
line of the text that is complete has two stretches.** -/
theorem delivered_same_iff (text : List Char) :
    (∀ (σ : Type) (protocol : Protocol σ) (queue : ProviderEventFlushQueue σ)
      (provider : ProviderId) (sessionId providerInvocationId : String)
      (stream : ProviderOutputStream) (context : NormalizerSessionContext σ)
      (chunks chunks' : List (List Char)), chunks.flatten = text → chunks'.flatten = text →
        delivered protocol sessionId stream
            (initializeSession queue sessionId provider providerInvocationId context)
            providerInvocationId chunks =
          delivered protocol sessionId stream
            (initializeSession queue sessionId provider providerInvocationId context)
            providerInvocationId chunks') ↔
      OneStretch (splitCompleted text).1 := by
  have horder : SessionFlushBuffer.new.InOrder :=
    ⟨List.Pairwise.nil, fun _ hpending => nomatch hpending⟩
  have hrun := fun {σ : Type} (protocol : Protocol σ) queue provider sessionId invocation stream
    (context : NormalizerSessionContext σ) chunks => delivered_eq protocol sessionId stream
      (initializeSession_self queue sessionId invocation provider context) horder chunks
  constructor
  · intro hsame
    apply oneStretch_of_length
    have hclosed : ∀ stretch ∈ segments isLineBreak (splitCompleted text).1,
        Closed isLineBreak stretch := by
      intro stretch hstretch
      exact closed_of_mem_segments (closed_splitCompleted text) hstretch
    have hchunks : (segments isLineBreak (splitCompleted text).1 ++
        [(splitCompleted text).2]).flatten = text := by
      rw [List.flatten_append, flatten_segments, List.flatten_cons, List.flatten_nil,
        List.append_nil, splitCompleted_append]
    have hdelivered := hsame Unit everyLine (fun _ => none) .claude "" "" .stdout ⟨.none, ()⟩
      [text] _ (by simp) hchunks
    rw [hrun, hrun] at hdelivered
    have hlength := congrArg (fun delivered => delivered.events.length) hdelivered
    simp only [List.length_append, List.length_map, length_events_everyLine] at hlength
    rw [pieces_of_closed hclosed (not_isLineBreak_trailing text)] at hlength
    have hlines : (segments isLineBreak (splitCompleted text).1 ++ [[]]).flatMap contentLines =
        stretches (splitCompleted text).1 := by
      rw [List.flatMap_append, List.flatMap_congr fun _ hstretch =>
        contentLines_of_mem_segments hstretch]
      simp [stretches, contentLines]
    have hpieces : (pieces [] [text]).flatMap contentLines =
        contentLines (splitCompleted text).1 := by
      simp [pieces]
    rw [hlines, hpieces] at hlength
    omega
  · intro hone σ protocol queue provider sessionId invocation stream context chunks chunks'
      hchunks hchunks'
    have hlines : ∀ {chunks : List (List Char)}, chunks.flatten = text →
        (pieces [] chunks).flatMap contentLines = stretches (splitCompleted text).1 := by
      intro chunks hchunks
      have hflatten := @flatten_pieces [] (fun _ hc => nomatch hc) chunks
      rw [List.nil_append, hchunks] at hflatten
      rw [flatMap_contentLines (closed_pieces [] chunks) (by rw [hflatten]; exact hone), hflatten]
    rw [hrun, hrun, hlines hchunks, hlines hchunks']

/-- A carriage return alone: one line where the text comes as a whole, two where it is
cut behind the return. -/
theorem delivered_differs :
    let protocol : Protocol Unit :=
      ⟨fun _ => none, fun _ => none, fun _ _ _ _ context => (.empty, context)⟩
    let queue : ProviderEventFlushQueue Unit :=
      initializeSession (fun _ => none) "s" .claude "i" ⟨.none, ()⟩
    (delivered protocol "s" .stdout queue "i" ["10%\r20%\n".toList]).events.map (·.message) =
        ["10%\r20%"] ∧
      (delivered protocol "s" .stdout queue "i" ["10%\r".toList, "20%\n".toList]).events.map
        (·.message) = ["10%", "20%"] := by
  intro protocol queue
  have horder : SessionFlushBuffer.new.InOrder :=
    ⟨List.Pairwise.nil, fun _ hpending => nomatch hpending⟩
  have hrun := fun chunks => delivered_eq protocol "s" .stdout
    (initializeSession_self (fun _ => none) "s" "i" .claude ⟨.none, ()⟩) horder chunks
  constructor
  · rw [hrun]
    decide
  · rw [hrun]
    decide

end Argmax.Providers
