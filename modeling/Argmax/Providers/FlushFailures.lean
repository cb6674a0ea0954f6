import Argmax.Providers.ApprovalFlush

/-!
# Conversation ids and failing flushes

The queue of `providers/flush_queue.rs` when its flushes may fail. The id that a line of a
provider reports for its conversation is what `queue_output_event` returns, beside the delta
of a flush that the same lines may call for. The error of such a flush is returned in place
of both. The fragments that `flush_trailing_fragments` takes for lines report as well.

What the end of a Cursor process makes of the answer so far is a parameter, and so is the
order in which the map of the streams is iterated.
-/

namespace Argmax.Providers

open Argmax.Lib Argmax.Lib.Text
open Argmax.ApprovalFlush (restored)

/-! ## Flushes -/

/-- `flush_session_buffer`, whose transaction may fail. -/
def flushSessionBufferOr (failure : Option ArgmaxError) (buffer : SessionFlushBuffer) :
    ArgmaxResult Batch × SessionFlushBuffer :=
  if buffer.isEmpty then (.ok .empty, buffer)
  else
    match failure with
    | some error => (.error error, restored buffer)
    | none =>
      let (batch, buffer) := flushSessionBuffer buffer
      (.ok batch, buffer)

/-- The order in which the streams come. -/
def StreamOrder : Type :=
  { order : List ProviderOutputStream // order.Perm [.stdout, .stderr, .pty, .system] }

def isIncompleteJsonLine {σ : Type} (protocol : Protocol σ) (fragment : List Char) : Bool :=
  let trimmed := trim fragment
  if trimmed.head? ≠ some '{' ∨ jsonParseLineCap < byteLength fragment then false
  else trimmed.getLast? ≠ some '}' || (protocol.fromStr trimmed).isNone

section Queue

variable {σ : Type} (protocol : Protocol σ)
  (synthesizeMessageCompletedFromExit : ProviderOutputEvent → NormalizerSessionContext σ →
    Option PersistTimelineEventInput × NormalizerSessionContext σ)

def setSession (queue : ProviderEventFlushQueue σ) (sessionId : String)
    (session : ProviderFlushSession σ) : ProviderEventFlushQueue σ :=
  fun other => if other = sessionId then some session else queue other

def deleteSession (queue : ProviderEventFlushQueue σ) (sessionId : String) :
    ProviderEventFlushQueue σ :=
  fun other => if other = sessionId then none else queue other

/-- The session of an invocation, when it is the current one. -/
def currentSession (queue : ProviderEventFlushQueue σ) (sessionId invocationId : String) :
    Option (ProviderFlushSession σ) :=
  (queue sessionId).filter fun session => session.providerInvocationId == invocationId

/-- The text of a stream that is complete with this chunk, and what trails. -/
def completedOf (session : ProviderFlushSession σ) (event : ProviderOutputEvent) :
    List Char × List Char :=
  splitCompleted (session.streamBuffers event.stream ++ event.message)

/-- What the normalizer makes of the text that is complete with this chunk. -/
def normalizedOf (session : ProviderFlushSession σ) (event : ProviderOutputEvent) :
    NormalizedProviderResult × NormalizerSessionContext σ :=
  normalizeProviderEvent protocol session.provider
    { event with message := (completedOf session event).1 } session.normalizerContext

/-- `queue_output_event`, of the session of the event. -/
def queueOutputToSessionOr (failure : Option ArgmaxError) (session : ProviderFlushSession σ)
    (providerInvocationId : String) (event : ProviderOutputEvent) :
    ArgmaxResult QueueOutputResult × ProviderFlushSession σ :=
  let buffer := session.buffer.queueRawOutput ⟨event.sessionId, event.stream.asStr, event.message⟩
  let pending := session.streamBuffers event.stream ++ event.message
  let (completed, trailing) := completedOf session event
  if completed.isEmpty then
    (.ok ⟨none, none, true, true⟩,
      { setStreamBuffer session event.stream pending with buffer := buffer })
  else
    let (normalized, context) := normalizedOf protocol session event
    let (buffer, providerConversationId) :=
      ingestNormalizedResult buffer providerInvocationId normalized
    let (flushed, buffer) :=
      if normalizedResultRequiresImmediateFlush normalized then
        flushSessionBufferOr failure buffer
      else (.ok .empty, buffer)
    let result := flushed.map fun delta =>
      ⟨delta.delta, providerConversationId, !buffer.isEmpty, !(trim trailing).isEmpty⟩
    (result, { setStreamBuffer session event.stream trailing with
      normalizerContext := context
      buffer := buffer })

/-- `queue_output_event`. -/
def queueOutputEventOr (failure : Option ArgmaxError) (queue : ProviderEventFlushQueue σ)
    (providerInvocationId : String) (event : ProviderOutputEvent) :
    ArgmaxResult QueueOutputResult × ProviderEventFlushQueue σ :=
  match currentSession queue event.sessionId providerInvocationId with
  | some session =>
    let (result, session) :=
      queueOutputToSessionOr protocol failure session providerInvocationId event
    (result, setSession queue event.sessionId session)
  | none => (.ok ⟨none, none, false, false⟩, queue)

/-- `flush_pending_output`. -/
def flushPendingOutputOr (failure : Option ArgmaxError) (queue : ProviderEventFlushQueue σ)
    (sessionId : String) : ArgmaxResult (Option Batch) × ProviderEventFlushQueue σ :=
  match queue sessionId with
  | some session =>
    let (result, buffer) := flushSessionBufferOr failure session.buffer
    (result.map Batch.delta, setSession queue sessionId { session with buffer := buffer })
  | none => (.ok none, queue)

/-- The body of the loop over the fragments. -/
def flushFragment (synthesizeCursorExit : Bool) (sessionId : String)
    (fragments : ProviderOutputStream → List Char) (session : ProviderFlushSession σ)
    (stream : ProviderOutputStream) : ProviderFlushSession σ :=
  let fragment := fragments stream
  if (trim fragment).isEmpty then session
  else if isIncompleteJsonLine protocol fragment && !synthesizeCursorExit then
    setStreamBuffer session stream fragment
  else
    let (normalized, context) := normalizeProviderEvent protocol session.provider
      ⟨sessionId, stream, fragment ++ ['\n']⟩ session.normalizerContext
    { session with
      normalizerContext := context
      buffer :=
        (ingestNormalizedResult session.buffer session.providerInvocationId normalized).1 }

/-- The event that the exit of a Cursor process completes the turn with. -/
def synthesizeExit (synthesizeCursorExit : Bool) (sessionId : String)
    (session : ProviderFlushSession σ) : ProviderFlushSession σ :=
  if synthesizeCursorExit && session.provider == .cursor then
    let (event, context) := synthesizeMessageCompletedFromExit ⟨sessionId, .stdout, []⟩
      session.normalizerContext
    { session with
      normalizerContext := context
      buffer := event.elim session.buffer session.buffer.queueTimelineEvent }
  else session

/-- The session as the loop over the fragments meets it. -/
def withoutFragments (session : ProviderFlushSession σ) : ProviderFlushSession σ :=
  { session with streamBuffers := fun _ => [] }

def flushTrailingFragments (failure : Option ArgmaxError) (queue : ProviderEventFlushQueue σ)
    (sessionId : String) (synthesizeCursorExit : Bool) (order : StreamOrder) :
    ArgmaxResult (Option Batch) × ProviderEventFlushQueue σ :=
  match queue sessionId with
  | some session =>
    let session := synthesizeExit synthesizeMessageCompletedFromExit synthesizeCursorExit sessionId
      session
    let session := order.1.foldl
      (flushFragment protocol synthesizeCursorExit sessionId session.streamBuffers)
      (withoutFragments session)
    let (result, buffer) := flushSessionBufferOr failure session.buffer
    (result.map Batch.delta, setSession queue sessionId { session with buffer := buffer })
  | none => (.ok none, queue)

/-! ## Calls without failures -/

/-! ## Reports -/

/-- The conversation ids that lines report, in their order. -/
def lineReports (provider : ProviderId) (event : ProviderOutputEvent) :
    List (List Char) → NormalizerSessionContext σ → List String
  | [], _ => []
  | rawLine :: rawLines, context =>
    if (trim rawLine).isEmpty then lineReports provider event rawLines context
    else
      let (out, context) := normalizeLine protocol provider event (trim rawLine) context
      out.providerConversationId.toList ++ lineReports provider event rawLines context

/-- The conversation ids that the lines of a text report. -/
def reports (provider : ProviderId) (event : ProviderOutputEvent)
    (context : NormalizerSessionContext σ) : List String :=
  lineReports protocol provider event (lines event.message) context

theorem foldl_normalizeNext (provider : ProviderId) (event : ProviderOutputEvent)
    (rawLines : List (List Char)) (result : NormalizedProviderResult)
    (context : NormalizerSessionContext σ) :
    (rawLines.foldl (fun state rawLine => normalizeNext protocol provider event rawLine state)
      (result, context)).1.providerConversationId =
      (lineReports protocol provider event rawLines context).getLast?.or
        result.providerConversationId := by
  induction rawLines generalizing result context with
  | nil => simp [lineReports]
  | cons rawLine rawLines ih =>
    rw [List.foldl_cons, lineReports, normalizeNext]
    by_cases hblank : (trim rawLine).isEmpty = true
    · simp only [hblank]
      exact ih result context
    · simp only [hblank, if_false, Bool.false_eq_true]
      rw [ih]
      cases hid : (normalizeLine protocol provider event (trim rawLine)
          context).1.providerConversationId with
      | none => simp [NormalizedProviderResult.extend, hid]
      | some id =>
        simp only [NormalizedProviderResult.extend, hid, Option.toList_some, List.singleton_append,
          List.getLast?_cons]
        cases (lineReports protocol provider event rawLines (normalizeLine protocol provider event
          (trim rawLine) context).2).getLast? <;> rfl

/-- **The normalizer's result has the id that was reported last.** -/
theorem normalizeProviderEvent_id (provider : ProviderId) (event : ProviderOutputEvent)
    (context : NormalizerSessionContext σ) :
    (normalizeProviderEvent protocol provider event context).1.providerConversationId =
      (reports protocol provider event context).getLast? := by
  rw [normalizeProviderEvent, foldl_normalizeNext]
  simp [reports, NormalizedProviderResult.empty]

/-- What the lines that are complete with a chunk report. -/
def chunkReports (session : ProviderFlushSession σ) (event : ProviderOutputEvent) : List String :=
  reports protocol session.provider { event with message := (completedOf session event).1 }
    session.normalizerContext

/-- The lines that are complete with a chunk call for a flush. -/
def chunkFlushes (session : ProviderFlushSession σ) (event : ProviderOutputEvent) : Bool :=
  normalizedResultRequiresImmediateFlush (normalizedOf protocol session event).1

/-- What a fragment reports when it is taken for a line. -/
def fragmentReports (synthesizeCursorExit : Bool) (sessionId : String)
    (fragments : ProviderOutputStream → List Char) (session : ProviderFlushSession σ)
    (stream : ProviderOutputStream) : List String :=
  let fragment := fragments stream
  if (trim fragment).isEmpty || isIncompleteJsonLine protocol fragment && !synthesizeCursorExit then
    []
  else
    reports protocol session.provider ⟨sessionId, stream, fragment ++ ['
']⟩
      session.normalizerContext

/-- What the fragments of a session report. -/
def trailingReports (synthesizeCursorExit : Bool) (sessionId : String) (order : StreamOrder)
    (session : ProviderFlushSession σ) : List String :=
  let session := synthesizeExit synthesizeMessageCompletedFromExit synthesizeCursorExit sessionId
    session
  collected (flushFragment protocol synthesizeCursorExit sessionId session.streamBuffers)
    (fragmentReports protocol synthesizeCursorExit sessionId session.streamBuffers)
    (withoutFragments session) order.1

/-! ## Runs -/

end Queue

/-- A call of the queue. A failure is the error of the flush that the call may come to. -/
inductive QueueCall (σ : Type) where
  | initializeSession (sessionId : String) (provider : ProviderId) (providerInvocationId : String)
      (normalizerContext : NormalizerSessionContext σ)
  | deleteSession (sessionId : String)
  | queueOutputEvent (providerInvocationId : String) (event : ProviderOutputEvent)
      (failure : Option ArgmaxError)
  | flushPendingOutput (sessionId : String) (failure : Option ArgmaxError)
  | flushTrailingFragments (sessionId : String) (synthesizeCursorExit : Bool) (order : StreamOrder)
      (failure : Option ArgmaxError)

section Queue

variable {σ : Type} (protocol : Protocol σ)
  (synthesizeMessageCompletedFromExit : ProviderOutputEvent → NormalizerSessionContext σ →
    Option PersistTimelineEventInput × NormalizerSessionContext σ)

def stepQueue (queue : ProviderEventFlushQueue σ) : QueueCall σ → ProviderEventFlushQueue σ
  | .initializeSession sessionId provider providerInvocationId normalizerContext =>
    initializeSession queue sessionId provider providerInvocationId normalizerContext
  | .deleteSession sessionId => deleteSession queue sessionId
  | .queueOutputEvent providerInvocationId event failure =>
    (queueOutputEventOr protocol failure queue providerInvocationId event).2
  | .flushPendingOutput sessionId failure => (flushPendingOutputOr failure queue sessionId).2
  | .flushTrailingFragments sessionId synthesizeCursorExit order failure =>
    (flushTrailingFragments protocol synthesizeMessageCompletedFromExit failure queue sessionId
      synthesizeCursorExit order).2

/-- The ids that the lines of a call report, with their session. -/
def reported (queue : ProviderEventFlushQueue σ) : QueueCall σ → List (String × String)
  | .queueOutputEvent providerInvocationId event _ =>
    match currentSession queue event.sessionId providerInvocationId with
    | some session => (chunkReports protocol session event).map fun id => (event.sessionId, id)
    | none => []
  | .flushTrailingFragments sessionId synthesizeCursorExit order _ =>
    match queue sessionId with
    | some session =>
      (trailingReports protocol synthesizeMessageCompletedFromExit synthesizeCursorExit sessionId
        order session).map fun id => (sessionId, id)
    | none => []
  | _ => []

/-- The ids that a call returns, with their session: only the result of output has one. -/
def returned (queue : ProviderEventFlushQueue σ) : QueueCall σ → List (String × String)
  | .queueOutputEvent providerInvocationId event failure =>
    match (queueOutputEventOr protocol failure queue providerInvocationId event).1 with
    | .ok result => result.providerConversationId.toList.map fun id => (event.sessionId, id)
    | .error _ => []
  | _ => []

/-- When a call returns what its lines report: output whose lines report nothing, or one id,
and call for no flush that fails; fragments that report nothing. -/
def KeepsIds (queue : ProviderEventFlushQueue σ) : QueueCall σ → Prop
  | .queueOutputEvent providerInvocationId event failure =>
    ∀ session ∈ currentSession queue event.sessionId providerInvocationId,
      chunkReports protocol session event = [] ∨
        (chunkFlushes protocol session event = true → failure = none) ∧
          ∀ id ∈ chunkReports protocol session event,
            ∀ other ∈ chunkReports protocol session event, other = id
  | .flushTrailingFragments sessionId synthesizeCursorExit order _ =>
    ∀ session ∈ queue sessionId,
      trailingReports protocol synthesizeMessageCompletedFromExit synthesizeCursorExit sessionId
        order session = []
  | _ => True

/-- Every id that is reported is returned, by the call or by a later one. -/
def NoneLost (queue : ProviderEventFlushQueue σ) (calls : List (QueueCall σ)) : Prop :=
  ∀ before call after, calls = before ++ call :: after →
    let queue := run (stepQueue protocol synthesizeMessageCompletedFromExit) queue before
    ∀ report ∈ reported protocol synthesizeMessageCompletedFromExit queue call,
      report ∈ collected (stepQueue protocol synthesizeMessageCompletedFromExit)
        (returned protocol) queue (call :: after)

/-! ## One call -/

/-- What the normalizer makes of the lines goes behind the raw output. -/
theorem ingestNormalizedResult_rawOutputs (buffer : SessionFlushBuffer)
    (providerInvocationId : String) (normalized : NormalizedProviderResult) :
    (ingestNormalizedResult buffer providerInvocationId normalized).1.pendingRawOutputs =
      buffer.pendingRawOutputs := by
  have hevents : ∀ (events : List PersistTimelineEventInput) (buffer : SessionFlushBuffer),
      (events.foldl (fun buffer event => buffer.queueTimelineEvent
        (attachProviderInvocationId event providerInvocationId)) buffer).pendingRawOutputs =
      buffer.pendingRawOutputs := by
    intro events
    induction events with
    | nil => simp
    | cons event events ih => exact fun buffer => ih _
  have husages : ∀ (usages : List NormalizedUsage) (buffer : SessionFlushBuffer),
      (usages.foldl (fun buffer usage => buffer.queueUsage usage) buffer).pendingRawOutputs =
      buffer.pendingRawOutputs := by
    intro usages
    induction usages with
    | nil => simp
    | cons usage usages ih => exact fun buffer => ih _
  have happrovals : ∀ (approvals : List NormalizedApprovalRequest) (buffer : SessionFlushBuffer),
      (approvals.foldl (fun buffer approval => buffer.queueApprovalForInvocation approval
        providerInvocationId) buffer).pendingRawOutputs = buffer.pendingRawOutputs := by
    intro approvals
    induction approvals with
    | nil => simp
    | cons approval approvals ih => exact fun buffer => ih _
  simp only [ingestNormalizedResult, happrovals]
  split <;> simp [husages, hevents]

/-- **What output returns of the ids**: the one reported last, unless the lines call for a
flush and the flush fails. -/
theorem queueOutputToSessionOr_id (failure : Option ArgmaxError)
    (session : ProviderFlushSession σ) (providerInvocationId : String)
    (event : ProviderOutputEvent) :
    ((queueOutputToSessionOr protocol failure session providerInvocationId event).1.map
        (·.providerConversationId)) =
      if chunkFlushes protocol session event then
        failure.elim (.ok (chunkReports protocol session event).getLast?) .error
      else .ok (chunkReports protocol session event).getLast? := by
  rw [chunkReports, ← normalizeProviderEvent_id, queueOutputToSessionOr]
  dsimp only
  by_cases hcompleted : (completedOf session event).1.isEmpty = true
  · have hnone : normalizeProviderEvent protocol session.provider
        { event with message := (completedOf session event).1 } session.normalizerContext =
        (.empty, session.normalizerContext) := by
      rw [List.isEmpty_iff.mp hcompleted]
      rfl
    rw [if_pos hcompleted, chunkFlushes, normalizedOf, hnone]
    rfl
  · rw [if_neg hcompleted, chunkFlushes]
    by_cases hflush : normalizedResultRequiresImmediateFlush
        (normalizedOf protocol session event).1 = true
    · have hbuffer : (ingestNormalizedResult
          (session.buffer.queueRawOutput ⟨event.sessionId, event.stream.asStr, event.message⟩)
          providerInvocationId (normalizedOf protocol session event).1).1.isEmpty = false := by
        rw [SessionFlushBuffer.isEmpty, ingestNormalizedResult_rawOutputs]
        simp [SessionFlushBuffer.queueRawOutput]
      simp only [hflush, flushSessionBufferOr, hbuffer]
      cases failure <;> rfl
    · simp only [hflush]
      rfl

/-- The last of a list stands for all of it when all are the same. -/
theorem forall_mem_getLast? {α : Type} (xs : List α) :
    (∀ x ∈ xs, x ∈ xs.getLast?.toList) ↔ xs = [] ∨ ∀ x ∈ xs, ∀ y ∈ xs, y = x := by
  cases hlast : xs.getLast? with
  | none => simp [List.getLast?_eq_none_iff.mp hlast]
  | some last =>
    have hmem : last ∈ xs := List.mem_of_getLast? hlast
    have hne : xs ≠ [] := List.ne_nil_of_mem hmem
    simp only [Option.toList_some, List.mem_singleton, hne, false_or]
    exact ⟨fun h x hx y hy => (h y hy).trans (h x hx).symm, fun h x hx => h last hmem x hx⟩

/-- **One call** returns every id that its lines report just when it keeps the ids. -/
theorem reported_returned_iff (queue : ProviderEventFlushQueue σ) (call : QueueCall σ) :
    (∀ report ∈ reported protocol synthesizeMessageCompletedFromExit queue call,
      report ∈ returned protocol queue call) ↔
      KeepsIds protocol synthesizeMessageCompletedFromExit queue call := by
  cases call with
  | initializeSession sessionId provider invocationId context => simp [reported, KeepsIds]
  | deleteSession sessionId => simp [reported, KeepsIds]
  | flushPendingOutput sessionId failure => simp [reported, KeepsIds]
  | flushTrailingFragments sessionId synthesizeCursorExit order failure =>
    simp only [reported, returned, KeepsIds]
    cases queue sessionId with
    | none => simp
    | some session => simp [List.eq_nil_iff_forall_not_mem]
  | queueOutputEvent invocationId event failure =>
    simp only [reported, returned, KeepsIds, queueOutputEventOr]
    cases currentSession queue event.sessionId invocationId with
    | none => simp
    | some session =>
      have hid := queueOutputToSessionOr_id protocol failure session invocationId event
      by_cases hflush : chunkFlushes protocol session event = true ∧ failure ≠ none
      · obtain ⟨error, rfl⟩ := Option.ne_none_iff_exists'.mp hflush.2
        rw [if_pos hflush.1] at hid
        cases hresult : (queueOutputToSessionOr protocol (some error) session invocationId
            event).1 with
        | ok result => simp [hresult, Except.map] at hid
        | error other => simp [hflush.1, List.eq_nil_iff_forall_not_mem]
      · have hok : (queueOutputToSessionOr protocol failure session invocationId event).1.map
            (·.providerConversationId) = .ok (chunkReports protocol session event).getLast? := by
          rw [hid]
          by_cases hchunk : chunkFlushes protocol session event = true
          · have hnone : failure = none := by_contra fun h => hflush ⟨hchunk, h⟩
            rw [if_pos hchunk, hnone]
            rfl
          · rw [if_neg hchunk]
        cases hresult : (queueOutputToSessionOr protocol failure session invocationId event).1 with
        | error error => simp [hresult, Except.map] at hok
        | ok result =>
          simp only [hresult, Except.map, Except.ok.injEq] at hok
          have hfails : chunkFlushes protocol session event = true → failure = none :=
            fun hchunk => by_contra fun h => hflush ⟨hchunk, h⟩
          simpa [hok, and_iff_right hfails] using
            forall_mem_getLast? (chunkReports protocol session event)

/-! ## Runs -/

/-- **No id is lost.** In every run whose calls keep the ids, every id that a line reports is
returned. -/
theorem ids_returned (queue : ProviderEventFlushQueue σ) (calls : List (QueueCall σ))
    (h : Legal (stepQueue protocol synthesizeMessageCompletedFromExit)
      (KeepsIds protocol synthesizeMessageCompletedFromExit) queue calls) :
    NoneLost protocol synthesizeMessageCompletedFromExit queue calls := by
  rintro before call after rfl queue' report hreport
  rw [legal_append] at h
  exact List.mem_append_left _ ((reported_returned_iff protocol
    synthesizeMessageCompletedFromExit queue' call).mpr h.2.1 report hreport)

end Queue

/-! ## An id that is lost -/

/-- The line of an OpenCode error. -/
def errorLine : List Char := "\x7b\"sessionID\":\"ses_1\",\"type\":\"error\"\x7d".toList

def errorPayload : List (String × Json) :=
  [("sessionID", .string "ses_1"), ("type", .string "error")]

/-- What the normalizer makes of OpenCode's errors. The context says whether the id of the
conversation was reported. -/
def openCodeErrors : Protocol Bool where
  fromStr text := if text = errorLine then some (.object errorPayload) else none
  tracingRecord _ := none
  normalizeJsonPayload _ sessionId _ payload context :=
    let id := if context.payloads then none else ((Json.object payload).get "sessionID").bind
      Json.asStr
    (⟨[⟨sessionId, "error", "OpenCode reported an error", .object payload⟩], [], [], false, id⟩,
      { context with payloads := context.payloads || id.isSome })

/-- A launch of OpenCode. -/
def launchCall : QueueCall Bool := .initializeSession "s" .opencode "i" ⟨.none, false⟩

/-- The line of the error arrives. -/
def errorCall (failure : Option ArgmaxError) : QueueCall Bool :=
  .queueOutputEvent "i" ⟨"s", .stdout, errorLine ++ ['\n']⟩ failure

/-- The id of the conversation goes with the error of the flush, and never comes again. -/
theorem lost_with_failed_flush : ¬ NoneLost openCodeErrors (fun _ context => (none, context))
    (fun _ => none)
    [launchCall, errorCall (some (.service "SQLITE" "busy")), errorCall none,
      .flushPendingOutput "s" none] := by
  intro h
  have hreturned := h [launchCall] (errorCall (some (.service "SQLITE" "busy")))
    [errorCall none, .flushPendingOutput "s" none] rfl ("s", "ses_1") (by decide)
  exact absurd hreturned (by decide +kernel)

/-- A run that loses nothing: the flush of the first error succeeds. -/
theorem ids_returned_flushed : NoneLost openCodeErrors (fun _ context => (none, context))
    (fun _ => none)
    [launchCall, errorCall none, errorCall (some (.service "SQLITE" "busy"))] :=
  ids_returned _ _ _ _ (by
    simp only [legal_cons, legal_nil, and_true]
    refine ⟨trivial, ?_, ?_⟩ <;> rw [← reported_returned_iff] <;> decide)

end Argmax.Providers
