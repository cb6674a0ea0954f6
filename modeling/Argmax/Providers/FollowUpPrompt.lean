import Argmax.Persistence.Continuity
import Argmax.Providers.ForkMergeDraft

/-!
# The prompt of a follow-up

`providers/follow_up.rs`. A follow-up that resumes no conversation of the provider retells
the newest eligible messages, at most twelve in 12 000 bytes, ahead of the new message. The
first request of the user takes one of the places when the newest twelve do not reach it. A
resume that missed a part of the chat retells that part, and any other resume nothing.

Lines are eligible rows with their texts. Eligible is what SQLite selects, and a row with
nothing but white space may be that; it has no line.
-/

namespace Argmax.Providers.FollowUp

open Argmax.Lib Argmax.Lib.Text Argmax.Persistence Argmax.Persistence.Continuity
  Argmax.Providers.ForkMerge

def followUpContextMaxMessages : ℕ := 12

def followUpContextMaxChars : ℕ := 12000

/-! ## Queries -/

section Queries

variable (events : EventTable) (sessionId : String) (after : ℕ)

/-- `EligibleEvents::recent`: the newest lines, newest first. -/
def recent (limit : ℕ) : List (EventRow × String) :=
  linesOf ((eligibleNewestFirst events sessionId after maxRowid).take limit)

/-- `EligibleEvents::first_user_request`: the line of the first message of the user, if
that row has one. -/
def firstUserRequest : Option (EventRow × String) :=
  (linesOf (((eligibleNewestFirst events sessionId after maxRowid).reverse.filter fun event =>
    event.type == "user.message").take 1)).getLast?

def count : ℕ := (eligibleNewestFirst events sessionId after maxRowid).length

end Queries

/-! ## The handoff note -/

section Handoff

-- The text SQLite gives an array or an object.
variable (jsonText : Json → String)

/-- A nullable column that is read as text. -/
def textColumn : Option Json → ArgmaxResult (Option String)
  | none | some .null => .ok none
  | some (.string text) => .ok (some text)
  | some (.array items) => .ok (some (jsonText (.array items)))
  | some (.object fields) => .ok (some (jsonText (.object fields)))
  | some (.bool _) | some (.number _) => .error (.serviceError "SQLITE" "Invalid column type")

/-- A column of text without `NULL`. -/
def requiredColumn (value : Option Json) : ArgmaxResult String := do
  match ← textColumn jsonText value with
  | some text => pure text
  | none => .error (.serviceError "SQLITE" "Invalid column type")

/-- `pending_project_handoff`: the last move to this session that no message of the user
has followed. -/
def pendingProjectHandoff (events : EventTable) (sessionId : String) :
    ArgmaxResult (Option String) :=
  let moved := newest events fun moved =>
    moved.sessionId == sessionId && moved.type == "session.moved" &&
      jsonExtract moved.payload ["direction"] == some (.string "destination") &&
      !events.rows.any fun later =>
        later.sessionId == moved.sessionId && decide (moved.rowid < later.rowid) &&
          later.type == "user.message"
  match moved with
  | none => .ok none
  | some moved => do
    let source ← requiredColumn jsonText (jsonExtract moved.payload ["sourceProjectName"])
    let destination ← requiredColumn jsonText (jsonExtract moved.payload ["destinationProjectName"])
    let path ← requiredColumn jsonText (jsonExtract moved.payload ["destinationPath"])
    let checkoutMode ← textColumn jsonText (jsonExtract moved.payload ["checkoutMode"])
    pure (some
      (if checkoutMode = some "attached" then
        "This chat moved to another checkout of " ++ destination ++ ". Work in it at " ++ path ++
          "."
      else
        "This chat moved from " ++ source ++ " to " ++ destination ++
          ". Work in the destination checkout at " ++ path ++ "."))

def handoffPrompt (handoff : Option String) (message : String) : String :=
  match handoff with
  | none => message
  | some note => "Project handoff:\n" ++ note ++ "\n\nNew user message:\n" ++ message

end Handoff

/-! ## The context -/

/-- The lines a prompt retells, oldest first, and how many eligible messages it does not. -/
structure Context where
  lines : List (EventRow × String)
  older : ℤ

/-- `transcript_chars`: the bytes of the lines and of the line feeds between them. -/
def transcriptChars (lines : List (EventRow × String)) : ℕ :=
  lineBytes lines + (lines.length - 1)

/-- Over budget, the oldest lines go first, down to one. The count is that of the whole
transcript, with the pinned line that the loop does not drop. -/
def dropOverBudget : ℕ → List (EventRow × String) → List (EventRow × String)
  | chars, line :: next :: rest =>
    if followUpContextMaxChars < chars then
      dropOverBudget (chars - (byteLength line.2.toList + 1)) (next :: rest)
    else line :: next :: rest
  | _, lines => lines

/-- The first request, when the window does not reach back to it. -/
def pinnedRequest (events : EventTable) (sessionId : String)
    (recent : List (EventRow × String)) : Option (EventRow × String) :=
  match recent.getLast? with
  | some oldest =>
    if recent.length < count events sessionId 0 then
      (firstUserRequest events sessionId 0).filter fun first => first.1.rowid < oldest.1.rowid
    else none
  | none => none

/-- The lines of `compose_follow_up_prompt_since` without a resume. -/
def conversationContext (events : EventTable) (sessionId : String) : Context :=
  let recent := recent events sessionId 0 followUpContextMaxMessages
  let total := count events sessionId 0
  let firstRequest := pinnedRequest events sessionId recent
  let recent :=
    if firstRequest.isSome && followUpContextMaxMessages ≤ recent.length then recent.dropLast
    else recent
  let chars := transcriptChars (firstRequest.toList ++ recent.reverse)
  let lines := firstRequest.toList ++ dropOverBudget chars recent.reverse
  ⟨lines, total - lines.length⟩

/-- The lines of `missed_context_prompt`: nothing is pinned. -/
def missedContext (events : EventTable) (sessionId : String) (sinceRowid : ℕ) : Context :=
  let transcript := (recent events sessionId sinceRowid followUpContextMaxMessages).reverse
  let lines := dropOverBudget (transcriptChars transcript) transcript
  ⟨lines, count events sessionId sinceRowid - lines.length⟩

/-! ## The prompt -/

def handoffNote (handoff : Option String) : String :=
  (handoff.map fun note => "\n\nProject handoff:\n" ++ note).getD ""

/-- The prompt that retells the conversation. -/
def conversationPrompt (sessionId message : String) (handoff : Option String)
    (context : Context) : String :=
  if context.lines.isEmpty then handoffPrompt handoff message
  else
    let olderNote :=
      if 0 < context.older then
        "\n(" ++ toString context.older ++ " earlier message(s) are not shown. " ++
          "Read them with session_read on session " ++ sessionId ++ ".)"
      else ""
    "The user is continuing this Argmax chat session. Use the visible conversation " ++
      "transcript below as context for the new message. Continue naturally." ++
      handoffNote handoff ++ "\n\nConversation so far:\n" ++ joined context.lines ++ olderNote ++
      "\n\nNew user message:\n" ++ message

/-- The prompt that retells what the provider missed. -/
def missedPrompt (sessionId message : String) (handoff : Option String) (context : Context) :
    String :=
  if context.lines.isEmpty then handoffPrompt handoff message
  else
    let olderNote :=
      if 0 < context.older then
        "\n(" ++ toString context.older ++ " earlier message(s) from this stretch are not " ++
          "shown. Read them with session_read on session " ++ sessionId ++ ".)"
      else ""
    "The user is continuing this Argmax chat with you after it ran with a different agent. " ++
      "Your own conversation is intact; the messages below happened while you were away." ++
      handoffNote handoff ++ "\n\nMessages you missed:\n" ++ joined context.lines ++ olderNote ++
      "\n\nNew user message:\n" ++ message

def missedContextPrompt (events : EventTable) (sessionId message sinceEventId : String)
    (handoff : Option String) : ArgmaxResult String :=
  match eventRowid events sinceEventId with
  | none =>
    .error (.serviceError "CONTINUITY_BOUNDARY_MISSING"
      "The event the provider conversation last saw no longer exists.")
  | some sinceRowid =>
    .ok (missedPrompt sessionId message handoff (missedContext events sessionId sinceRowid))

def composeFollowUpPromptSince (jsonText : Json → String) (events : EventTable)
    (sessionId message : String) (nativeResume : Bool) (sinceEventId : Option String) :
    ArgmaxResult String := do
  let handoff ← pendingProjectHandoff jsonText events sessionId
  match nativeResume, sinceEventId with
  | true, none => .ok (handoffPrompt handoff message)
  | true, some since => missedContextPrompt events sessionId message since handoff
  | false, _ =>
    .ok (conversationPrompt sessionId message handoff (conversationContext events sessionId))

end Argmax.Providers.FollowUp
