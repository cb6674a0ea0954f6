import Argmax.Lib.Lines
import Argmax.Lib.Text

/-!
# The text of a completion notice

`providers/completion_notices.rs`: how much of a child's answer a notice carries, and how
several notices become one. A launcher gets the head of a long answer, and the section with
the learnings when the answer has one behind the cut. A batch gives every notice whole, or a
line that points at its session.

Lengths count characters, and so do places in a text.
-/

namespace Argmax.Providers.CompletionNotices

open Argmax.Lib Argmax.Lib.Text

/-! ## The answer -/

def noticeAnswerChars : ℕ := 4 * 1024

def noticeLearningsChars : ℕ := 2 * 1024

def learningsHeading : List Char := "Learnings for the arc".toList

def charOffset (text : List Char) (chars : ℕ) : ℕ := min chars text.length

/-- `trim_start_matches("**")`. -/
def trimStars : List Char → List Char
  | '*' :: '*' :: rest => trimStars rest
  | text => text

def isLearningsHeading (line : List Char) : Bool :=
  let line := trim line
  let line := trim (line.dropWhile (· == '#'))
  let line := trim (trimStars (trimStars line).reverse).reverse
  let line := trim (line.rdropWhile fun c => c == ':' || c == '.')
  line.map Char.toLower == learningsHeading.map Char.toLower

def isLineFeed (c : Char) : Bool := c == '\n'

/-- `split_inclusive('\n')`. -/
def answerLines (answer : List Char) : List (List Char) := splitInclusive isLineFeed answer

def learningsOffset (answer : List Char) (after : ℕ) : Option ℕ :=
  findLine (fun start line => decide (after ≤ start) && isLearningsHeading line) 0
    (answerLines answer)

def truncated : List Char := "\n\n(truncated)".toList

def middleTruncated : List Char := "\n\n(… middle truncated …)\n\n".toList

def capLearningsSection (section_ : List Char) : List Char :=
  if section_.length ≤ noticeLearningsChars then section_
  else trimEnd (section_.take (charOffset section_ noticeLearningsChars)) ++ truncated

/-- The text before its last line feed, or the text. -/
def beforeLastLineFeed (text : List Char) : List Char :=
  if text.any isLineFeed then (text.rdropWhile fun c => !isLineFeed c).dropLast else text

/-- Where a long answer is cut. -/
def answerCut (answer : List Char) : ℕ := charOffset answer noticeAnswerChars

/-- The head of a long answer. -/
def answerHead (answer : List Char) : List Char :=
  trimEnd (beforeLastLineFeed (answer.take (answerCut answer)))

def capNoticeAnswer (answer : List Char) : List Char :=
  if answer.length ≤ noticeAnswerChars then answer
  else
    match learningsOffset answer (answerCut answer) with
    | some start => answerHead answer ++ middleTruncated ++ capLearningsSection (answer.drop start)
    | none => answerHead answer ++ truncated

/-! ## Batches -/

def truncationMarker : List Char := "\n\n(truncated)".toList

structure MessageOrigin where
  sessionId : List Char
  label : List Char
  kind : List Char
  messageId : Option (List Char)

end Argmax.Providers.CompletionNotices
