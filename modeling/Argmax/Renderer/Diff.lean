import Mathlib.Data.Int.Notation
import Mathlib.Data.List.Basic

/-!
# Parsing unified diffs

`diff.ts`, and `tallyHunks` of `fileChange.ts`. Texts are lists of characters. The line that
starts a hunk and the marker of a capped diff are read by regular expressions, which are
written out here. In a marker, `^` and `$` are at any line terminator, and `.` in the start of
a hunk is any character but these.
-/

namespace Argmax.Renderer.Diff

inductive LineKind where
  | addition
  | deletion
  | context
  deriving DecidableEq

structure ParsedDiffLine where
  kind : LineKind
  oldLineNumber : Option ℕ
  newLineNumber : Option ℕ
  content : List Char

inductive ParsedDiffBlock where
  | hunk (id header : List Char) (lines : List ParsedDiffLine)
  | omitted (id : List Char) (count : ℤ)
  | truncated (id : List Char) (droppedBytes : ℕ)

/-! ## The regular expressions -/

/-- What follows a text at the start of another one. -/
def stripStart (start text : List Char) : Option (List Char) :=
  if start.isPrefixOf text then some (text.drop start.length) else none

/-- `\d+`, as a number, and what follows it. -/
def number (text : List Char) : Option (ℕ × List Char) :=
  let digits := text.takeWhile Char.isDigit
  if digits.isEmpty then none
  else some (Nat.ofDigitChars 10 digits 0, text.dropWhile Char.isDigit)

/-- `(?:,\d+)?`. -/
def skipCount (text : List Char) : List Char :=
  match text with
  | ',' :: rest => ((number rest).map (·.2)).getD text
  | _ => text

def isLineTerminator (c : Char) : Bool :=
  c == '\n' || c == '\r' || c.toNat == 0x2028 || c.toNat == 0x2029

/-- `/^@@ -(\d+)(?:,\d+)? \+(\d+)(?:,\d+)? @@(.*)$/`. -/
def parseHeader (line : List Char) : Option (ℕ × ℕ) := do
  let rest ← stripStart "@@ -".toList line
  let (oldStart, rest) ← number rest
  let rest ← stripStart " +".toList (skipCount rest)
  let (newStart, rest) ← number rest
  let rest ← stripStart " @@".toList (skipCount rest)
  if rest.any isLineTerminator then none else some (oldStart, newStart)

/-- `TRUNCATION_MARKER` between two line terminators. -/
def truncationMarker (line : List Char) : Option ℕ := do
  let rest ← stripStart "[diff truncated at ".toList line
  let (_, rest) ← number rest
  let rest ← stripStart " bytes; dropped ".toList rest
  let (droppedBytes, rest) ← number rest
  if rest = " bytes]".toList then some droppedBytes else none

/-! ## Blocks -/

/-- The inner loop: the lines of a hunk, the next old line number, and what is left. -/
def hunkBody : ℕ → ℕ → List (List Char) → List ParsedDiffLine × ℕ × List (List Char)
  | oldLineNumber, _, [] => ([], oldLineNumber, [])
  | oldLineNumber, newLineNumber, line :: rest =>
    if "@@ ".toList.isPrefixOf line || "diff --git ".toList.isPrefixOf line then
      ([], oldLineNumber, line :: rest)
    else if "\\ No newline".toList.isPrefixOf line then
      hunkBody oldLineNumber newLineNumber rest
    else
      match line with
      | '+' :: content =>
        let (lines, left) := hunkBody oldLineNumber (newLineNumber + 1) rest
        (⟨.addition, none, some newLineNumber, content⟩ :: lines, left)
      | '-' :: content =>
        let (lines, left) := hunkBody (oldLineNumber + 1) newLineNumber rest
        (⟨.deletion, some oldLineNumber, none, content⟩ :: lines, left)
      | ' ' :: content =>
        let (lines, left) := hunkBody (oldLineNumber + 1) (newLineNumber + 1) rest
        (⟨.context, some oldLineNumber, some newLineNumber, content⟩ :: lines, left)
      | _ => hunkBody oldLineNumber newLineNumber rest

theorem hunkBody_left_le (oldLineNumber newLineNumber : ℕ) (lines : List (List Char)) :
    (hunkBody oldLineNumber newLineNumber lines).2.2.length ≤ lines.length := by
  induction lines generalizing oldLineNumber newLineNumber with
  | nil => exact Nat.le_refl _
  | cons line rest ih =>
    have hskip : ∀ oldLineNumber newLineNumber,
        (hunkBody oldLineNumber newLineNumber rest).2.2.length ≤ (line :: rest).length :=
      fun oldLineNumber newLineNumber => Nat.le_succ_of_le (ih oldLineNumber newLineNumber)
    unfold hunkBody
    split
    · exact Nat.le_refl _
    · split
      · exact hskip _ _
      · split <;> exact hskip _ _

/-- The outer loop, with the end of the hunk in front and the number of hunks so far. -/
def blocksOf (previousOldEnd : Option ℤ) (hunkIndex : ℕ) : List (List Char) → List ParsedDiffBlock
  | [] => []
  | header :: lines =>
    match parseHeader header with
    | none =>
      blocksOf (if "diff --git ".toList.isPrefixOf header then none else previousOldEnd) hunkIndex
        lines
    | some (oldStart, newStart) =>
      let body := hunkBody oldStart newStart lines
      let omittedCount := (previousOldEnd.map fun stop => (oldStart : ℤ) - stop - 1).getD 0
      (if 0 < omittedCount then
        [.omitted ("omitted-".toList ++ Nat.toDigits 10 hunkIndex) omittedCount] else []) ++
        .hunk ("hunk-".toList ++ Nat.toDigits 10 hunkIndex) header body.1 ::
          blocksOf (some ((body.2.1 : ℤ) - 1)) (hunkIndex + 1) body.2.2
  termination_by lines => lines.length
  decreasing_by
    · simp
    · have := hunkBody_left_le oldStart newStart lines
      simp only [List.length_cons]
      omega

def parseUnifiedDiff (content : List Char) : List ParsedDiffBlock :=
  blocksOf none 0 (content.splitOn '\n') ++
    match (content.splitOnP isLineTerminator).findSome? truncationMarker with
    | some droppedBytes => [.truncated "truncated".toList droppedBytes]
    | none => []

/-- The lines of the hunks. -/
def hunksOf (blocks : List ParsedDiffBlock) : List (List ParsedDiffLine) :=
  blocks.filterMap fun block =>
    match block with
    | .hunk _ _ lines => some lines
    | _ => none

@[simp] theorem hunksOf_append (blocks blocks' : List ParsedDiffBlock) :
    hunksOf (blocks ++ blocks') = hunksOf blocks ++ hunksOf blocks' := List.filterMap_append

@[simp] theorem hunksOf_hunk (id header : List Char) (lines : List ParsedDiffLine)
    (blocks : List ParsedDiffBlock) :
    hunksOf (.hunk id header lines :: blocks) = lines :: hunksOf blocks := rfl

@[simp] theorem hunksOf_omitted (id : List Char) (count : ℤ) (blocks : List ParsedDiffBlock) :
    hunksOf (.omitted id count :: blocks) = hunksOf blocks := rfl

@[simp] theorem hunksOf_truncated (id : List Char) (droppedBytes : ℕ)
    (blocks : List ParsedDiffBlock) :
    hunksOf (.truncated id droppedBytes :: blocks) = hunksOf blocks := rfl

@[simp] theorem hunksOf_nil : hunksOf [] = [] := rfl

/-- `tallyHunks`: the additions and the deletions. -/
def tallyHunks (blocks : List ParsedDiffBlock) : ℕ × ℕ :=
  ((hunksOf blocks).flatten.countP fun line => decide (line.kind = .addition),
    (hunksOf blocks).flatten.countP fun line => decide (line.kind = .deletion))

end Argmax.Renderer.Diff
