import Argmax.Lib.EditScript
import Argmax.Lib.Text

/-!
# Unified diffs

`unified_diff.rs`: a diff of two file texts, hunks only. Texts are lists of characters. Sums
of sizes are taken as the release build takes them, modulo `2 ^ 64`, where they can pass it: in
the distances that `context` sets. A slice out of bounds ends the process (`Panic`).
-/

namespace Argmax.Providers.UnifiedDiff

open Argmax.Lib Argmax.Lib.Text

abbrev Op := Edit

abbrev Line := List Char

/-- A sum of sizes. -/
def usize (n : ℕ) : ℕ := n % 2 ^ 64

def defaultContext : ℕ := 3

def maxMatchCells : ℕ := 1000000

inductive Panic where
  | sliceOutOfBounds
  deriving DecidableEq

/-! ## Lines -/

/-- `strip_suffix('\n')`, or the text. -/
def stripFinalNewline (text : List Char) : List Char :=
  if text.getLast? = some '\n' then text.dropLast else text

def splitLines (text : List Char) : List Line :=
  if text.isEmpty then [] else (stripFinalNewline text).splitOn '\n'

/-! ## The edit script -/

section Script

variable (old new : List Line)

/-- The filling of a cell of the table in `match_middle`, from those to its right and below. -/
def fillCell (common : List ℕ) (left right : ℕ) : List ℕ :=
  let columns := new.length + 1
  common.set (left * columns + right)
    (if old.getD left [] = new.getD right [] then
      common.getD ((left + 1) * columns + right + 1) 0 + 1
    else
      max (common.getD ((left + 1) * columns + right) 0)
        (common.getD (left * columns + right + 1) 0))

/-- The table of `match_middle`: the lengths of the longest common parts of two ends. -/
def commonTable : List ℕ :=
  (List.range old.length).reverse.foldl (fun common left =>
    (List.range new.length).reverse.foldl (fun common right => fillCell old new common left right)
      common)
    (List.replicate ((old.length + 1) * (new.length + 1)) 0)

end Script

/-- The rest of the loop of `match_middle` while its old line is `first`: `next` goes on with the
old line behind it. -/
def matchLine (common : ℕ → ℕ → ℕ) (left : ℕ) (first : Line) (later : ℕ)
    (next : ℕ → List Line → List Op) : ℕ → List Line → List Op
  | _, [] => List.replicate (later + 1) .delete
  | right, line :: new =>
    if first = line then .equal :: next (right + 1) new
    -- A tie goes to the deletion.
    else if common left (right + 1) ≤ common (left + 1) right then .delete :: next right (line :: new)
    else .insert :: matchLine common left first later next (right + 1) new

/-- The loop of `match_middle` from two indices on, with the lines that are left. -/
def matchLoop (common : ℕ → ℕ → ℕ) : ℕ → List Line → ℕ → List Line → List Op
  | _, [], _, new => List.replicate new.length .insert
  | left, first :: old, right, new =>
    matchLine common left first old.length (matchLoop common (left + 1) old) right new

section Script

variable (old new : List Line)

def matchMiddle : List Op :=
  let common := commonTable old new
  matchLoop (fun left right => common.getD (left * (new.length + 1) + right) 0) 0 old 0 new

/-- The lines that two lists start with alike. -/
def commonLength : ℕ := ((old.zip new).takeWhile fun pair => decide (pair.1 = pair.2)).length

def diffOps : List Op :=
  let start := commonLength old new
  let stop := commonLength (old.drop start).reverse (new.drop start).reverse
  let oldMiddle := (old.take (old.length - stop)).drop start
  let newMiddle := (new.take (new.length - stop)).drop start
  List.replicate start .equal ++
    (if maxMatchCells < min (oldMiddle.length * newMiddle.length) (2 ^ 64 - 1) then
      List.replicate oldMiddle.length .delete ++ List.replicate newMiddle.length .insert
    else matchMiddle oldMiddle newMiddle) ++
    List.replicate stop .equal

end Script

/-! ## Rows -/

structure Row where
  op : Op
  text : Line
  oldBefore : ℕ
  newBefore : ℕ

/-- The loop of `rows`. The script stays within both lists of lines. -/
def rowsFrom (old new : List Line) : ℕ → ℕ → List Op → List Row
  | _, _, [] => []
  | oldIndex, newIndex, op :: ops =>
    let text := if op = .insert then new.getD newIndex [] else old.getD oldIndex []
    ⟨op, text, oldIndex, newIndex⟩ ::
      rowsFrom old new (if op = .insert then oldIndex else oldIndex + 1)
        (if op = .delete then newIndex else newIndex + 1) ops

def rows (old new : List Line) : List Row := rowsFrom old new 0 0 (diffOps old new)

/-! ## Hunks -/

/-- A row of `change_groups`: it extends the last run or begins another one. -/
def groupRow (context : ℕ) (groups : List (ℕ × ℕ)) (indexed : Row × ℕ) : List (ℕ × ℕ) :=
  let (row, index) := indexed
  if row.op = .equal then groups
  else
    match groups.getLast? with
    | some group =>
      if index ≤ usize (group.2 + 2 * context + 1) then groups.dropLast ++ [(group.1, index)]
      else groups ++ [(index, index)]
    | none => groups ++ [(index, index)]

def changeGroups (rows : List Row) (context : ℕ) : List (ℕ × ℕ) :=
  rows.zipIdx.foldl (groupRow context) []

/-- The rows of a run with the context around it. They are not empty. -/
def window (rows : List Row) (context : ℕ) (group : ℕ × ℕ) : Except Panic (List Row) :=
  let start := group.1 - context
  let stop := min (usize (group.2 + context)) (rows.length - 1)
  if start ≤ stop ∧ stop < rows.length then .ok ((rows.take (stop + 1)).drop start)
  else .error .sliceOutOfBounds

def marker : Op → Char
  | .equal => ' '
  | .delete => '-'
  | .insert => '+'

def oldCount (window : List Row) : ℕ := window.countP fun row => decide (row.op ≠ .insert)

def newCount (window : List Row) : ℕ := window.countP fun row => decide (row.op ≠ .delete)

/-- Whether a side has rows, as a number. -/
def fromCount (count : ℕ) : ℕ := if 0 < count then 1 else 0

/-- The first line of a hunk. -/
def header (oldStart oldCount newStart newCount : ℕ) : Line :=
  "@@ -".toList ++ Nat.toDigits 10 oldStart ++ ",".toList ++ Nat.toDigits 10 oldCount ++
    " +".toList ++ Nat.toDigits 10 newStart ++ ",".toList ++ Nat.toDigits 10 newCount ++
    " @@".toList

/-- The hunk of a window. -/
def hunkOf (window : List Row) : Hunk Line :=
  let first := window.headD ⟨.equal, [], 0, 0⟩
  ⟨first.oldBefore + fromCount (oldCount window), oldCount window,
    first.newBefore + fromCount (newCount window), newCount window,
    window.map fun row => (row.op, row.text)⟩

def rowLine (row : Op × Line) : Line := marker row.1 :: row.2

/-- The text of a hunk. -/
def hunkText (hunk : Hunk Line) : List Char :=
  header hunk.oldStart hunk.oldCount hunk.newStart hunk.newCount ++ ['\n'] ++
    hunk.rows.flatMap fun row => rowLine row ++ ['\n']

/-- The loop of `unified_diff` over the runs, which ends when the text gets too long. -/
def writeHunks (rows : List Row) (context maxBytes : ℕ) :
    List Char → List (ℕ × ℕ) → Except Panic (Option (List Char))
  | diff, [] => .ok (some diff)
  | diff, group :: groups => do
    let window ← window rows context group
    let diff := diff ++ hunkText (hunkOf window)
    if maxBytes < byteLength diff then return none
    writeHunks rows context maxBytes diff groups

def finalNewlineDiff (lines : List Line) (before after : List Char) (context maxBytes : ℕ) :
    Option (List Char) :=
  if before = after || lines.isEmpty then none
  else
    let changed := lines.length - 1
    let start := changed - context
    let window := lines.drop start
    let diff := header (start + 1) window.length (start + 1) window.length ++ ['\n'] ++
      (window.dropLast.flatMap fun line => ' ' :: line ++ ['\n']) ++
      ('-' :: lines.getD changed [] ++ ['\n']) ++ '+' :: lines.getD changed []
    if byteLength diff ≤ maxBytes then some diff else none

def unifiedDiff (before after : List Char) (context maxBytes : ℕ) :
    Except Panic (Option (List Char)) := do
  let old := splitLines before
  let new := splitLines after
  if old = new then return finalNewlineDiff old before after context maxBytes
  let rows := rows old new
  let some diff ← writeHunks rows context maxBytes [] (changeGroups rows context) | return none
  return if diff.isEmpty then none else some diff.dropLast

/-- A one-line change in the middle of a file. -/
example : unifiedDiff "one\ntwo\n".toList "one\nmiddle\ntwo\n".toList defaultContext 1000 =
    .ok (some "@@ -1,2 +1,3 @@\n one\n+middle\n two".toList) := by decide

end Argmax.Providers.UnifiedDiff
