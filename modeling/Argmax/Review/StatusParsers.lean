import Argmax.Lib.Utf8
import Argmax.Review.Hunks

/-!
# Listings of changed files

`review/git_review.rs`: what `git status`, `git diff --name-status` and `git diff --numstat` print
with `-z` is read back. The listings are bytes, which are decoded as a whole. A byte offset that is
not at a character ends the parser, which is none here.
-/

namespace Argmax.Review

open Argmax.Lib.Text Argmax.Lib.Utf8

/-! ## The parsers -/

structure ChangedFileSummary where
  path : List Char
  status : List Char
  additions : ℕ
  deletions : ℕ
  staged : Bool
  oldPath : Option (List Char)
  deriving DecidableEq

abbrev Counts := ℕ × ℕ

/-- A map that the counts are inserted into one after another. -/
def insertAll (counts : List (List Char × Counts)) : List Char → Option Counts :=
  counts.foldl (fun map entry => Function.update map entry.1 (some entry.2)) fun _ => none

/-- A field that ends with a NUL: ASCII text, and a path or none. -/
abbrev Field (α : Type) := List Char × List α

/-- A letter of a status. -/
inductive StatusLetter where
  | unmodified | modified | typeChanged | added | deleted | renamed | copied | unmerged | untracked
  | ignored
  deriving DecidableEq

namespace StatusLetter

def char : StatusLetter → Char
  | unmodified => ' '
  | modified => 'M'
  | typeChanged => 'T'
  | added => 'A'
  | deleted => 'D'
  | renamed => 'R'
  | copied => 'C'
  | unmerged => 'U'
  | untracked => '?'
  | ignored => '!'

def moves : StatusLetter → Bool
  | renamed | copied => true
  | _ => false

end StatusLetter

/-- An entry of the status: the letters of the index and of the worktree, the path, and the old path
of a file that was moved in either. -/
structure PorcelainEntry (P : Type) where
  index : StatusLetter
  worktree : StatusLetter
  path : P
  oldPath : Option P
  shown : index ≠ .unmodified ∨ worktree ≠ .unmodified
  old_isSome : oldPath.isSome = (index.moves || worktree.moves)

/-- An entry against a base: a letter and a path, or a score and two paths. -/
inductive NameStatusEntry (P : Type) where
  | changed (letter : StatusLetter) (hletter : letter.moves = false ∧ letter ≠ .unmodified)
    (path : P)
  | moved (copied : Bool) (score : ℕ) (old new : P)

/-- The counts of an entry, none of a binary file, and its paths. -/
inductive NumstatEntry (P : Type) where
  | changed (counts : Option (UInt64 × UInt64)) (path : P)
  | moved (counts : Option (UInt64 × UInt64)) (old new : P)

/-- A path: a text without a NUL. -/
structure Path where
  text : List Char
  ne_nil : text ≠ []
  nul_notMem : '\x00' ∉ text

section Fields

variable {P α : Type} (text : P → List α)

def PorcelainEntry.fields (entry : PorcelainEntry P) : List (Field α) :=
  ([entry.index.char, entry.worktree.char, ' '], text entry.path) ::
    entry.oldPath.toList.map fun old => ([], text old)

def NameStatusEntry.fields : NameStatusEntry P → List (Field α)
  | .changed letter _ path => [([letter.char], []), ([], text path)]
  | .moved copied score old new =>
    [((if copied then 'C' else 'R') :: Nat.toDigits 10 score, []), ([], text old), ([], text new)]

/-- Both counts, each with a tab. -/
def countsText : Option (UInt64 × UInt64) → List Char
  | none => ['-', '\t', '-', '\t']
  | some (additions, deletions) =>
    Nat.toDigits 10 additions.toNat ++ '\t' :: Nat.toDigits 10 deletions.toNat ++ ['\t']

def NumstatEntry.fields : NumstatEntry P → List (Field α)
  | .changed counts path => [(countsText counts, text path)]
  | .moved counts old new => [(countsText counts, []), ([], text old), ([], text new)]

end Fields

/-! ## What should come of it -/

def PorcelainEntry.summary (entry : PorcelainEntry Path) : ChangedFileSummary where
  path := entry.path.text
  status := ([entry.index, entry.worktree].filter (· ≠ .unmodified)).map StatusLetter.char
  additions := 0
  deletions := 0
  staged := entry.index ≠ .unmodified ∧ entry.index ≠ .untracked
  oldPath := entry.oldPath.map Path.text

def NameStatusEntry.summary : NameStatusEntry Path → ChangedFileSummary
  | .changed letter _ path => ⟨path.text, [letter.char], 0, 0, false, none⟩
  | .moved copied _ old new =>
    ⟨new.text, [if copied then 'C' else 'R'], 0, 0, false, some old.text⟩

def countsOf (counts : Option (UInt64 × UInt64)) : Counts :=
  match counts with
  | none => (0, 0)
  | some (additions, deletions) => (additions.toNat, deletions.toNat)

/-- The counts under the new path. -/
def NumstatEntry.counted : NumstatEntry Path → List Char × Counts
  | .changed counts path => (path.text, countsOf counts)
  | .moved counts _ new => (new.text, countsOf counts)

namespace StatusLetter

end StatusLetter

section Porcelain

variable (entry : PorcelainEntry Path)

/-- The first record of an entry. -/
def PorcelainEntry.record : List Char :=
  entry.index.char :: entry.worktree.char :: ' ' :: entry.path.text

end Porcelain

theorem notMem_toDigits {c : Char} (h : c.isDigit = false) (n : ℕ) : c ∉ Nat.toDigits 10 n := by
  intro hmem
  simp [Nat.isDigit_of_mem_toDigits (by decide) (by decide) hmem] at h

end Argmax.Review
