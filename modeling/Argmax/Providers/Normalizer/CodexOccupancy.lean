import Argmax.Lib.Transition
import Argmax.Providers.Normalizer.CodexBilling

/-!
# How full the context of a thread is

A read takes what a rollout has behind the last read, so reads over time should say what one
read of all complete lines would. What a read finds replaces the kept pair as a whole: where
the new lines carry only one of its halves, the other one is lost. And a line that is no
UTF-8 ends the read at the end of the file, which may be in the middle of a line.
-/

namespace Argmax.Providers.Normalizer

open Argmax.Lib Argmax.Lib.Text

/-! ## Counts -/

namespace TokenCount

/-- A context size is never given as zero. -/
def Seen (count : TokenCount) : Prop := ∀ tokens ∈ count.tokens, 0 < tokens

theorem Seen.update {earlier later : TokenCount} (h : earlier.Seen) (h' : later.Seen) :
    (earlier.update later).Seen := by
  intro tokens htokens
  rcases Option.or_eq_some_iff.mp htokens with hlater | ⟨_, hearlier⟩
  · exact h' tokens hlater
  · exact h tokens hearlier

end TokenCount

/-- The count that the bytes of a line carry. -/
def bytesCount (lib : Library) (line : List UInt8) : TokenCount :=
  match decodeLine line with
  | none => .none
  | some text => lineCount lib text

/-- The latest values in lines. -/
def linesCount (lib : Library) (lines : List (List UInt8)) : TokenCount :=
  lines.foldl (fun latest line => latest.update (bytesCount lib line)) .none

/-- The complete lines. -/
def completeLines (bytes : List UInt8) : List (List UInt8) :=
  (splitInclusive isNewline bytes).filter endsLine

/-- The totals of a turn, when they are not all zero. -/
def readingTotals (turn : Turn) : Option CodexCumulativeUsage :=
  (turnTotals turn).filter fun totals => totals.wrappingSum != 0

/-- Where a line of the new bytes is no UTF-8, the lines behind it carry no count and the
last one has its end. -/
def Readable (lib : Library) (fresh : List UInt8) : Prop :=
  ∀ before line after, splitInclusive isNewline fresh = before ++ line :: after →
    decodeLine line = none →
      Complete isNewline fresh ∧ ∀ other ∈ after, bytesCount lib other = .none

/-- A pair is replaced by one that has each half which it has. -/
def Replaces (known : Option (ℕ × Option ℕ)) (count : TokenCount) : Prop :=
  count = .none ∨
    (count.tokens.isSome ∨ (known.bind fun pair => positive pair.1) = none) ∧
      (count.window.isSome ∨ known.bind (·.2) = none)

/-- The turn reads the new lines of the rollout to their end, and what they carry replaces
nothing by less. -/
def Spared (lib : Library) (path : String) (context : UsageContext) (turn : Turn) : Prop :=
  ∀ bytes, (readingTotals turn).isSome → turn.disk.contents path = some bytes →
    let fresh := bytes.drop context.codexRolloutOffset
    Readable lib fresh ∧
      Replaces context.codexRolloutLastTokenCount (linesCount lib (completeLines fresh))

/-! ## Reading lines -/

/-- Up to where the rollout was read, and what it said until there. -/
structure ReadTo (lib : Library) (context : UsageContext) (bytes done : List UInt8) : Prop where
  before : done <+: bytes
  complete : Complete isNewline done
  offset : context.codexRolloutOffset = done.length
  lastTokenCount : context.codexRolloutLastTokenCount =
    (linesCount lib (splitInclusive isNewline done)).pair

theorem ReadTo.mono {lib : Library} {context : UsageContext} {bytes bytes' done : List UInt8}
    (h : ReadTo lib context bytes done) (hgrow : bytes <+: bytes') :
    ReadTo lib context bytes' done :=
  ⟨h.before.trans hgrow, h.complete, h.offset, h.lastTokenCount⟩

@[simp] theorem readRollout_codexCurrentModel (lib : Library) (disk : Disk) (context : UsageContext) :
    (readRollout lib disk context).codexCurrentModel = context.codexCurrentModel := by
  rw [readRollout]
  split <;> rfl

@[simp] theorem readRollout_codexRolloutPath (lib : Library) (disk : Disk) (context : UsageContext) :
    (readRollout lib disk context).codexRolloutPath = context.codexRolloutPath := by
  rw [readRollout]
  split
  · rfl
  · rename_i hpath
    exact hpath.symm ▸ rfl

section Run

variable {lib : Library} {path : String} {turn : Turn} {turns : List Turn}
  {context : UsageContext}

end Run

/-! ## A character in two halves -/

section Halves

end Halves

end Argmax.Providers.Normalizer
