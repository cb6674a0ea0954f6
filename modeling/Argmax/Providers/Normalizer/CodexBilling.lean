import Argmax.Providers.Normalizer.CodexUsage
import Mathlib.Algebra.BigOperators.Group.List.Basic
import Mathlib.Data.List.Chain

/-!
# What the turns of a thread are billed

Each turn is billed the step from the totals before, so the records of a thread add up to
its last totals. The cached input of a turn is a part of its input. Where the totals say
otherwise the uncached part is cut off at zero, and the turn is billed the larger of both.
-/

namespace Argmax.Providers.Normalizer

/-- A completed turn, and the disk when its line is read. -/
structure Turn where
  disk : Disk
  payload : Fields

/-- The totals that a completed turn carries. -/
def turnTotals (turn : Turn) : Option CodexCumulativeUsage :=
  (objectValue (turn.payload.field "usage")).map totalsOf

/-- A part of what the records bill, added up. -/
def billed (part : UsageCounts → ℕ) (records : List NormalizedUsage) : ℕ :=
  (records.map fun record => part record.tokens).sum

namespace CodexCumulativeUsage

/-- No component is smaller. -/
structure Le (previous usage : CodexCumulativeUsage) : Prop where
  inputTokens : previous.inputTokens ≤ usage.inputTokens
  cachedInputTokens : previous.cachedInputTokens ≤ usage.cachedInputTokens
  outputTokens : previous.outputTokens ≤ usage.outputTokens

/-- The counters added up fit sixty-four bits. -/
def Fits (usage : CodexCumulativeUsage) : Prop :=
  usage.inputTokens + usage.outputTokens + usage.cachedInputTokens < 2 ^ 64

end CodexCumulativeUsage

/-- The steps from one total to the next. -/
def steps : CodexCumulativeUsage → List CodexCumulativeUsage → List CodexCumulativeUsage
  | _, [] => []
  | previous, usage :: totals => usage.since previous :: steps usage totals

/-- The last total. -/
def lastTotal (baseline : CodexCumulativeUsage) (totals : List CodexCumulativeUsage) :
    CodexCumulativeUsage := totals.getLast?.getD baseline

@[simp] theorem lastTotal_nil (baseline : CodexCumulativeUsage) : lastTotal baseline [] = baseline :=
  rfl

@[simp] theorem searchRollout_codexCumulativeUsage (disk : Disk) (context : UsageContext) :
    (searchRollout disk context).codexCumulativeUsage = context.codexCumulativeUsage := by
  rw [searchRollout]
  split
  · split <;> rfl
  · rfl

@[simp] theorem readRollout_codexCumulativeUsage (lib : Library) (disk : Disk)
    (context : UsageContext) :
    (readRollout lib disk context).codexCumulativeUsage = context.codexCumulativeUsage := by
  rw [readRollout]
  split <;> rfl

section TwoTurns

def plainLibrary : Library := ⟨fun _ => none, fun _ _ => 0⟩

end TwoTurns

end Argmax.Providers.Normalizer
