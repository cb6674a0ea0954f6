import Mathlib.Data.Rat.Defs

/-!
# Usage records

`usage/records.rs`. The token counts of one billed model call, split the way
pricing needs them. Counts are integers and dollars are exact rationals: the
rounding of floating-point sums is left out.
-/

namespace Argmax.Usage

/-- Token counts as the provider reported them. `reasoning` is part of `output`. -/
structure UsageRecordTokens where
  inputUncached : ℤ
  cacheRead : ℤ
  cacheWrite5m : ℤ
  cacheWrite1h : ℤ
  output : ℤ
  reasoning : ℤ
  deriving DecidableEq

namespace UsageRecordTokens

def zero : UsageRecordTokens := ⟨0, 0, 0, 0, 0, 0⟩

def add (a b : UsageRecordTokens) : UsageRecordTokens :=
  ⟨a.inputUncached + b.inputUncached, a.cacheRead + b.cacheRead,
    a.cacheWrite5m + b.cacheWrite5m, a.cacheWrite1h + b.cacheWrite1h, a.output + b.output,
    a.reasoning + b.reasoning⟩

def cacheWrite (tokens : UsageRecordTokens) : ℤ := tokens.cacheWrite5m + tokens.cacheWrite1h

/-- No billed token. -/
def isEmpty (tokens : UsageRecordTokens) : Bool :=
  tokens.inputUncached == 0 && tokens.cacheRead == 0 && tokens.cacheWrite5m == 0 &&
    tokens.cacheWrite1h == 0 && tokens.output == 0

/-- Every token the call was billed for. -/
def processed (tokens : UsageRecordTokens) : ℤ :=
  tokens.inputUncached + tokens.cacheRead + tokens.cacheWrite + tokens.output

end UsageRecordTokens

end Argmax.Usage
