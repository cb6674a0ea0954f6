import Argmax.Routing.Table
import Mathlib.Data.Rat.Floor

/-!
# What the classifier says of a task

`Classification` of `routing/jev.rs`, and `settle` of `routing/mod.rs`. Probabilities are exact
rationals.
-/

namespace Argmax.Routing

inductive FollowUpScope where
  | continuation
  | newTask
  | finishingStep
  deriving DecidableEq

/-- A probability for each of five. -/
structure Five where
  first : ℚ
  second : ℚ
  third : ℚ
  fourth : ℚ
  fifth : ℚ

def Five.toList (five : Five) : List ℚ :=
  [five.first, five.second, five.third, five.fourth, five.fifth]

structure Classification where
  kind : TaskKind
  kindConfidence : ℚ
  /-- In the order of `TASK_KINDS`. -/
  kindProbabilities : Option Five
  /-- The expected level, from 0 to 4. -/
  difficultyScore : ℚ
  difficultyConfidence : ℚ
  /-- For the levels 0 to 4. -/
  levelProbabilities : Option Five
  correction : Option ℚ
  followUpScope : Option FollowUpScope
  scopeConfidence : Option ℚ
  simplerTask : Option ℚ
  resumeRoute : Option String
  resumeConfidence : Option ℚ
  ui : Option ℚ

/-- `f64::round`: half away from zero. -/
def roundHalfAway (q : ℚ) : ℤ := if 0 ≤ q then ⌊q + 1 / 2⌋ else ⌈q - 1 / 2⌉

namespace Classification

def uiThreshold : ℚ := 7 / 10

def difficulty (c : Classification) : Difficulty :=
  let level := roundHalfAway c.difficultyScore
  if level ≤ 1 then .light else if level = 2 then .standard else .heavy

def probabilityAtLeast (c : Classification) (level : ℕ) : Option ℚ :=
  c.levelProbabilities.map fun levels => (levels.toList.drop (min level 4)).sum

def probabilityAtLeastBucket (c : Classification) : Difficulty → ℚ
  | .light => 1
  | .standard => (c.probabilityAtLeast 2).getD c.difficultyConfidence
  | .heavy => (c.probabilityAtLeast 3).getD c.difficultyConfidence

def probabilityAtMostBucket (c : Classification) : Difficulty → ℚ
  | .light => (c.probabilityAtLeast 2).elim c.difficultyConfidence (1 - ·)
  | .standard => (c.probabilityAtLeast 3).elim c.difficultyConfidence (1 - ·)
  | .heavy => 1

def kindProbability (c : Classification) (kind : TaskKind) : Option ℚ :=
  c.kindProbabilities.map fun kinds =>
    match kind with
    | .coding => kinds.first
    | .mechanical => kinds.second
    | .research => kinds.third
    | .review => kinds.fourth
    | .question => kinds.fifth

def isUi (c : Classification) : Bool := c.ui.any (uiThreshold ≤ ·)

end Classification

def minConfidence : ℚ := 1 / 2

def codingMargin : ℚ := 3 / 20

/-- The kind after the confidence rules, with what is noted. -/
def settleKind (c : Classification) : TaskKind × List String :=
  let codingTrails :=
    match c.kindProbability .coding, c.kindProbability c.kind with
    | some coding, some top => decide (codingMargin < top - coding)
    | _, _ => false
  if minConfidence ≤ c.kindConfidence then (c.kind, [])
  else if codingTrails then (c.kind, ["unsure of kind, kept the likeliest"])
  else (.coding, ["unsure of kind, treated as coding"])

/-- The difficulty after the confidence rules, with what is noted. -/
def settleDifficulty (c : Classification) : Difficulty × List String :=
  let difficulty := c.difficulty
  let rounded : Difficulty × ℕ :=
    match difficulty with
    | .light => (.standard, 2)
    | .standard | .heavy => (.heavy, 3)
  if c.difficultyConfidence < minConfidence ∧ rounded.1 ≠ difficulty ∧
      (c.probabilityAtLeast rounded.2).all (minConfidence ≤ ·) = true then
    (rounded.1, ["unsure of difficulty, rounded up"])
  else (difficulty, [])

def settle (c : Classification) : TaskKind × Difficulty × List String :=
  let kind := settleKind c
  let difficulty := settleDifficulty c
  (kind.1, difficulty.1, kind.2 ++ difficulty.2)

end Argmax.Routing
