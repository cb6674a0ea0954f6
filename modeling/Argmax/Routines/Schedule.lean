import Argmax.Error

/-!
# Schedules of routines

`routines/schedule.rs`. A stored routine has exactly one of two schedules: a cron
expression or a single time. Timestamps are stored as UTC milliseconds in a fixed
format, whose order as text is the order of the times; here they are the times.

The cron dialect is that of a package, so the next match of an expression after a
time is a parameter.
-/

namespace Argmax.Routines

/-- The schedule columns of a row, `cron_expr` and `run_once_at`: one of them is set. -/
inductive Schedule where
  | cron (expr : String)
  | once (time : ℤ)
  deriving DecidableEq

namespace Schedule

def cronExpr : Schedule → Option String
  | .cron expr => some expr
  | .once _ => none

def runOnceAt : Schedule → Option ℤ
  | .cron _ => none
  | .once time => some time

@[simp] theorem runOnceAt_once (time : ℤ) : (once time).runOnceAt = some time := rfl

@[simp] theorem runOnceAt_cron (expr : String) : (cron expr).runOnceAt = none := rfl

theorem runOnceAt_eq_some {schedule : Schedule} {time : ℤ} :
    schedule.runOnceAt = some time ↔ schedule = .once time := by
  cases schedule <;> simp

end Schedule

/-- The first match of a cron expression strictly after a time, or the error of an
expression that does not parse. -/
abbrev CronNext := String → ℤ → ArgmaxResult (Option ℤ)

/-- How long a failed recurring routine waits. -/
def retryBackoffMinutes : ℤ := 15

/-- `next_occurrence`: strictly after a time. -/
def nextOccurrence (cronNext : CronNext) (schedule : Schedule) (after : ℤ) :
    ArgmaxResult (Option ℤ) :=
  match schedule with
  | .cron expr => cronNext expr after
  | .once time => .ok (if after < time then some time else none)

/-- `next_run_from_now`: a single time is kept even when it has passed. -/
def nextRunFromNow (cronNext : CronNext) (schedule : Schedule) (now : ℤ) :
    ArgmaxResult (Option ℤ) :=
  match schedule with
  | .once time => .ok (some time)
  | .cron expr => nextOccurrence cronNext (.cron expr) now

def retryAfter (now : ℤ) : ℤ := now + retryBackoffMinutes * 60000

end Argmax.Routines
