import Mathlib.Data.List.Basic

/-!
# Runs of a deterministic step function

A program that reacts to labelled events is a function `step : σ → α → σ`. Its
runs are the left folds of that function, so a run over a fixed list of events
can be evaluated. Nondeterminism lives in the choice of the events.

Some runs must follow rules that the step function does not enforce, such as
drawing an identifier that was not drawn before. `Legal` says that every event
of a run was permitted in the state that met it.

## Main definitions

* `run`: the state after a list of events.
* `collected`: what the steps of a run give, in order.
* `Legal`: every event of the run was permitted where it happened.

A state often holds the calls that are in progress under their keys. `update_eq_some` says which
there are after one of them goes on.
-/

namespace Argmax.Lib

variable {σ α : Type*}

/-! ## Runs -/

/-- The state after the events, taken in order. -/
def run (step : σ → α → σ) (s : σ) (as : List α) : σ :=
  as.foldl step s

@[simp] theorem run_nil (step : σ → α → σ) (s : σ) : run step s [] = s := rfl

@[simp] theorem run_cons (step : σ → α → σ) (s : σ) (a : α) (as : List α) :
    run step s (a :: as) = run step (step s a) as := rfl

@[simp] theorem run_append (step : σ → α → σ) (s : σ) (as bs : List α) :
    run step s (as ++ bs) = run step (run step s as) bs := by
  simp [run]

/-- **The invariant rule.** What every step preserves, every run preserves. -/
theorem run_invariant {step : σ → α → σ} {I : σ → Prop}
    (hstep : ∀ s a, I s → I (step s a)) {s : σ} (hs : I s) (as : List α) :
    I (run step s as) := by
  induction as generalizing s with
  | nil => exact hs
  | cons a as ih => exact ih (hstep s a hs)

/-- A reflexive and transitive relation that holds across every step holds across
every run. -/
theorem run_relates {step : σ → α → σ} {R : σ → σ → Prop}
    (hrefl : ∀ s, R s s) (htrans : ∀ {s t u}, R s t → R t u → R s u)
    (hstep : ∀ s a, R s (step s a)) (s : σ) (as : List α) :
    R s (run step s as) := by
  induction as generalizing s with
  | nil => exact hrefl s
  | cons a as ih => exact htrans (hstep s a) (ih (step s a))

/-! ## What a run collects -/

/-- What the steps of a run give, in order. -/
def collected {β : Type*} (step : σ → α → σ) (f : σ → α → List β) : σ → List α → List β
  | _, [] => []
  | s, a :: as => f s a ++ collected step f (step s a) as

/-- **The invariant rule with a record.** What every step preserves, as it adds to what was
seen, every run preserves. -/
theorem run_collected {β γ : Type*} {step : σ → α → σ} {f : σ → α → List β}
    {g : σ → α → List γ} {I : List β → List γ → σ → Prop}
    (hstep : ∀ s a seen seen', I seen seen' s → I (seen ++ f s a) (seen' ++ g s a) (step s a))
    {s : σ} {seen : List β} {seen' : List γ} (hs : I seen seen' s) (as : List α) :
    I (seen ++ collected step f s as) (seen' ++ collected step g s as) (run step s as) := by
  induction as generalizing s seen seen' with
  | nil => simpa [collected] using hs
  | cons a as ih => simpa [collected] using ih (hstep s a seen seen' hs)

/-! ## Legal runs -/

/-- Every event of the run is permitted in the state that meets it. -/
def Legal (step : σ → α → σ) (ok : σ → α → Prop) : σ → List α → Prop
  | _, [] => True
  | s, a :: as => ok s a ∧ Legal step ok (step s a) as

/-- Whether a run is legal can be decided when each single event can be. -/
instance decidableLegal (step : σ → α → σ) (ok : σ → α → Prop)
    [∀ s a, Decidable (ok s a)] :
    (s : σ) → (as : List α) → Decidable (Legal step ok s as)
  | _, [] => .isTrue trivial
  | s, a :: as => @instDecidableAnd _ _ _ (decidableLegal step ok (step s a) as)

@[simp] theorem legal_nil (step : σ → α → σ) (ok : σ → α → Prop) (s : σ) :
    Legal step ok s [] := trivial

@[simp] theorem legal_cons (step : σ → α → σ) (ok : σ → α → Prop) (s : σ) (a : α)
    (as : List α) :
    Legal step ok s (a :: as) ↔ ok s a ∧ Legal step ok (step s a) as := Iff.rfl

/-- A run is legal when its first part is and the rest is legal where it starts. -/
@[simp] theorem legal_append (step : σ → α → σ) (ok : σ → α → Prop) (s : σ)
    (as bs : List α) :
    Legal step ok s (as ++ bs) ↔ Legal step ok s as ∧ Legal step ok (run step s as) bs := by
  induction as generalizing s with
  | nil => simp
  | cons a as ih => simp [ih, and_assoc]

/-- **The invariant rule for legal runs.** -/
theorem Legal.invariant {step : σ → α → σ} {ok : σ → α → Prop} {I : σ → Prop}
    (hstep : ∀ s a, I s → ok s a → I (step s a)) {s : σ} {as : List α}
    (h : Legal step ok s as) (hs : I s) : I (run step s as) := by
  induction as generalizing s with
  | nil => exact hs
  | cons a as ih => exact ih h.2 (hstep s a hs h.1)

/-- Two rules that agree where the invariant holds permit the same runs. -/
theorem legal_congr {step : σ → α → σ} {ok ok' : σ → α → Prop} {I : σ → Prop}
    (hinv : ∀ s a, I s → I (step s a)) (hiff : ∀ s a, I s → (ok s a ↔ ok' s a)) {s : σ}
    (hs : I s) (as : List α) : Legal step ok s as ↔ Legal step ok' s as := by
  induction as generalizing s with
  | nil => simp
  | cons a as ih => rw [legal_cons, legal_cons, hiff s a hs, ih (hinv s a hs)]

/-! ## Calls in progress -/

section Calls

variable {κ γ : Type*} [DecidableEq κ] {calls : κ → Option γ} {key other : κ} {call : γ}

theorem update_eq_some {new : Option γ} :
    Function.update calls key new other = some call ↔
      (other = key ∧ new = some call) ∨ (other ≠ key ∧ calls other = some call) := by
  by_cases h : other = key <;> simp [h]

theorem update_none_eq_some :
    Function.update calls key none other = some call ↔ other ≠ key ∧ calls other = some call := by
  simp [update_eq_some]

/-- What holds of the new call and of every other one holds of all. -/
theorem forall_update {p : κ → γ → Prop} {new : γ} (hnew : p key new)
    (hold : ∀ other call, other ≠ key → calls other = some call → p other call) (other : κ)
    (call : γ) (h : Function.update calls key (some new) other = some call) : p other call := by
  rcases update_eq_some.mp h with ⟨rfl, hcall⟩ | ⟨hne, hkept⟩
  · exact Option.some.inj hcall ▸ hnew
  · exact hold other call hne hkept

end Calls

end Argmax.Lib
