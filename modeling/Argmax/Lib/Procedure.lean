import Mathlib.Data.List.Basic

/-!
# Procedures whose writes stay

A procedure reads and writes a state, and may be refused on its way. There is no transaction
around it: what it has written by then stays. So it leaves nothing behind when it is refused
only if no check refuses it behind a write that shows.

What a procedure comes to is a list of steps: checks, which refuse or do not, and writes, which
show or do not. The rules read this list off the procedure.
-/

namespace Argmax.Lib

universe u v

/-! ## Procedures -/

structure Proc (σ ε α : Type u) where
  run : σ → σ × Except ε α

namespace Proc

variable {σ ε α β : Type u}

/-- The state that is left, and a result or the refusal. -/
def pure (a : α) : Proc σ ε α := ⟨fun s => (s, .ok a)⟩

/-- A refusal ends the procedure and keeps the state. -/
def bind (p : Proc σ ε α) (k : α → Proc σ ε β) : Proc σ ε β :=
  ⟨fun s =>
    match p.run s with
    | (s', .ok a) => (k a).run s'
    | (s', .error e) => (s', .error e)⟩

instance : Monad (Proc σ ε) where
  pure := pure
  bind := bind

def get : Proc σ ε σ := ⟨fun s => (s, .ok s)⟩

def modify (f : σ → σ) : Proc σ ε PUnit := ⟨fun s => (f s, .ok ⟨⟩)⟩

/-- What does not touch the state. -/
def lift (x : Except ε α) : Proc σ ε α := ⟨fun s => (s, x)⟩

/-- A check with its refusal. -/
def check (refusal : Option ε) : Proc σ ε PUnit :=
  ⟨fun s =>
    match refusal with
    | some e => (s, .error e)
    | none => (s, .ok ⟨⟩)⟩

theorem run_bind_ok {p : Proc σ ε α} {k : α → Proc σ ε β} {s s' : σ} {a : α}
    (h : p.run s = (s', .ok a)) : (p >>= k).run s = (k a).run s' := by
  change (bind p k).run s = _
  simp [bind, h]

theorem run_bind_error {p : Proc σ ε α} {k : α → Proc σ ε β} {s s' : σ} {e : ε}
    (h : p.run s = (s', .error e)) : (p >>= k).run s = (s', .error e) := by
  change (bind p k).run s = _
  simp [bind, h]

/-! ### What a run that is not refused tells -/

theorem bind_eq_ok {p : Proc σ ε α} {k : α → Proc σ ε β} {s s' : σ} {b : β} :
    (p >>= k).run s = (s', .ok b) ↔ ∃ a s₁, p.run s = (s₁, .ok a) ∧ (k a).run s₁ = (s', .ok b) := by
  cases hrun : p.run s with
  | mk s₁ result =>
    cases result with
    | ok a => simp [run_bind_ok hrun]
    | error e => simp [run_bind_error hrun]

theorem pure_eq_ok {a a' : α} {s s' : σ} :
    (Pure.pure a : Proc σ ε α).run s = (s', .ok a') ↔ s = s' ∧ a = a' := by
  change ((s, Except.ok a) : σ × Except ε α) = _ ↔ _
  simp [Prod.ext_iff]

theorem map_eq_ok {p : Proc σ ε α} {f : α → β} {s s' : σ} {b : β} :
    (f <$> p).run s = (s', .ok b) ↔ ∃ a, p.run s = (s', .ok a) ∧ f a = b := by
  change (p >>= fun a => Pure.pure (f a)).run s = _ ↔ _
  rw [bind_eq_ok]
  constructor
  · rintro ⟨a, s₁, hp, hpure⟩
    have ⟨hs, hb⟩ := pure_eq_ok.mp hpure
    exact ⟨a, hs ▸ hp, hb⟩
  · rintro ⟨a, hp, hb⟩
    exact ⟨a, s', hp, pure_eq_ok.mpr ⟨rfl, hb⟩⟩

theorem modify_eq_ok {f : σ → σ} {s s' : σ} {u : PUnit} :
    (modify f : Proc σ ε PUnit).run s = (s', .ok u) ↔ f s = s' := by
  simp [modify, Prod.ext_iff]

theorem lift_eq_ok {x : Except ε α} {a : α} {s s' : σ} :
    (lift x).run s = (s', .ok a) ↔ s = s' ∧ x = .ok a := by
  simp [lift, Prod.ext_iff]

theorem check_eq_ok {refusal : Option ε} {u : PUnit} {s s' : σ} :
    (check refusal).run s = (s', .ok u) ↔ s = s' ∧ refusal = none := by
  cases refusal <;> simp [check, Prod.ext_iff]

end Proc

/-! ## Procedures that show nothing -/

section Quiet

variable {σ ε α β : Type u} {ω : Type v} {observe : σ → ω}

/-- The procedure changes nothing that is observed. -/
def Quiet (observe : σ → ω) (p : Proc σ ε α) : Prop := ∀ s, observe (p.run s).1 = observe s

/-- The procedure changes nothing that is observed where it is refused. -/
def QuietWhenRefused (observe : σ → ω) (p : Proc σ ε α) : Prop :=
  ∀ s s' e, p.run s = (s', .error e) → observe s' = observe s

theorem Quiet.whenRefused {p : Proc σ ε α} (h : Quiet observe p) : QuietWhenRefused observe p :=
  fun s s' e hrun => by simpa [hrun] using h s

theorem quiet_pure (a : α) : Quiet observe (Pure.pure a : Proc σ ε α) := fun _ => rfl

theorem quiet_get : Quiet observe (Proc.get : Proc σ ε σ) := fun _ => rfl

theorem quiet_lift (x : Except ε α) : Quiet observe (Proc.lift x : Proc σ ε α) := fun _ => rfl

theorem quiet_check (refusal : Option ε) : Quiet observe (Proc.check refusal : Proc σ ε PUnit) :=
  fun _ => by cases refusal <;> rfl

theorem quiet_modify {f : σ → σ} (h : ∀ s, observe (f s) = observe s) :
    Quiet observe (Proc.modify f : Proc σ ε PUnit) := h

theorem Quiet.bind {p : Proc σ ε α} {k : α → Proc σ ε β} (hp : Quiet observe p)
    (hk : ∀ a, Quiet observe (k a)) : Quiet observe (p >>= k) := by
  intro s
  cases hrun : p.run s with
  | mk s' result =>
    have hs := hp s
    rw [hrun] at hs
    cases result with
    | ok a => rw [Proc.run_bind_ok hrun, hk a s', hs]
    | error e => rw [Proc.run_bind_error hrun, hs]

theorem Quiet.bind_whenRefused {p : Proc σ ε α} {k : α → Proc σ ε β} (hp : Quiet observe p)
    (hk : ∀ a, QuietWhenRefused observe (k a)) : QuietWhenRefused observe (p >>= k) := by
  intro s s' e hrefused
  cases hrun : p.run s with
  | mk s₁ result =>
    have hs := hp s
    rw [hrun] at hs
    cases result with
    | ok a =>
      rw [Proc.run_bind_ok hrun] at hrefused
      rw [hk a s₁ s' e hrefused, hs]
    | error e' =>
      rw [Proc.run_bind_error hrun] at hrefused
      rw [← (Prod.mk.inj hrefused).1, hs]

theorem QuietWhenRefused.bind {p : Proc σ ε α} {k : α → Proc σ ε β}
    (hp : QuietWhenRefused observe p)
    (hk : ∀ s s₁ s' a e, p.run s = (s₁, .ok a) → (k a).run s₁ = (s', .error e) →
      observe s' = observe s) : QuietWhenRefused observe (p >>= k) := by
  intro s s' e hrefused
  cases hrun : p.run s with
  | mk s₁ result =>
    cases result with
    | ok a =>
      rw [Proc.run_bind_ok hrun] at hrefused
      exact hk s s₁ s' a e hrun hrefused
    | error e' =>
      rw [Proc.run_bind_error hrun] at hrefused
      rw [← (Prod.mk.inj hrefused).1]
      exact hp s s₁ e' hrun

theorem pure_ne_error {a : α} {s s' : σ} {e : ε} :
    (Pure.pure a : Proc σ ε α).run s ≠ (s', .error e) := by
  change ((s, Except.ok a) : σ × Except ε α) ≠ _
  simp

theorem QuietWhenRefused.bind_pure {p : Proc σ ε α} (hp : QuietWhenRefused observe p)
    (f : α → β) : QuietWhenRefused observe (p >>= fun a => Pure.pure (f a)) :=
  hp.bind fun _ _ _ _ _ _ hrefused => absurd hrefused pure_ne_error

theorem Quiet.of_run {p : Proc σ ε α} (h : Quiet observe p) {s s' : σ} {a : α}
    (hrun : p.run s = (s', .ok a)) : observe s' = observe s := by
  simpa [hrun] using h s

end Quiet

/-! ## Steps -/

/-- A check that refuses or not, or a write that shows or not. -/
inductive Step where
  | check (refuses : Bool)
  | write (shows : Bool)

namespace Step

/-- Whether the steps are refused, and whether a write showed by then. -/
def trace : Bool → List Step → Bool × Bool
  | shown, [] => (false, shown)
  | shown, .check true :: _ => (true, shown)
  | shown, .check false :: steps => trace shown steps
  | shown, .write visible :: steps => trace (shown || visible) steps

theorem trace_append (shown : Bool) (steps rest : List Step) :
    trace shown (steps ++ rest) =
      if (trace shown steps).1 then trace shown steps else trace (trace shown steps).2 rest := by
  induction steps generalizing shown with
  | nil => rfl
  | cons step steps ih =>
    cases step with
    | check refuses =>
      cases refuses
      · exact ih shown
      · rfl
    | write visible => exact ih (shown || visible)

/-- Behind the first write that shows no check refuses, unless one refused before. -/
def Spared : List Step → Prop
  | [] => True
  | .check true :: _ => True
  | .check false :: steps => Spared steps
  | .write false :: steps => Spared steps
  | .write true :: steps => .check true ∉ steps

theorem trace_true (steps : List Step) :
    (trace true steps).2 = true ∧ ((trace true steps).1 = true ↔ .check true ∈ steps) := by
  induction steps with
  | nil => simp [trace]
  | cons step steps ih =>
    cases step with
    | check refuses => cases refuses <;> simp [trace, ih]
    | write visible => simp [trace, ih]

theorem spared_iff (steps : List Step) : Spared steps ↔ trace false steps ≠ (true, true) := by
  induction steps with
  | nil => simp [Spared, trace]
  | cons step steps ih =>
    cases step with
    | check refuses => cases refuses <;> simp [Spared, trace, ih]
    | write visible =>
      cases visible
      · simpa [Spared, trace] using ih
      · have ⟨hshown, hrefused⟩ := trace_true steps
        simp [Spared, trace, Prod.ext_iff, hshown, hrefused]

end Step

/-! ## What a procedure comes to -/

open Step

/-- From a state where a write has shown or not, the procedure comes to the steps: `seen` is
what was observed at first. -/
structure Follows {σ ε α : Type u} {ω : Type v} (observe : σ → ω) (seen : ω)
    (shown : Bool) (p : Proc σ ε α) (s : σ) (steps : List Step) : Prop where
  refused : (p.run s).2.toBool = !(trace shown steps).1
  observed : observe (p.run s).1 = seen ↔ (trace shown steps).2 = false

variable {steps : List Step}

section Rules

variable {σ ε α β : Type u} {ω : Type v} {observe : σ → ω} {seen : ω} {shown : Bool}
  {s : σ}

theorem follows_pure (h : observe s = seen ↔ shown = false) (a : α) :
    Follows observe seen shown (Pure.pure a : Proc σ ε α) s [] := ⟨rfl, h⟩

theorem follows_check (h : observe s = seen ↔ shown = false) (refusal : Option ε) :
    Follows observe seen shown (Proc.check refusal) s [.check refusal.isSome] := by
  cases refusal <;> exact ⟨rfl, h⟩

theorem follows_lift (h : observe s = seen ↔ shown = false) (x : Except ε α) :
    Follows observe seen shown (Proc.lift x) s [.check !x.toBool] := by
  cases x <;> exact ⟨rfl, h⟩

theorem follows_modify {f : σ → σ} {visible : Bool}
    (h : observe (f s) = seen ↔ (shown || visible) = false) :
    Follows observe seen shown (Proc.modify f : Proc σ ε PUnit) s [.write visible] := ⟨rfl, h⟩

/-- A write that does not show takes no step. -/
theorem follows_quiet {f : σ → σ} (h : observe (f s) = seen ↔ shown = false) :
    Follows observe seen shown (Proc.modify f : Proc σ ε PUnit) s [] := ⟨rfl, h⟩

/-- **The sequence rule.** -/
theorem Follows.bind {p : Proc σ ε α} {k : α → Proc σ ε β} {rest : List Step}
    (hp : Follows observe seen shown p s steps)
    (hk : ∀ a s', p.run s = (s', .ok a) → (observe s' = seen ↔ (trace shown steps).2 = false) →
      Follows observe seen (trace shown steps).2 (k a) s' rest) :
    Follows observe seen shown (p >>= k) s (steps ++ rest) := by
  cases hrun : p.run s with
  | mk s' result =>
    have hrefused := hp.refused
    have hobserved := hp.observed
    rw [hrun] at hrefused hobserved
    cases result with
    | error e =>
      have hstopped : (trace shown steps).1 = true := by simpa [Except.toBool] using hrefused
      constructor <;> rw [Proc.run_bind_error hrun, trace_append, if_pos hstopped]
      · exact hrefused
      · exact hobserved
    | ok a =>
      have hpassed : ¬(trace shown steps).1 = true := by simpa [Except.toBool] using hrefused
      have ⟨hrefused', hobserved'⟩ := hk a s' hrun hobserved
      constructor <;> rw [Proc.run_bind_ok hrun, trace_append, if_neg hpassed]
      · exact hrefused'
      · exact hobserved'

/-- What takes no step may follow. -/
theorem Follows.bind_quiet {p : Proc σ ε α} {k : α → Proc σ ε β}
    (hp : Follows observe seen shown p s steps)
    (hk : ∀ a s' shown', (observe s' = seen ↔ shown' = false) →
      Follows observe seen shown' (k a) s' []) : Follows observe seen shown (p >>= k) s steps := by
  have h : Follows observe seen shown (p >>= k) s (steps ++ []) :=
    hp.bind fun a s' _ hobserved => hk a s' _ hobserved
  simpa using h

theorem Follows.bind_pure {p : Proc σ ε α} (hp : Follows observe seen shown p s steps) (f : α → β) :
    Follows observe seen shown (p >>= fun a => Pure.pure (f a)) s steps :=
  hp.bind_quiet fun a _ _ hobserved => follows_pure hobserved (f a)

/-! ### One step and what follows -/

theorem Follows.get_bind {k : σ → Proc σ ε β} (h : Follows observe seen shown (k s) s steps) :
    Follows observe seen shown (Proc.get >>= k) s steps := ⟨h.refused, h.observed⟩

theorem Follows.pure_bind {a : α} {k : α → Proc σ ε β}
    (h : Follows observe seen shown (k a) s steps) :
    Follows observe seen shown (Pure.pure a >>= k) s steps := ⟨h.refused, h.observed⟩

theorem Follows.quiet_bind {f : σ → σ} {k : PUnit → Proc σ ε β}
    (h : Follows observe seen shown (k ⟨⟩) (f s) steps) :
    Follows observe seen shown (Proc.modify f >>= k) s steps := ⟨h.refused, h.observed⟩

theorem Follows.modify_bind {f : σ → σ} {visible : Bool} {k : PUnit → Proc σ ε β}
    (h : Follows observe seen (shown || visible) (k ⟨⟩) (f s) steps) :
    Follows observe seen shown (Proc.modify f >>= k) s (.write visible :: steps) :=
  ⟨h.refused, h.observed⟩

theorem Follows.check_bind (h : observe s = seen ↔ shown = false) {refusal : Option ε}
    {k : PUnit → Proc σ ε β} (hk : refusal = none → Follows observe seen shown (k ⟨⟩) s steps) :
    Follows observe seen shown (Proc.check refusal >>= k) s (.check refusal.isSome :: steps) := by
  cases refusal with
  | none => exact ⟨(hk rfl).refused, (hk rfl).observed⟩
  | some e => exact ⟨rfl, h⟩

theorem Follows.lift_bind (h : observe s = seen ↔ shown = false) {x : Except ε α}
    {k : α → Proc σ ε β} (hk : ∀ a, x = .ok a → Follows observe seen shown (k a) s steps) :
    Follows observe seen shown (Proc.lift x >>= k) s (.check (!x.toBool) :: steps) := by
  cases x with
  | ok a => exact ⟨(hk a rfl).refused, (hk a rfl).observed⟩
  | error e => exact ⟨rfl, h⟩

/-- A refused procedure leaves what is observed as it was just when its steps are spared. -/
theorem Follows.spared_iff {p : Proc σ ε α} (h : Follows observe (observe s) false p s steps) :
    ((∀ e, (p.run s).2 = .error e → observe (p.run s).1 = observe s) ↔ Spared steps) := by
  rw [Step.spared_iff, h.observed]
  have hrefused := h.refused
  cases hrun : (p.run s).2 with
  | ok a =>
    simp_all [Except.toBool, Prod.ext_iff]
  | error e =>
    simp_all [Except.toBool, Prod.ext_iff]

end Rules

end Argmax.Lib
