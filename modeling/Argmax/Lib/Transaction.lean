import Mathlib.Data.List.Basic

/-!
# Transactions

A connection has a committed state and, while a transaction is open, the state that its
writes have reached. A write may fail on its own account, and the store may fail it as well:
a fault is an error at a point, the begin being point `0`, the writes following in order and
the commit coming last. A transaction that is dropped without a commit is rolled back.

## Main definitions

* `Connection`: the committed state and the one of the open transaction.
* `transact`: begin, write, commit; any error rolls back.
* `Kept`: what a loop that may leave entries out kept, with the reason for each other one.
-/

namespace Argmax.Lib

variable {σ ρ ε : Type*}

/-! ## Connections -/

structure Connection (σ : Type*) where
  committed : σ
  /-- What the open transaction sees. -/
  working : Option σ

namespace Connection

/-- A connection without a transaction. -/
def idle (s : σ) : Connection σ := ⟨s, none⟩

def begin (conn : Connection σ) : Connection σ := { conn with working := some conn.committed }

def commit (conn : Connection σ) : Connection σ := ⟨conn.working.getD conn.committed, none⟩

def rollback (conn : Connection σ) : Connection σ := { conn with working := none }

/-- What a statement reads. -/
def read (conn : Connection σ) : σ := conn.working.getD conn.committed

def write (conn : Connection σ) (s : σ) : Connection σ := { conn with working := some s }

@[simp] theorem idle_committed (s : σ) : (idle s).committed = s := rfl

@[simp] theorem idle_read (s : σ) : (idle s).read = s := rfl

@[simp] theorem begin_committed (conn : Connection σ) : conn.begin.committed = conn.committed :=
  rfl

@[simp] theorem begin_read (conn : Connection σ) : conn.begin.read = conn.committed := rfl

@[simp] theorem write_read (conn : Connection σ) (s : σ) : (conn.write s).read = s := rfl

@[simp] theorem rollback_eq (conn : Connection σ) : conn.rollback = idle conn.committed := rfl

@[simp] theorem commit_eq (conn : Connection σ) : conn.commit = idle conn.read := rfl

end Connection

/-! ## Transactions -/

/-- The writes in order, on the state of the transaction and what the program keeps. -/
def writes (fault : ℕ → Option ε) :
    ℕ → List (σ → ρ → Except ε (σ × ρ)) → Connection σ → ρ → Except ε ρ × Connection σ
  | _, [], conn, kept => (.ok kept, conn)
  | point, w :: ws, conn, kept =>
    match fault point with
    | some error => (.error error, conn)
    | none =>
      match w conn.read kept with
      | .error error => (.error error, conn)
      | .ok (s, kept) => writes fault (point + 1) ws (conn.write s) kept

/-- A transaction of the writes. -/
def transact (fault : ℕ → Option ε) (ws : List (σ → ρ → Except ε (σ × ρ)))
    (conn : Connection σ) (kept : ρ) : Except ε ρ × Connection σ :=
  match fault 0 with
  | some error => (.error error, conn)
  | none =>
    match writes fault 1 ws conn.begin kept with
    | (.error error, conn) => (.error error, conn.rollback)
    | (.ok kept, conn) =>
      match fault (ws.length + 1) with
      | some error => (.error error, conn.rollback)
      | none => (.ok kept, conn.commit)

/-- The writes in order, when nothing fails them but themselves. -/
def writeAll (ws : List (σ → ρ → Except ε (σ × ρ))) (now : σ × ρ) : Except ε (σ × ρ) :=
  ws.foldlM (fun now w => w now.1 now.2) now

@[simp] theorem writeAll_nil (now : σ × ρ) :
    writeAll ([] : List (σ → ρ → Except ε (σ × ρ))) now = .ok now := rfl

variable {ws : List (σ → ρ → Except ε (σ × ρ))} {after : σ × ρ} {fault : ℕ → Option ε} {kept : ρ}

theorem writeAll_cons_ok {w : σ → ρ → Except ε (σ × ρ)} {now : σ × ρ} :
    writeAll (w :: ws) now = .ok after ↔
      ∃ next, w now.1 now.2 = .ok next ∧ writeAll ws next = .ok after := by
  rw [writeAll, List.foldlM_cons]
  cases w now.1 now.2 with
  | error error => simp [bind, Except.bind]
  | ok next => simp [bind, Except.bind, writeAll]

theorem writeAll_append_ok {ws' : List (σ → ρ → Except ε (σ × ρ))} {now : σ × ρ} :
    writeAll (ws ++ ws') now = .ok after ↔
      ∃ next, writeAll ws now = .ok next ∧ writeAll ws' next = .ok after := by
  induction ws generalizing now with
  | nil => simp
  | cons w ws ih =>
    simp only [List.cons_append, writeAll_cons_ok, ih]
    constructor
    · rintro ⟨first, hfirst, next, hnext, hafter⟩
      exact ⟨next, ⟨first, hfirst, hnext⟩, hafter⟩
    · rintro ⟨next, ⟨first, hfirst, hnext⟩, hafter⟩
      exact ⟨first, hfirst, next, hnext, hafter⟩

/-- The writes never touch what is committed. -/
theorem writes_committed (fault : ℕ → Option ε) (point : ℕ)
    (ws : List (σ → ρ → Except ε (σ × ρ))) (conn : Connection σ) (kept : ρ) :
    (writes fault point ws conn kept).2.committed = conn.committed := by
  induction ws generalizing point conn kept with
  | nil => rfl
  | cons w ws ih =>
    rw [writes]
    split
    · rfl
    · split
      · rfl
      · exact ih _ _ _

/-- Writes that come to their end are the writes without faults. -/
theorem writes_ok {point : ℕ} {conn : Connection σ} {kept' : ρ}
    (h : (writes fault point ws conn kept).1 = .ok kept') :
    writeAll ws (conn.read, kept) = .ok ((writes fault point ws conn kept).2.read, kept') := by
  induction ws generalizing point conn kept with
  | nil =>
    simp only [writes, Except.ok.injEq] at h
    simp [writes, h]
  | cons w ws ih =>
    rw [writes] at h ⊢
    rw [writeAll_cons_ok]
    cases hfault : fault point with
    | some error => simp [hfault] at h
    | none =>
      cases hw : w conn.read kept with
      | error error => simp [hfault, hw] at h
      | ok next =>
        simp only [hfault, hw] at h ⊢
        exact ⟨next, rfl, by simpa using ih h⟩

/-- Writes that nothing fails but themselves come to what they come to without the store. -/
theorem writes_of_faultless (hfault : ∀ point, fault point = none) {point : ℕ} {conn : Connection σ}
    (h : writeAll ws (conn.read, kept) = .ok after) :
    (writes fault point ws conn kept).1 = .ok after.2 := by
  induction ws generalizing point conn kept with
  | nil =>
    simp only [writeAll_nil, Except.ok.injEq] at h
    simp [writes, ← h]
  | cons w ws ih =>
    obtain ⟨next, hnext, hrest⟩ := writeAll_cons_ok.mp h
    simp only [writes, hfault, hnext]
    exact ih (by simpa using hrest)

/-- A transaction that nothing fails succeeds when its writes do. -/
theorem transact_of_faultless (hfault : ∀ point, fault point = none) {s : σ}
    (h : writeAll ws (s, kept) = .ok after) :
    (transact fault ws (.idle s) kept).1 = .ok after.2 := by
  have hwrites : (writes fault 1 ws (Connection.idle s).begin kept).1 = .ok after.2 :=
    writes_of_faultless hfault (by simpa using h)
  rw [transact]
  cases hw : writes fault 1 ws (Connection.idle s).begin kept with
  | mk result conn =>
    rw [hw] at hwrites
    simp only at hwrites
    simp [hwrites, hfault]

/-- **Atomicity.** A transaction that fails, wherever it fails, leaves the state. -/
theorem transact_error {s : σ} {error : ε} (h : (transact fault ws (.idle s) kept).1 = .error error) :
    (transact fault ws (.idle s) kept).2 = .idle s := by
  have hcommitted := writes_committed fault 1 ws (Connection.idle s).begin kept
  rw [transact] at h ⊢
  cases hfault : fault 0 with
  | some error => rfl
  | none =>
    simp only [hfault] at h ⊢
    cases hw : writes fault 1 ws (Connection.idle s).begin kept with
    | mk result conn =>
      rw [hw] at hcommitted
      cases result with
      | error error => simpa using congrArg Connection.idle hcommitted
      | ok kept' =>
        cases hcommit : fault (ws.length + 1) with
        | some error => simpa using congrArg Connection.idle hcommitted
        | none => simp [hw, hcommit] at h

/-- A transaction that succeeds leaves what its writes come to. -/
theorem transact_ok {s : σ} {kept' : ρ} (h : (transact fault ws (.idle s) kept).1 = .ok kept') :
    ∃ after, writeAll ws (s, kept) = .ok (after, kept') ∧
      (transact fault ws (.idle s) kept).2 = .idle after := by
  rw [transact] at h ⊢
  cases hfault : fault 0 with
  | some error => simp [hfault] at h
  | none =>
    simp only [hfault] at h ⊢
    cases hw : writes fault 1 ws (Connection.idle s).begin kept with
    | mk result conn =>
      cases result with
      | error error => simp [hw] at h
      | ok kept'' =>
        cases hcommit : fault (ws.length + 1) with
        | some error => simp [hw, hcommit] at h
        | none =>
          simp only [hw, hcommit, Except.ok.injEq] at h
          have hwrites : (writes fault 1 ws (Connection.idle s).begin kept).1 = .ok kept'' := by
            rw [hw]
          have hall := writes_ok hwrites
          rw [hw, h] at hall
          exact ⟨conn.read, hall, by simp⟩

/-! ## What a loop keeps -/

/-- A loop over entries that may leave some out: what it kept, in order, and for each one
left out that it repeats something in view of the entries before it. -/
inductive Kept {α : Type*} (repeats : List α → α → Prop) : List α → List α → List α → Prop
  | nil (earlier : List α) : Kept repeats earlier [] []
  | keep {earlier entries kept : List α} (entry : α)
      (rest : Kept repeats (earlier ++ [entry]) entries kept) :
      Kept repeats earlier (entry :: entries) (entry :: kept)
  | leave {earlier entries kept : List α} (entry : α) (reason : repeats earlier entry)
      (rest : Kept repeats (earlier ++ [entry]) entries kept) :
      Kept repeats earlier (entry :: entries) kept

namespace Kept

variable {α : Type*} {repeats : List α → α → Prop} {earlier entries kept : List α}

/-- A weaker reason. -/
theorem imp {repeats' : List α → α → Prop} (h : Kept repeats earlier entries kept)
    (himp : ∀ earlier entry, repeats earlier entry → repeats' earlier entry) :
    Kept repeats' earlier entries kept := by
  induction h with
  | nil => exact .nil _
  | keep entry rest ih => exact .keep entry ih
  | leave entry reason rest ih => exact .leave entry (himp _ _ reason) ih

end Kept

end Argmax.Lib
