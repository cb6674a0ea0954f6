import Argmax.Error
import Argmax.Lib.Transition
import Mathlib.Data.List.Count

/-!
# The archive gate

`workspaces/lifecycle.rs`: who may start a process in a workspace, and who may archive it. The
gate counts admissions under a lock, and no lock is held for as long as one is alive. A lease
carries no identity but the workspace. So the gate is closed to admissions while a lease is
outstanding only if nobody reopens it under the lease, which `reopen` does not check.
-/

namespace Argmax.Workspaces.Lifecycle

open Argmax.Lib

/-! ## The gate -/

inductive LifecycleState where
  /-- `Open`. -/
  | opened
  | archiving
  | failed
  | archived
  deriving DecidableEq

inductive ArchiveOutcome where
  | archived
  | reopened
  | failed
  deriving DecidableEq

/-- The state behind an outcome. -/
def ArchiveOutcome.state : ArchiveOutcome → LifecycleState
  | .archived => .archived
  | .failed => .failed
  | .reopened => .opened

structure Entry where
  state : LifecycleState
  admissions : ℕ

/-- `Entry::default`. -/
def Entry.fresh : Entry := ⟨.opened, 0⟩

/-- The entries of the workspaces. -/
abbrev Entries := String → Option Entry

namespace Entries

variable (entries : Entries) (workspaceId : String)

/-- `or_default`. -/
def entry : Entry := (entries workspaceId).getD .fresh

def set (entry : Entry) : Entries := Function.update entries workspaceId (some entry)

def remove : Entries := Function.update entries workspaceId none

/-- `admit`. -/
def admitUse : Entries × ArgmaxResult Unit :=
  let entry := entries.entry workspaceId
  match entry.state with
  | .archiving =>
    (entries.set workspaceId entry, .error (.service "WORKSPACE_ARCHIVING"
      "Workspace archive is in progress; no new process can be started."))
  | .failed | .archived =>
    (entries.set workspaceId entry, .error (.service "WORKSPACE_ARCHIVE_FAILED"
      "Workspace archive requires explicit recovery before new processes can start."))
  | .opened =>
    (entries.set workspaceId { entry with admissions := entry.admissions + 1 }, .ok ())

def beginArchive : Entries × ArgmaxResult Unit :=
  let entry := entries.entry workspaceId
  match entry.state with
  | .archiving | .archived =>
    (entries.set workspaceId entry, .error (.service "WORKSPACE_ARCHIVE_IN_PROGRESS"
      "Workspace archive is already in progress or has completed."))
  | .opened | .failed => (entries.set workspaceId { entry with state := .archiving }, .ok ())

/-- `begin_cleanup`, and whether it gives a lease. -/
def beginCleanup : Entries × ArgmaxResult Bool :=
  let entry := entries.entry workspaceId
  match entry.state with
  | .opened => (entries.set workspaceId { entry with state := .archiving }, .ok true)
  | .archived => (entries.set workspaceId entry, .ok false)
  | .archiving | .failed =>
    (entries.set workspaceId entry, .error (.service "WORKSPACE_CLEANUP_BLOCKED"
      "Workspace lifecycle work is still in progress."))

def releaseAdmission : Entries :=
  match entries workspaceId with
  | none => entries
  | some entry =>
    let entry := { entry with admissions := entry.admissions - 1 }
    if entry.admissions = 0 ∧ entry.state = .opened then entries.remove workspaceId
    else entries.set workspaceId entry

def finishArchive (outcome : ArchiveOutcome) : Entries :=
  match entries workspaceId with
  | none => entries
  | some entry =>
    if outcome = .reopened ∧ entry.admissions = 0 then entries.remove workspaceId
    else entries.set workspaceId { entry with state := outcome.state }

def reopen : Entries :=
  match entries workspaceId with
  | none => entries
  | some entry =>
    if entry.admissions = 0 then entries.remove workspaceId
    else entries.set workspaceId { entry with state := .opened }

end Entries

/-! ## Who holds what -/

/-- The gate, and the workspaces of the admissions and leases that are held. -/
structure Held where
  entries : Entries
  admissions : List String
  leases : List String

inductive Action where
  | admitUse (workspaceId : String)
  | dropAdmission (workspaceId : String)
  | beginArchive (workspaceId : String)
  | beginCleanup (workspaceId : String)
  | finish (workspaceId : String) (outcome : ArchiveOutcome)
  | dropLease (workspaceId : String)
  | reopen (workspaceId : String)

/-- Nothing is held. -/
def Held.start : Held := ⟨fun _ => none, [], []⟩

/-- A lease ends. One that is dropped reopens the gate. -/
def Held.endLease (held : Held) (workspaceId : String) (outcome : ArchiveOutcome) : Held :=
  if workspaceId ∈ held.leases then
    { held with
      entries := held.entries.finishArchive workspaceId outcome
      leases := held.leases.erase workspaceId }
  else held

def step (held : Held) : Action → Held
  | .admitUse workspaceId =>
    match held.entries.admitUse workspaceId with
    | (entries, .ok _) =>
      { held with entries := entries, admissions := workspaceId :: held.admissions }
    | (entries, .error _) => { held with entries := entries }
  | .dropAdmission workspaceId =>
    if workspaceId ∈ held.admissions then
      { held with
        entries := held.entries.releaseAdmission workspaceId
        admissions := held.admissions.erase workspaceId }
    else held
  | .beginArchive workspaceId =>
    match held.entries.beginArchive workspaceId with
    | (entries, .ok _) => { held with entries := entries, leases := workspaceId :: held.leases }
    | (entries, .error _) => { held with entries := entries }
  | .beginCleanup workspaceId =>
    match held.entries.beginCleanup workspaceId with
    | (entries, .ok true) =>
      { held with entries := entries, leases := workspaceId :: held.leases }
    | (entries, _) => { held with entries := entries }
  | .finish workspaceId outcome => held.endLease workspaceId outcome
  | .dropLease workspaceId => held.endLease workspaceId .reopened
  | .reopen workspaceId => { held with entries := held.entries.reopen workspaceId }

/-- What the gate is for. -/
structure Gated (held : Held) : Prop where
  /-- It counts the admissions that are held. -/
  counted : ∀ workspaceId,
    (held.entries.entry workspaceId).admissions = held.admissions.count workspaceId
  /-- At most one lease of a workspace is outstanding. -/
  exclusive : ∀ workspaceId, held.leases.count workspaceId ≤ 1
  /-- While it is, nobody is admitted. -/
  closed : ∀ workspaceId ∈ held.leases, ∀ u, (held.entries.admitUse workspaceId).2 ≠ .ok u
  /-- A lease that ends does not let anybody in while another one is outstanding. -/
  lasting : ∀ workspaceId outcome, workspaceId ∈ (held.endLease workspaceId outcome).leases →
    ∀ u, ((held.endLease workspaceId outcome).entries.admitUse workspaceId).2 ≠ .ok u

/-- Nobody reopens a gate under a lease. -/
def Recovers (held : Held) : Action → Prop
  | .reopen workspaceId => (held.entries.entry workspaceId).state ≠ .archiving
  | _ => True

/-! ## Entries -/

namespace Entries

variable (entries : Entries) (workspaceId other : String)

@[simp] theorem entry_set (row : Entry) :
    (entries.set workspaceId row).entry other =
      if other = workspaceId then row else entries.entry other := by
  by_cases h : other = workspaceId
  · simp [entry, set, h]
  · simp [entry, set, h]

@[simp] theorem entry_remove :
    (entries.remove workspaceId).entry other =
      if other = workspaceId then .fresh else entries.entry other := by
  by_cases h : other = workspaceId
  · simp [entry, remove, h]
  · simp [entry, remove, h]

/-- An entry that is removed was a fresh one. -/
theorem entry_releaseAdmission :
    (entries.releaseAdmission workspaceId).entry other =
      if other = workspaceId then
        { entries.entry workspaceId with
          admissions := (entries.entry workspaceId).admissions - 1 }
      else entries.entry other := by
  rw [releaseAdmission]
  cases hentry : entries workspaceId with
  | none =>
    have hfresh : entries.entry workspaceId = .fresh := by simp [entry, hentry]
    by_cases h : other = workspaceId
    · simp [h, hfresh, Entry.fresh]
    · simp [h]
  | some row =>
    have hrow : entries.entry workspaceId = row := by simp [entry, hentry]
    rw [hrow]
    dsimp only
    split
    case isTrue hgone =>
      rw [entry_remove, hgone.1, hgone.2]
      rfl
    case isFalse => rw [entry_set]

theorem entry_finishArchive (outcome : ArchiveOutcome)
    (hpresent : (entries.entry workspaceId).state ≠ .opened) :
    (entries.finishArchive workspaceId outcome).entry other =
      if other = workspaceId then { entries.entry workspaceId with state := outcome.state }
      else entries.entry other := by
  rw [finishArchive]
  cases hentry : entries workspaceId with
  | none =>
    have hfresh : entries.entry workspaceId = .fresh := by simp [entry, hentry]
    rw [hfresh] at hpresent
    exact absurd rfl hpresent
  | some row =>
    have hrow : entries.entry workspaceId = row := by simp [entry, hentry]
    rw [hrow]
    dsimp only
    split
    case isTrue hgone =>
      rw [entry_remove, hgone.1, hgone.2]
      rfl
    case isFalse => rw [entry_set]

theorem entry_reopen :
    (entries.reopen workspaceId).entry other =
      if other = workspaceId then { entries.entry workspaceId with state := .opened }
      else entries.entry other := by
  rw [reopen]
  cases hentry : entries workspaceId with
  | none =>
    have hfresh : entries.entry workspaceId = .fresh := by simp [entry, hentry]
    by_cases h : other = workspaceId
    · simp [h, hfresh, Entry.fresh]
    · simp [h]
  | some row =>
    have hrow : entries.entry workspaceId = row := by simp [entry, hentry]
    rw [hrow]
    dsimp only
    split
    case isTrue hgone =>
      rw [entry_remove, hgone]
      rfl
    case isFalse => rw [entry_set]

end Entries

/-! ## Runs -/

/-- The gate counts what is held, and is archiving just under a lease. -/
structure Guarded (held : Held) : Prop where
  counted : ∀ workspaceId,
    (held.entries.entry workspaceId).admissions = held.admissions.count workspaceId
  leased : ∀ workspaceId, held.leases.count workspaceId =
    if (held.entries.entry workspaceId).state = .archiving then 1 else 0

variable {workspaceId : String}

section Step

variable {held : Held}

theorem guarded_start : Guarded .start where
  counted := fun _ => rfl
  leased := fun _ => rfl

section

variable (h : Guarded held)
include h

/-- An entry that is written back as it is. -/
theorem Guarded.set_entry (workspaceId : String) :
    Guarded { held with
      entries := held.entries.set workspaceId (held.entries.entry workspaceId) } := by
  refine ⟨fun other => ?_, fun other => ?_⟩
  · by_cases hother : other = workspaceId <;> simp [hother, h.counted]
  · by_cases hother : other = workspaceId <;> simp [hother, h.leased]

theorem Guarded.admitUse (workspaceId : String) : Guarded (step held (.admitUse workspaceId)) := by
  cases hstate : (held.entries.entry workspaceId).state
  case opened =>
    simp only [step, Entries.admitUse, hstate]
    refine ⟨fun other => ?_, fun other => ?_⟩
    · by_cases hother : other = workspaceId
      · simp [hother, h.counted]
      · simp [hother, Ne.symm hother, h.counted]
    · by_cases hother : other = workspaceId <;> simp [hother, hstate, h.leased]
  all_goals
    simp only [step, Entries.admitUse, hstate]
    exact h.set_entry workspaceId

theorem Guarded.dropAdmission (workspaceId : String) :
    Guarded (step held (.dropAdmission workspaceId)) := by
  rw [step]
  split
  case isFalse => exact h
  case isTrue hheld =>
    refine ⟨fun other => ?_, fun other => ?_⟩
    · rw [Entries.entry_releaseAdmission]
      by_cases hother : other = workspaceId
      · simp [hother, h.counted]
      · rw [if_neg hother, h.counted, List.count_erase_of_ne hother]
    · rw [Entries.entry_releaseAdmission, h.leased]
      by_cases hother : other = workspaceId <;> simp [hother]

/-- A lease is given for a workspace that nobody archives. -/
theorem Guarded.lease
    (hstate : (held.entries.entry workspaceId).state ≠ .archiving) :
    Guarded { held with
      entries := held.entries.set workspaceId
        { held.entries.entry workspaceId with state := .archiving }
      leases := workspaceId :: held.leases } := by
  refine ⟨fun other => ?_, fun other => ?_⟩
  · by_cases hother : other = workspaceId <;> simp [hother, h.counted]
  · by_cases hother : other = workspaceId
    · simp [hother, h.leased, hstate]
    · simp [hother, Ne.symm hother, h.leased]

theorem Guarded.beginArchive (workspaceId : String) :
    Guarded (step held (.beginArchive workspaceId)) := by
  cases hstate : (held.entries.entry workspaceId).state <;>
    simp [step, Entries.beginArchive, hstate]
  case opened => exact h.lease (by simp [hstate])
  case failed => exact h.lease (by simp [hstate])
  case archiving => exact h.set_entry workspaceId
  case archived => exact h.set_entry workspaceId

theorem Guarded.beginCleanup (workspaceId : String) :
    Guarded (step held (.beginCleanup workspaceId)) := by
  cases hstate : (held.entries.entry workspaceId).state <;>
    simp [step, Entries.beginCleanup, hstate]
  case opened => exact h.lease (by simp [hstate])
  case failed => exact h.set_entry workspaceId
  case archiving => exact h.set_entry workspaceId
  case archived => exact h.set_entry workspaceId

/-- Under a lease the gate is archiving. -/
theorem Guarded.archiving (hlease : workspaceId ∈ held.leases) :
    (held.entries.entry workspaceId).state = .archiving := by
  have hcount := h.leased workspaceId
  have hpositive := List.count_pos_iff.mpr hlease
  by_contra hstate
  rw [if_neg hstate] at hcount
  omega

theorem Guarded.endLease (workspaceId : String) (outcome : ArchiveOutcome) :
    Guarded (held.endLease workspaceId outcome) := by
  rw [Held.endLease]
  split
  case isFalse => exact h
  case isTrue hlease =>
    have hstate := h.archiving hlease
    have hentry (other : String) := Entries.entry_finishArchive held.entries workspaceId other
      outcome (by simp [hstate])
    refine ⟨fun other => ?_, fun other => ?_⟩
    · rw [hentry]
      by_cases hother : other = workspaceId <;> simp [hother, h.counted]
    · rw [hentry]
      by_cases hother : other = workspaceId
      · subst hother
        cases outcome <;> simp [ArchiveOutcome.state, h.leased, hstate]
      · rw [if_neg hother, List.count_erase_of_ne hother, h.leased]

theorem Guarded.reopen
    (hstate : (held.entries.entry workspaceId).state ≠ .archiving) :
    Guarded (step held (.reopen workspaceId)) := by
  refine ⟨fun other => ?_, fun other => ?_⟩
  · rw [step, Entries.entry_reopen]
    by_cases hother : other = workspaceId <;> simp [hother, h.counted]
  · rw [step, Entries.entry_reopen]
    by_cases hother : other = workspaceId
    · simp [hother, h.leased, hstate]
    · simp [hother, h.leased]

theorem Guarded.step {action : Action} (hrecovers : Recovers held action) :
    Guarded (step held action) := by
  cases action with
  | admitUse workspaceId => exact h.admitUse workspaceId
  | dropAdmission workspaceId => exact h.dropAdmission workspaceId
  | beginArchive workspaceId => exact h.beginArchive workspaceId
  | beginCleanup workspaceId => exact h.beginCleanup workspaceId
  | finish workspaceId outcome => exact h.endLease workspaceId outcome
  | dropLease workspaceId => exact h.endLease workspaceId .reopened
  | reopen workspaceId => exact h.reopen hrecovers

theorem Guarded.exclusive (workspaceId : String) : held.leases.count workspaceId ≤ 1 := by
  rw [h.leased]
  split <;> simp

theorem Guarded.closed (hlease : workspaceId ∈ held.leases) (u : Unit) :
    (held.entries.admitUse workspaceId).2 ≠ .ok u := by
  simp [Entries.admitUse, h.archiving hlease]

theorem Guarded.gated : Gated held where
  counted := h.counted
  exclusive := h.exclusive
  closed := fun _ hlease => h.closed hlease
  lasting := fun workspaceId outcome hlease =>
    (h.endLease workspaceId outcome).closed hlease

end

end Step

/-- **The archive gate.** In every run in which nobody reopens a gate under a lease. -/
theorem gated_run {actions : List Action} (h : Legal step Recovers .start actions) :
    Gated (run step .start actions) :=
  (h.invariant (fun _ _ hguarded hrecovers => hguarded.step hrecovers) guarded_start).gated

/-- An archive fails, is recovered and tried again. -/
theorem gated_retry : Gated (run step .start
    [.admitUse "w", .beginArchive "w", .dropAdmission "w", .finish "w" .failed, .reopen "w",
      .beginCleanup "w", .dropLease "w", .beginArchive "w"]) :=
  gated_run (by
    simp [Recovers, step, Held.start, Held.endLease, Entries.admitUse, Entries.beginArchive,
      Entries.releaseAdmission, Entries.finishArchive, Entries.entry, Entries.set, Entries.remove,
      Entry.fresh, ArchiveOutcome.state])

/-- A gate that is reopened under a lease gives another one. -/
theorem reopened_under_lease :
    ¬Gated (run step .start [.beginArchive "w", .reopen "w", .beginArchive "w"]) := by
  intro h
  have hcount := h.exclusive "w"
  simp [step, Held.start, Entries.beginArchive, Entries.reopen, Entries.entry, Entries.set,
    Entries.remove, Entry.fresh] at hcount

end Argmax.Workspaces.Lifecycle
