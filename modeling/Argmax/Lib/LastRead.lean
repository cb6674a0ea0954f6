import Mathlib.Data.List.DropRight

/-!
# What was read last

A run of observations, some of which read a value. A cursor that every reading moves holds the
value that was read last. A reading that differs from the cursor is news. A run of readings of
one value is news at its first reading only.
-/

namespace Argmax.Lib

variable {α β : Type*} {read : α → Option β} {as : List α} {a : α} {b : β}

/-- The value that was read last. -/
def lastRead (read : α → Option β) (as : List α) : Option β := as.reverse.findSome? read

@[simp] theorem lastRead_nil : lastRead read [] = none := rfl

@[simp] theorem lastRead_append_singleton (as : List α) (a : α) :
    lastRead read (as ++ [a]) = (read a).or (lastRead read as) := by
  cases h : read a <;> simp [lastRead, h]

/-- A cursor that every reading moves holds what was read last. -/
theorem foldl_eq_lastRead {σ : Type*} {step : σ → α → σ} (cursor : σ → Option β)
    (hstep : ∀ s a, cursor (step s a) = (read a).or (cursor s)) (s : σ) (as : List α) :
    cursor (as.foldl step s) = (lastRead read as).or (cursor s) := by
  induction as using List.reverseRecOn with
  | nil => rfl
  | append_singleton as a ih =>
    rw [List.foldl_append, List.foldl_cons, List.foldl_nil, hstep, ih, lastRead_append_singleton,
      Option.or_assoc]

/-- An observation reads what was not read last. -/
def News (read : α → Option β) (before : List α) (a : α) (b : β) : Prop :=
  read a = some b ∧ lastRead read before ≠ some b

/-- No other value is read. -/
def ReadsOnly (read : α → Option β) (b : β) (as : List α) : Prop :=
  ∀ a ∈ as, ∀ c, read a = some c → c = b

/-- What was read last stays the value when no other is read. -/
theorem lastRead_append_of_readsOnly {before run : List α} (hrun : ReadsOnly read b run)
    (hread : lastRead read before = some b ∨ ∃ a ∈ run, read a = some b) :
    lastRead read (before ++ run) = some b := by
  induction run using List.reverseRecOn with
  | nil => simpa using hread
  | append_singleton run a ih =>
    rw [← List.append_assoc, lastRead_append_singleton]
    cases h : read a with
    | some c => rw [Option.some_or, hrun a (by simp) c h]
    | none =>
      refine ih (fun a' ha' => hrun a' (List.mem_append_left _ ha')) ?_
      simpa [or_and_right, exists_or, h] using hread

/-- Nothing is read in a run without the value. -/
theorem lastRead_append_of_none {before run : List α} (hrun : ∀ a ∈ run, read a = none) :
    lastRead read (before ++ run) = lastRead read before := by
  induction run using List.reverseRecOn with
  | nil => simp
  | append_singleton run a ih =>
    rw [← List.append_assoc, lastRead_append_singleton, hrun a (by simp)]
    exact ih fun a' ha' => hrun a' (List.mem_append_left _ ha')

/-- **A run that reads one value has one news**, whatever came before it, unless that value
was read last. -/
theorem existsUnique_news {before run : List α} (hrun : ReadsOnly read b run)
    (hread : ∃ a ∈ run, read a = some b) (hbefore : lastRead read before ≠ some b) :
    ∃! i, ∃ h : i < run.length, News read (before ++ run.take i) (run.get ⟨i, h⟩) b := by
  obtain ⟨early, a, late, rfl, ha, hearly⟩ : ∃ early a late, run = early ++ a :: late ∧
      read a = some b ∧ ∀ a' ∈ early, read a' = none := by
    have hfound : run.findSome? read = some b := by
      cases h : run.findSome? read with
      | none =>
        obtain ⟨a, hmem, ha⟩ := hread
        simp [List.findSome?_eq_none_iff.mp h a hmem] at ha
      | some c =>
        obtain ⟨a, hmem, ha⟩ := List.exists_of_findSome?_eq_some h
        rw [hrun a hmem c ha]
    exact List.findSome?_eq_some_iff.mp hfound
  refine ⟨early.length, ⟨by simp, ?_⟩, ?_⟩
  · refine ⟨by simpa using ha, ?_⟩
    rw [List.take_left', lastRead_append_of_none hearly]
    · exact hbefore
    · rfl
  · rintro i ⟨hi, hnew, hlast⟩
    rcases lt_trichotomy i early.length with hlt | rfl | hgt
    · have hnone := hearly (early.get ⟨i, hlt⟩) (List.get_mem _ _)
      simp only [List.get_eq_getElem, List.getElem_append_left hlt] at hnew hnone
      simp [hnone] at hnew
    · rfl
    · refine absurd ?_ hlast
      refine lastRead_append_of_readsOnly (fun a' ha' => hrun a' (List.mem_of_mem_take ha')) ?_
      refine .inr ⟨a, ?_, ha⟩
      rw [List.take_append, List.mem_append]
      refine .inr ?_
      obtain ⟨n, hn⟩ : ∃ n, i - early.length = n + 1 := ⟨i - early.length - 1, by omega⟩
      rw [hn]
      exact List.mem_cons_self

end Argmax.Lib
