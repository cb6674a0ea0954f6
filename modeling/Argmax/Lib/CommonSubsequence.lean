import Argmax.Lib.EditScript

/-!
# Longest common subsequences

How long a common subsequence of two lists can be, with the recurrence that a table follows and
the trimming of what both lists start and end with. What an edit script keeps is a common
subsequence, so a script that keeps a longest one changes least.
-/

namespace Argmax.Lib

variable {α : Type*} {as bs : List α} {n m : ℕ}

/-- The length of a longest common subsequence. -/
structure IsLongestCommon (n : ℕ) (as bs : List α) : Prop where
  attained : ∃ cs : List α, cs.Sublist as ∧ cs.Sublist bs ∧ cs.length = n
  longest : ∀ cs : List α, cs.Sublist as → cs.Sublist bs → cs.length ≤ n

namespace IsLongestCommon

theorem nil_left (bs : List α) : IsLongestCommon 0 [] bs where
  attained := ⟨[], List.Sublist.refl _, List.nil_sublist _, rfl⟩
  longest := fun cs has _ => by simp [List.sublist_nil.mp has]

theorem symm (h : IsLongestCommon n as bs) : IsLongestCommon n bs as where
  attained := by
    obtain ⟨cs, has, hbs, hlength⟩ := h.attained
    exact ⟨cs, hbs, has, hlength⟩
  longest := fun cs hbs has => h.longest cs has hbs

theorem cons (h : IsLongestCommon n as bs) (a : α) :
    IsLongestCommon (n + 1) (a :: as) (a :: bs) where
  attained := by
    obtain ⟨cs, has, hbs, hlength⟩ := h.attained
    exact ⟨a :: cs, has.cons_cons a, hbs.cons_cons a, by simp [hlength]⟩
  longest := fun cs has hbs => by
    cases cs with
    | nil => simp
    | cons c cs =>
      have hle := h.longest cs has.tail hbs.tail
      simp only [List.length_cons]
      omega

/-- A longest common subsequence leaves out one of two different heads. -/
theorem cons_of_ne {a b : α} (hne : a ≠ b) (h : IsLongestCommon n as (b :: bs))
    (h' : IsLongestCommon m (a :: as) bs) :
    IsLongestCommon (max n m) (a :: as) (b :: bs) where
  attained := by
    obtain ⟨cs, has, hbs, hlength⟩ := h.attained
    obtain ⟨cs', has', hbs', hlength'⟩ := h'.attained
    by_cases hle : n ≤ m
    · exact ⟨cs', has', hbs'.cons b, by omega⟩
    · exact ⟨cs, has.cons a, hbs, by omega⟩
  longest := fun cs has hbs => by
    obtain hout | ⟨rest, rfl, -⟩ := List.sublist_cons_iff.mp has
    · exact Nat.le_trans (h.longest cs hout hbs) (Nat.le_max_left n m)
    · have hrest : (a :: rest).Sublist bs := by
        obtain hout | ⟨_, heq, _⟩ := List.sublist_cons_iff.mp hbs
        · exact hout
        · exact absurd (List.cons.inj heq).1 hne
      exact Nat.le_trans (h'.longest _ has hrest) (Nat.le_max_right n m)

theorem append_left (h : IsLongestCommon n as bs) (front : List α) :
    IsLongestCommon (front.length + n) (front ++ as) (front ++ bs) := by
  induction front with
  | nil => simpa using h
  | cons a front ih =>
    have hcons := ih.cons a
    rwa [Nat.add_right_comm] at hcons

theorem reverse (h : IsLongestCommon n as bs) : IsLongestCommon n as.reverse bs.reverse where
  attained := by
    obtain ⟨cs, has, hbs, hlength⟩ := h.attained
    exact ⟨cs.reverse, has.reverse, hbs.reverse, by simp [hlength]⟩
  longest := fun cs has hbs => by
    have hle := h.longest cs.reverse (by simpa using has.reverse) (by simpa using hbs.reverse)
    simpa using hle

theorem append_right (h : IsLongestCommon n as bs) (back : List α) :
    IsLongestCommon (n + back.length) (as ++ back) (bs ++ back) := by
  have hreverse := (h.reverse.append_left back.reverse).reverse
  simpa [Nat.add_comm] using hreverse

end IsLongestCommon

/-! ## The recurrence -/

section Recurrence

variable [DecidableEq α]

def lcsLength : List α → List α → ℕ
  | a :: as, b :: bs =>
    if a = b then lcsLength as bs + 1
    else max (lcsLength as (b :: bs)) (lcsLength (a :: as) bs)
  | [], _ => 0
  | _ :: _, [] => 0
  termination_by as bs => as.length + bs.length

@[simp] theorem lcsLength_nil_left (bs : List α) : lcsLength [] bs = 0 := by
  simp [lcsLength]

@[simp] theorem lcsLength_nil_right (as : List α) : lcsLength as [] = 0 := by
  cases as <;> simp [lcsLength]

theorem lcsLength_cons (a b : α) (as bs : List α) :
    lcsLength (a :: as) (b :: bs) =
      if a = b then lcsLength as bs + 1
      else max (lcsLength as (b :: bs)) (lcsLength (a :: as) bs) := by
  rw [lcsLength]

theorem isLongestCommon_lcsLength (as bs : List α) : IsLongestCommon (lcsLength as bs) as bs := by
  fun_induction lcsLength as bs with
  | case1 as b bs ih => exact ih.cons b
  | case2 a as b bs hne ih ih' => exact .cons_of_ne hne ih ih'
  | case3 bs => exact .nil_left bs
  | case4 a as => exact (IsLongestCommon.nil_left _).symm

end Recurrence

/-! ## Scripts -/

namespace Transforms

variable {script : List Edit} {old new : List α}

/-- What a script keeps is a common subsequence. -/
theorem kept (h : Transforms script old new) :
    ∃ cs : List α, cs.Sublist old ∧ cs.Sublist new ∧ cs.length = script.count .equal := by
  induction h with
  | nil => exact ⟨[], by simp⟩
  | equal a _ ih =>
    obtain ⟨cs, hold, hnew, hlength⟩ := ih
    exact ⟨a :: cs, hold.cons_cons a, hnew.cons_cons a, by simp [hlength]⟩
  | delete a _ ih =>
    obtain ⟨cs, hold, hnew, hlength⟩ := ih
    exact ⟨cs, hold.cons a, hnew, by simpa using hlength⟩
  | insert a _ ih =>
    obtain ⟨cs, hold, hnew, hlength⟩ := ih
    exact ⟨cs, hold, hnew.cons a, by simpa using hlength⟩

/-- Every element of either list is kept or changed. -/
theorem length_add_length (h : Transforms script old new) :
    old.length + new.length =
      2 * script.count .equal + script.countP fun edit => decide (edit ≠ .equal) := by
  induction h with
  | nil => simp
  | equal a _ ih => simp at ih ⊢; omega
  | delete a _ ih => simp at ih ⊢; omega
  | insert a _ ih => simp at ih ⊢; omega

/-- A script that keeps a longest common subsequence has the fewest changes. -/
theorem fewest {script' : List Edit} (h : Transforms script old new)
    (hlongest : IsLongestCommon (script.count .equal) old new) (h' : Transforms script' old new) :
    script.countP (fun edit => decide (edit ≠ .equal)) ≤
      script'.countP fun edit => decide (edit ≠ .equal) := by
  obtain ⟨cs, hold, hnew, hlength⟩ := h'.kept
  have hle := hlongest.longest cs hold hnew
  have hsum := h.length_add_length
  have hsum' := h'.length_add_length
  omega

end Transforms

end Argmax.Lib
