import Mathlib.Data.List.DropRight

/-!
# Cutting a list after its delimiters

A list is cut after each element that is a delimiter, and what follows the last one is
a segment of its own. Cutting a list that ends with a delimiter and cutting what
follows are independent of each other, and a finer cut cuts the segments of a coarser
one.

## Main definitions

* `segments`: the segments of a list.
* `Closed`: the list ends with a delimiter, or is empty.
-/

namespace Argmax.Lib

variable {α : Type*} (p q : α → Bool)

/-- The list cut after each delimiter. -/
def segments : List α → List (List α)
  | [] => []
  | a :: as =>
    if p a then [a] :: segments as
    else
      match segments as with
      | [] => [[a]]
      | s :: ss => (a :: s) :: ss

/-- The last element, if there is one, is a delimiter. -/
def Closed (as : List α) : Prop := ∀ a ∈ as.getLast?, p a = true

variable {p q}

@[simp] theorem segments_nil : segments p [] = [] := rfl

theorem segments_cons_of_pos {a : α} (h : p a = true) (as : List α) :
    segments p (a :: as) = [a] :: segments p as := by
  rw [segments, if_pos h]

@[simp] theorem flatten_segments (as : List α) : (segments p as).flatten = as := by
  induction as with
  | nil => rfl
  | cons a as ih =>
    rw [segments]
    split
    · simp [ih]
    · cases hrest : segments p as with
      | nil =>
        rw [hrest] at ih
        simpa using ih
      | cons s ss =>
        rw [hrest] at ih
        simpa using ih

variable {as : List α}

theorem segments_eq_nil : segments p as = [] ↔ as = [] := by
  constructor
  · intro h
    rw [← flatten_segments (p := p) as, h]
    rfl
  · intro h
    rw [h]
    rfl

theorem ne_nil_of_mem_segments {as s : List α} (h : s ∈ segments p as) : s ≠ [] := by
  induction as generalizing s with
  | nil => cases h
  | cons a as ih =>
    rw [segments] at h
    split at h
    · rcases List.mem_cons.mp h with rfl | hrest
      · simp
      · exact ih hrest
    · cases hrest : segments p as with
      | nil =>
        rw [hrest] at h
        rw [List.mem_singleton.mp h]
        simp
      | cons s' ss =>
        rw [hrest] at h ih
        rcases List.mem_cons.mp h with rfl | hlater
        · simp
        · exact ih (List.mem_cons_of_mem _ hlater)

/-- Nothing but the last element of a segment is a delimiter. -/
theorem not_delimiter_of_mem_dropLast {s : List α} (h : s ∈ segments p as) :
    ∀ a ∈ s.dropLast, p a = false := by
  induction as generalizing s with
  | nil => cases h
  | cons a as ih =>
    rw [segments] at h
    split at h
    · rcases List.mem_cons.mp h with rfl | hrest
      · simp
      · exact ih hrest
    · rename_i ha
      rw [Bool.not_eq_true] at ha
      cases hrest : segments p as with
      | nil =>
        rw [hrest] at h
        rw [List.mem_singleton.mp h]
        simp
      | cons s' ss =>
        rw [hrest] at h ih
        rcases List.mem_cons.mp h with rfl | hlater
        · have hne : s' ≠ [] := by
            apply @ne_nil_of_mem_segments _ p as
            rw [hrest]
            exact List.mem_cons_self
          rw [List.dropLast_cons_of_ne_nil hne]
          intro b hb
          rcases List.mem_cons.mp hb with rfl | hlater
          · exact ha
          · exact ih List.mem_cons_self b hlater
        · exact ih (List.mem_cons_of_mem _ hlater)

/-! ## Appending -/

/-- In front of a list without delimiters there is one segment less. -/
theorem segments_open_append (h : ∀ a ∈ as, p a = false) (hne : as ≠ []) (bs : List α) :
    segments p (as ++ bs) = (as ++ (segments p bs).headD []) :: (segments p bs).tail := by
  induction as with
  | nil => exact absurd rfl hne
  | cons a as ih =>
    have ha : ¬ p a = true := by simp [h a List.mem_cons_self]
    rw [List.cons_append, segments, if_neg ha]
    cases as with
    | nil => cases hbs : segments p bs <;> simp [hbs]
    | cons b as =>
      rw [ih (fun c hc => h c (List.mem_cons_of_mem _ hc)) (by simp)]
      rfl

theorem segments_of_open (h : ∀ a ∈ as, p a = false) (hne : as ≠ []) : segments p as = [as] := by
  have happend := segments_open_append h hne []
  simpa using happend

/-- A list with at most its last element a delimiter is one segment. -/
theorem segments_eq_singleton (h : ∀ a ∈ as.dropLast, p a = false) (hne : as ≠ []) :
    segments p as = [as] := by
  have hlast : ∀ a : α, segments p [a] = [[a]] := by
    intro a
    rw [segments]
    split <;> rfl
  rw [← List.dropLast_append_getLast hne]
  by_cases hinit : as.dropLast = []
  · rw [hinit, List.nil_append, hlast]
  · rw [segments_open_append h hinit, hlast]
    rfl

/-- **Cutting behind a delimiter.** -/
theorem segments_append (h : Closed p as) (bs : List α) :
    segments p (as ++ bs) = segments p as ++ segments p bs := by
  induction as with
  | nil => rfl
  | cons a as ih =>
    have hrest : Closed p as := by
      intro b hb
      apply h
      cases as with
      | nil => cases hb
      | cons c as => simpa [List.getLast?_cons_cons] using hb
    rw [List.cons_append, segments, segments, ih hrest]
    by_cases ha : p a = true
    · rw [if_pos ha, if_pos ha, List.cons_append]
    · rw [if_neg ha, if_neg ha]
      cases has : segments p as with
      | nil =>
        rw [segments_eq_nil] at has
        rw [has] at h
        exact absurd (h a rfl) ha
      | cons s ss => rfl

theorem Closed.append {bs : List α} (h : Closed p as) (h' : Closed p bs) : Closed p (as ++ bs) := by
  intro a ha
  rw [List.getLast?_append] at ha
  cases hbs : bs.getLast? with
  | none =>
    rw [hbs] at ha
    exact h a ha
  | some b =>
    rw [hbs] at ha
    exact h' a (by rw [hbs]; exact ha)

/-- Pieces that end with delimiters are cut one by one. -/
theorem segments_flatten {ass : List (List α)} (h : ∀ as ∈ ass, Closed p as) :
    segments p ass.flatten = ass.flatMap (segments p) := by
  induction ass with
  | nil => rfl
  | cons as ass ih =>
    rw [List.flatten_cons, segments_append (h as List.mem_cons_self), List.flatMap_cons,
      ih fun bs hbs => h bs (List.mem_cons_of_mem _ hbs)]

/-- The segments of a closed list are closed. -/
theorem closed_of_mem_segments {s : List α} (h : Closed p as) (hs : s ∈ segments p as) :
    Closed p s := by
  induction as generalizing s with
  | nil => cases hs
  | cons a as ih =>
    have hrest : Closed p as := by
      intro b hb
      apply h
      cases as with
      | nil => cases hb
      | cons c as => simpa [List.getLast?_cons_cons] using hb
    rw [segments] at hs
    split at hs
    · rename_i ha
      rcases List.mem_cons.mp hs with rfl | hlater
      · intro b hb
        cases hb
        exact ha
      · exact ih hrest hlater
    · rename_i ha
      cases has : segments p as with
      | nil =>
        rw [segments_eq_nil] at has
        rw [has] at h
        exact absurd (h a rfl) ha
      | cons s' ss =>
        rw [has] at hs ih
        rcases List.mem_cons.mp hs with rfl | hlater
        · have hclosed := ih hrest List.mem_cons_self
          have hne : s' ≠ [] := by
            apply @ne_nil_of_mem_segments _ p as
            rw [has]
            exact List.mem_cons_self
          intro b hb
          rw [List.getLast?_cons, List.getLast?_eq_some_getLast hne] at hb
          exact hclosed b (by rw [List.getLast?_eq_some_getLast hne]; exact hb)
        · exact ih hrest (List.mem_cons_of_mem _ hlater)

/-- **A finer cut.** -/
theorem segments_refine (h : ∀ a, p a = true → q a = true) (as : List α) :
    segments q as = (segments p as).flatMap (segments q) := by
  induction as with
  | nil => rfl
  | cons a as ih =>
    by_cases ha : p a = true
    · rw [segments_cons_of_pos ha, segments_cons_of_pos (h a ha), List.flatMap_cons,
        segments_cons_of_pos (h a ha), ih]
      rfl
    · rw [segments.eq_2 p, if_neg ha]
      cases has : segments p as with
      | nil =>
        rw [segments_eq_nil.mp has]
        simp
      | cons s ss =>
        rw [has, List.flatMap_cons] at ih
        rw [List.flatMap_cons, segments, segments, ih]
        split
        · rfl
        · cases hs : segments q s with
          | nil =>
            have hne : s ≠ [] := by
              apply @ne_nil_of_mem_segments _ p as
              rw [has]
              exact List.mem_cons_self
            exact absurd (segments_eq_nil.mp hs) hne
          | cons t ts => rfl

end Argmax.Lib
