import Mathlib.Data.List.Basic

/-!
# Lines with their ends

A text is cut behind each element that ends a line, so the lines put together are the text.
The last one may have no end.

## Main results

* `flatten_splitInclusive`: nothing is lost.
* `splitInclusive_append`: a text behind a complete one has lines of its own.
* `exists_lineAt`: what stands before and behind the line that holds a place.
-/

namespace Argmax.Lib

variable {α : Type*} {p : α → Bool}

def splitInclusive (p : α → Bool) : List α → List (List α)
  | [] => []
  | a :: text =>
    if p a then [a] :: splitInclusive p text
    else
      match splitInclusive p text with
      | [] => [[a]]
      | line :: lines => (a :: line) :: lines

@[simp] theorem splitInclusive_nil : splitInclusive p [] = [] := rfl

theorem splitInclusive_cons_of_pos {a : α} {text : List α} (h : p a = true) :
    splitInclusive p (a :: text) = [a] :: splitInclusive p text := by
  rw [splitInclusive, if_pos h]

@[simp] theorem flatten_splitInclusive (text : List α) : (splitInclusive p text).flatten = text := by
  induction text with
  | nil => rfl
  | cons a text ih =>
    rw [splitInclusive]
    split
    · simp [ih]
    · split
      case h_1 hnone => simpa [hnone] using ih
      case h_2 line lines hlines => simpa [hlines] using ih

/-- The first line of a text that has an end of a line. -/
theorem splitInclusive_line {front text : List α} {a : α} (h : ∀ b ∈ front, p b = false)
    (ha : p a = true) :
    splitInclusive p (front ++ a :: text) = (front ++ [a]) :: splitInclusive p text := by
  induction front with
  | nil => exact splitInclusive_cons_of_pos ha
  | cons b front ih =>
    have ⟨hb, hfront⟩ := List.forall_mem_cons.mp h
    rw [List.cons_append, splitInclusive, if_neg (by simp [hb]), ih hfront]
    rfl

/-- A text whose last line has its end. -/
def Complete (p : α → Bool) (text : List α) : Prop := ∀ a ∈ text.getLast?, p a = true

/-- A line ends where it is said to, but for the last one. -/
theorem splitInclusive_spec {text line : List α} {before after : List (List α)}
    (h : splitInclusive p text = before ++ line :: after) :
    line ≠ [] ∧ (∀ a ∈ line.dropLast, p a = false) ∧
      (after ≠ [] → ∀ a ∈ line.getLast?, p a = true) := by
  induction text generalizing before line with
  | nil => simp at h
  | cons a text ih =>
    rw [splitInclusive] at h
    split at h
    case isTrue ha =>
      cases before with
      | nil =>
        obtain ⟨rfl, rfl⟩ := List.cons.inj h
        simp [ha]
      | cons first before => exact ih (List.cons.inj h).2
    case isFalse ha =>
      split at h
      case h_1 =>
        cases before with
        | nil =>
          obtain ⟨rfl, rfl⟩ := List.cons.inj h
          simp
        | cons first before => simp at h
      case h_2 first rest hlines =>
        cases before with
        | nil =>
          obtain ⟨rfl, rfl⟩ := List.cons.inj h
          have ⟨hne, hopen, hend⟩ := ih (show splitInclusive p text = [] ++ first :: rest from hlines)
          refine ⟨by simp, ?_, ?_⟩
          · rw [List.dropLast_cons_of_ne_nil hne]
            exact List.forall_mem_cons.mpr ⟨by simpa using ha, hopen⟩
          · rw [List.getLast?_cons_of_ne_nil hne]
            exact hend
        | cons first' before =>
          have hrest : rest = before ++ line :: after := (List.cons.inj h).2
          exact ih (show splitInclusive p text = (first :: before) ++ line :: after by
            rw [hlines, hrest]; rfl)

theorem Complete.append {done done' : List α} (h : Complete p done) (h' : Complete p done') :
    Complete p (done ++ done') := by
  intro a ha
  cases done' with
  | nil => exact h a (by simpa using ha)
  | cons b done' => exact h' a (by simpa using ha)

/-- Every line of a complete text has its end. -/
theorem Complete.line {text line : List α} (h : Complete p text) (hline : line ∈ splitInclusive p text) :
    line ≠ [] ∧ ∀ a ∈ line.getLast?, p a = true := by
  have ⟨before, after, hsplit⟩ := List.append_of_mem hline
  have ⟨hne, _, hend⟩ := splitInclusive_spec hsplit
  refine ⟨hne, ?_⟩
  by_cases hafter : after = []
  · subst hafter
    have htext := flatten_splitInclusive (p := p) text
    rw [hsplit, List.flatten_append, List.flatten_singleton] at htext
    intro a ha
    refine h a ?_
    rw [← htext, List.getLast?_append_of_ne_nil _ hne]
    exact ha
  · exact hend hafter

/-! ## Places -/

section Places

variable {hit hit' : ℕ → List α → Bool} {start i : ℕ} {line : List α}
  {lines before after : List (List α)}

/-- The place of the first line that is accepted, where the lines begin at `start`. -/
def findLine (hit : ℕ → List α → Bool) (start : ℕ) : List (List α) → Option ℕ
  | [] => none
  | line :: lines => if hit start line then some start else findLine hit (start + line.length) lines

theorem findLine_append : findLine hit start (before ++ lines) =
    (findLine hit start before).or (findLine hit (start + before.flatten.length) lines) := by
  induction before generalizing start with
  | nil => simp [findLine]
  | cons line before ih =>
    rw [List.cons_append, findLine, findLine]
    split
    · rfl
    · rw [ih, List.flatten_cons, List.length_append, Nat.add_assoc]

/-- The lines of a text, with the places where they begin. -/
def Stands (start : ℕ) (lines : List (List α)) (place : ℕ) (line : List α) : Prop :=
  ∃ before after, lines = before ++ line :: after ∧ place = start + before.flatten.length

theorem findLine_eq_some {place : ℕ} (h : findLine hit start lines = some place) :
    ∃ line, Stands start lines place line ∧ hit place line = true := by
  induction lines generalizing start with
  | nil => cases h
  | cons line lines ih =>
    rw [findLine] at h
    split at h
    case isTrue hhit =>
      cases h
      exact ⟨line, ⟨[], lines, rfl, rfl⟩, hhit⟩
    case isFalse =>
      have ⟨found, ⟨before, after, heq, hplace⟩, hhit⟩ := ih h
      refine ⟨found, ⟨line :: before, after, by rw [heq]; rfl, ?_⟩, hhit⟩
      rw [hplace, List.flatten_cons, List.length_append, Nat.add_assoc]

theorem findLine_eq_none (h : ∀ place line, Stands start lines place line →
    hit place line = false) : findLine hit start lines = none := by
  cases hfound : findLine hit start lines with
  | none => rfl
  | some place =>
    have ⟨line, hstands, hhit⟩ := findLine_eq_some hfound
    simp [h place line hstands] at hhit

/-- Tests that agree on the lines find the same one. -/
theorem findLine_congr (h : ∀ place line, Stands start lines place line →
    hit place line = hit' place line) : findLine hit start lines = findLine hit' start lines := by
  induction lines generalizing start with
  | nil => rfl
  | cons line lines ih =>
    have hfirst := h start line ⟨[], lines, rfl, rfl⟩
    have hrest : findLine hit (start + line.length) lines =
        findLine hit' (start + line.length) lines := by
      refine ih fun place other ⟨before, after, heq, hplace⟩ => h place other ?_
      refine ⟨line :: before, after, by rw [heq]; rfl, ?_⟩
      rw [hplace, List.flatten_cons, List.length_append, Nat.add_assoc]
    rw [findLine, findLine, hfirst, hrest]

/-- The line that holds a place, and where it begins. -/
def lineAt (i start : ℕ) : List (List α) → Option (ℕ × List α)
  | [] => none
  | line :: lines =>
    if i < start + line.length then some (start, line) else lineAt i (start + line.length) lines

theorem lt_of_lineAt {found : ℕ × List α} (h : lineAt i start lines = some found) :
    i < start + lines.flatten.length := by
  induction lines generalizing start with
  | nil => cases h
  | cons first lines ih =>
    rw [lineAt] at h
    rw [List.flatten_cons, List.length_append]
    split at h
    · omega
    · have hrest := ih h
      omega

theorem exists_lineAt (hstart : start ≤ i) (hi : i < start + lines.flatten.length) :
    ∃ before line after, lines = before ++ line :: after ∧
      lineAt i start lines = some (start + before.flatten.length, line) ∧
      start + before.flatten.length ≤ i ∧ i < start + before.flatten.length + line.length := by
  induction lines generalizing start with
  | nil =>
    simp at hi
    omega
  | cons line lines ih =>
    rw [lineAt]
    split
    case isTrue hlt => exact ⟨[], line, lines, rfl, by simp, by simpa using hstart, by simpa using hlt⟩
    case isFalse hge =>
      rw [List.flatten_cons, List.length_append] at hi
      have ⟨before, found, after, heq, hfound, hle, hlt⟩ :=
        @ih (start + line.length) (by omega) (by omega)
      refine ⟨line :: before, found, after, by rw [heq]; rfl, ?_, ?_, ?_⟩ <;>
        rw [List.flatten_cons, List.length_append, ← Nat.add_assoc]
      · exact hfound
      · exact hle
      · exact hlt

end Places

end Argmax.Lib
