import Mathlib.Data.List.Basic
import Mathlib.Data.Int.Order.Basic

/-!
# Pages of an ascending list

Rows have places, and a list of them is in ascending order of place. A reader asks for
the rows after a cursor and gets some of them with a new cursor. A page *covers* the
rows between the two cursors, up to rows that may be left out. Pages that follow one
another cover together what lies between the first cursor and the last.

## Main definitions

* `Ascending`: the order of the rows.
* `Covers`: what a page holds of the rows between two cursors.
* `rowsAfter`: a bounded read after a cursor.
-/

namespace Argmax.Lib.Paging

variable {R S : Type*}

/-- Each row lies behind the ones before it. -/
def Ascending (place : R → ℤ) (rows : List R) : Prop :=
  rows.Pairwise fun row row' => place row < place row'

/-- A read of at most so many rows after a cursor. -/
def rowsAfter (place : R → ℤ) (limit : ℕ) (rows : List R) (cursor : ℤ) : List R :=
  (rows.filter fun row => decide (cursor < place row)).take limit

/-- A page holds, in order, the rows between two cursors that may not be skipped. -/
structure Covers (place : R → ℤ) (rows : List R) (skip : R → Prop) (start stop : ℤ)
    (page : List R) : Prop where
  le : start ≤ stop
  ascending : Ascending place page
  mem : ∀ row ∈ page, row ∈ rows ∧ start < place row ∧ place row ≤ stop
  complete : ∀ row ∈ rows, start < place row → place row ≤ stop → ¬skip row → row ∈ page

variable {row : R} {limit : ℕ}

section Rows

variable {place : R → ℤ} {rows : List R}

theorem Ascending.sublist {page : List R} (h : Ascending place rows) (hsub : page.Sublist rows) :
    Ascending place page :=
  List.Pairwise.sublist hsub h

theorem Ascending.map {place' : S → ℤ} {f : R → S} (h : Ascending place rows)
    (hf : ∀ row, place' (f row) = place row) : Ascending place' (rows.map f) := by
  rw [Ascending, List.pairwise_map]
  simp only [hf]
  exact h

theorem Ascending.nodup (h : Ascending place rows) : rows.Nodup :=
  List.Pairwise.imp (fun {row row'} hlt (heq : row = row') => by
    subst heq
    omega) h

/-- Rows of one place are one row. -/
theorem Ascending.eq_of_place (h : Ascending place rows) {row' : R} (hrow : row ∈ rows)
    (hrow' : row' ∈ rows) (hplace : place row = place row') : row = row' := by
  induction rows with
  | nil => cases hrow
  | cons first rows ih =>
    obtain ⟨hfirst, hrows⟩ := List.pairwise_cons.mp h
    rcases List.mem_cons.mp hrow with rfl | hrow
    · rcases List.mem_cons.mp hrow' with rfl | hrow'
      · rfl
      · have := hfirst row' hrow'
        omega
    · rcases List.mem_cons.mp hrow' with rfl | hrow'
      · have := hfirst row ‹_›
        omega
      · exact ih hrows hrow hrow'

theorem rowsAfter_sublist (limit : ℕ) (cursor : ℤ) :
    (rowsAfter place limit rows cursor).Sublist rows :=
  (List.take_sublist _ _).trans List.filter_sublist

theorem lt_of_mem_rowsAfter {cursor : ℤ} (h : row ∈ rowsAfter place limit rows cursor) :
    cursor < place row := by
  simpa using (List.mem_filter.mp (List.mem_of_mem_take h)).2

theorem rowsAfter_map {place' : S → ℤ} {f : R → S} (hf : ∀ row, place' (f row) = place row)
    (limit : ℕ) (cursor : ℤ) :
    rowsAfter place' limit (rows.map f) cursor = (rowsAfter place limit rows cursor).map f := by
  rw [rowsAfter, rowsAfter, List.filter_map]
  simp [Function.comp_def, hf]

/-- A read that comes back short holds everything after its cursor. -/
theorem mem_rowsAfter_of_short {cursor : ℤ} (h : (rowsAfter place limit rows cursor).length < limit)
    (hrow : row ∈ rows) (hlt : cursor < place row) : row ∈ rowsAfter place limit rows cursor := by
  have hall : rowsAfter place limit rows cursor =
      rows.filter fun row => decide (cursor < place row) := by
    refine List.take_of_length_le ?_
    rw [rowsAfter, List.length_take] at h
    omega
  rw [hall, List.mem_filter]
  exact ⟨hrow, by simpa using hlt⟩

/-- What lies before a row that was read was read. -/
theorem mem_rowsAfter_of_le (hrows : Ascending place rows) {cursor : ℤ} {last : R}
    (hlast : last ∈ rowsAfter place limit rows cursor) (hrow : row ∈ rows)
    (hlt : cursor < place row) (hle : place row ≤ place last) :
    row ∈ rowsAfter place limit rows cursor := by
  have hafter : row ∈ rows.filter fun row => decide (cursor < place row) :=
    List.mem_filter.mpr ⟨hrow, by simpa using hlt⟩
  have hasc := hrows.sublist (List.filter_sublist (p := fun row => decide (cursor < place row)))
  rw [← List.take_append_drop limit (rows.filter _)] at hafter hasc
  rcases List.mem_append.mp hafter with hmem | hmem
  · exact hmem
  · have := (List.pairwise_append.mp hasc).2.2 last hlast row hmem
    omega

/-- Moving the cursor over a row leaves fewer rows after it. -/
theorem length_after_lt {start stop : ℤ} (hrow : row ∈ rows) (hlt : start < place row)
    (hstop : place row ≤ stop) :
    (rows.filter fun row => decide (stop < place row)).length <
      (rows.filter fun row => decide (start < place row)).length := by
  have hsub : (rows.filter fun row => decide (stop < place row)).Sublist
      (rows.filter fun row => decide (start < place row)) := by
    refine List.monotone_filter_right rows fun row h => ?_
    simp only [decide_eq_true_eq] at h ⊢
    omega
  refine Nat.lt_of_le_of_ne hsub.length_le fun heq => ?_
  have hmem : row ∈ rows.filter fun row => decide (start < place row) :=
    List.mem_filter.mpr ⟨hrow, by simpa using hlt⟩
  rw [← hsub.eq_of_length heq, List.mem_filter, decide_eq_true_eq] at hmem
  omega

theorem length_after_le {start stop : ℤ} (hle : start ≤ stop) :
    (rows.filter fun row => decide (stop < place row)).length ≤
      (rows.filter fun row => decide (start < place row)).length := by
  refine (List.monotone_filter_right rows fun row h => ?_).length_le
  simp only [decide_eq_true_eq] at h ⊢
  omega

/-- The rows after a cursor end the list. -/
theorem exists_append_filter (hrows : Ascending place rows) (cursor : ℤ) :
    ∃ before, rows = before ++ rows.filter fun row => decide (cursor < place row) := by
  induction rows with
  | nil => exact ⟨[], rfl⟩
  | cons first rows ih =>
    obtain ⟨hfirst, hrest⟩ := List.pairwise_cons.mp hrows
    by_cases hlt : cursor < place first
    · refine ⟨[], ?_⟩
      rw [List.nil_append, eq_comm, List.filter_eq_self]
      intro row hrow
      rw [decide_eq_true_eq]
      rcases List.mem_cons.mp hrow with rfl | hrow
      · exact hlt
      · have := hfirst row hrow
        omega
    · obtain ⟨before, hbefore⟩ := ih hrest
      refine ⟨first :: before, ?_⟩
      rw [List.filter_cons_of_neg (by simpa using hlt), List.cons_append, ← hbefore]

/-- Some cursor lies before a number and all rows. -/
theorem exists_cursor_before (place : R → ℤ) (rows : List R) (bound : ℤ) :
    ∃ cursor ≤ bound, ∀ row ∈ rows, cursor < place row := by
  induction rows with
  | nil => exact ⟨bound, le_rfl, by simp⟩
  | cons row rows ih =>
    obtain ⟨cursor, hbound, hrows⟩ := ih
    refine ⟨min cursor (place row - 1), by omega, fun other hother => ?_⟩
    rcases List.mem_cons.mp hother with rfl | hother
    · omega
    · have := hrows other hother
      omega

/-- A read is a contiguous part of the rows. -/
theorem rowsAfter_contiguous (hrows : Ascending place rows) (limit : ℕ) (cursor : ℤ) :
    ∃ before after, rows = before ++ (rowsAfter place limit rows cursor ++ after) := by
  obtain ⟨before, hbefore⟩ := exists_append_filter hrows cursor
  refine ⟨before, (rows.filter fun row => decide (cursor < place row)).drop limit, ?_⟩
  rw [rowsAfter, List.take_append_drop]
  exact hbefore

end Rows

/-! ## Coverage -/

namespace Covers

variable {place : R → ℤ} {rows page page' : List R} {skip : R → Prop} {start middle stop : ℤ}

/-- The empty page at a cursor. -/
theorem nil (place : R → ℤ) (rows : List R) (skip : R → Prop) (start : ℤ) :
    Covers place rows skip start start [] where
  le := le_rfl
  ascending := List.Pairwise.nil
  mem := by simp
  complete := by
    omega

/-- **Pages that follow one another.** -/
theorem append (h : Covers place rows skip start middle page)
    (h' : Covers place rows skip middle stop page') :
    Covers place rows skip start stop (page ++ page') where
  le := Int.le_trans h.le h'.le
  ascending := by
    refine List.pairwise_append.mpr ⟨h.ascending, h'.ascending, fun row hrow row' hrow' => ?_⟩
    have := (h.mem row hrow).2.2
    have := (h'.mem row' hrow').2.1
    omega
  mem := by
    intro row hrow
    have hle := h.le
    have hle' := h'.le
    rcases List.mem_append.mp hrow with hrow | hrow
    · obtain ⟨hmem, hlt, hstop⟩ := h.mem row hrow
      exact ⟨hmem, hlt, by omega⟩
    · obtain ⟨hmem, hlt, hstop⟩ := h'.mem row hrow
      exact ⟨hmem, by omega, hstop⟩
  complete := by
    intro row hrow hlt hle hskip
    rw [List.mem_append]
    by_cases hmiddle : place row ≤ middle
    · exact .inl (h.complete row hrow hlt hmiddle hskip)
    · exact .inr (h'.complete row hrow (by omega) hle hskip)

/-- Fewer rows may be left out of a page that has them. -/
theorem mono {skip' : R → Prop} (h : Covers place rows skip start stop page)
    (hskip : ∀ row, skip row → skip' row) : Covers place rows skip' start stop page :=
  ⟨h.le, h.ascending, h.mem, fun row hrow hlt hle hrow' =>
    h.complete row hrow hlt hle fun hs => hrow' (hskip row hs)⟩

/-- A page of some of the rows, as a page of all. -/
theorem widen {rows' : List R} (h : Covers place rows skip start stop page)
    (hsub : ∀ row ∈ rows, row ∈ rows') (hskip : ∀ row ∈ rows', row ∉ rows → skip row) :
    Covers place rows' skip start stop page where
  le := h.le
  ascending := h.ascending
  mem := fun row hrow => ⟨hsub row (h.mem row hrow).1, (h.mem row hrow).2⟩
  complete := by
    intro row hrow hlt hle hkeep
    by_cases hmem : row ∈ rows
    · exact h.complete row hmem hlt hle hkeep
    · exact absurd (hskip row hrow hmem) hkeep

/-- A page that holds all rows. -/
theorem all (hrows : Ascending place rows) (hle : start ≤ stop)
    (hstart : ∀ row ∈ rows, start < place row) (hstop : ∀ row ∈ rows, place row ≤ stop) :
    Covers place rows skip start stop rows :=
  ⟨hle, hrows, fun row hrow => ⟨hrow, hstart row hrow, hstop row hrow⟩, fun _ hrow _ _ _ => hrow⟩

/-- A read, up to the last row it holds or back to its cursor. -/
theorem read (hrows : Ascending place rows)
    (h : (rowsAfter place limit rows start = [] ∧ stop = start) ∨
      ∃ last ∈ rowsAfter place limit rows start, stop = place last ∧
        ∀ row ∈ rowsAfter place limit rows start, place row ≤ stop) :
    Covers place rows skip start stop (rowsAfter place limit rows start) := by
  rcases h with ⟨hnil, rfl⟩ | ⟨last, hlast, rfl, hmax⟩
  · rw [hnil]
    exact nil place rows skip stop
  · refine ⟨?_, hrows.sublist (rowsAfter_sublist _ _), ?_, ?_⟩
    · have := lt_of_mem_rowsAfter hlast
      omega
    · intro row hrow
      exact ⟨(rowsAfter_sublist _ _).subset hrow, lt_of_mem_rowsAfter hrow, hmax row hrow⟩
    · intro row hrow hlt hle _
      exact mem_rowsAfter_of_le hrows hlast hrow hlt hle

/-- Rows that may be skipped taken out of a page. -/
theorem sublist (h : Covers place rows skip start stop page) (hsub : page'.Sublist page)
    (hskip : ∀ row ∈ page, row ∉ page' → skip row) :
    Covers place rows skip start stop page' where
  le := h.le
  ascending := h.ascending.sublist hsub
  mem := fun row hrow => h.mem row (hsub.subset hrow)
  complete := by
    intro row hrow hlt hle hkeep
    by_contra hmem
    exact hkeep (hskip row (h.complete row hrow hlt hle hkeep) hmem)

/-- **A page cut behind one of its rows.** -/
theorem take {k : ℕ} (h : Covers place rows skip start stop page) {last : R}
    (hlast : last ∈ page.take k) (hmax : ∀ row ∈ page.take k, place row ≤ place last) :
    Covers place rows skip start (place last) (page.take k) where
  le := by
    have := (h.mem last (List.mem_of_mem_take hlast)).2.1
    omega
  ascending := h.ascending.sublist (List.take_sublist _ _)
  mem := fun row hrow =>
    ⟨(h.mem row (List.mem_of_mem_take hrow)).1, (h.mem row (List.mem_of_mem_take hrow)).2.1,
      hmax row hrow⟩
  complete := by
    intro row hrow hlt hle hskip
    have hstop := (h.mem last (List.mem_of_mem_take hlast)).2.2
    have hmem := h.complete row hrow hlt (by omega) hskip
    have hasc := h.ascending
    rw [← List.take_append_drop k page] at hmem hasc
    rcases List.mem_append.mp hmem with hmem | hmem
    · exact hmem
    · have := (List.pairwise_append.mp hasc).2.2 last hlast row hmem
      omega

/-- A page cut before its first row. -/
theorem cut {first : R} (h : Covers place rows skip start stop (first :: page)) :
    Covers place rows skip start (place first - 1) [] where
  le := by
    have := (h.mem first (by simp)).2.1
    omega
  ascending := List.Pairwise.nil
  mem := by simp
  complete := by
    intro row hrow hlt hle hskip
    have hstop := (h.mem first (by simp)).2.2
    have hmem := h.complete row hrow hlt (by omega) hskip
    rcases List.mem_cons.mp hmem with rfl | hmem
    · omega
    · have := (List.pairwise_cons.mp h.ascending).1 row hmem
      omega

end Covers

end Argmax.Lib.Paging
