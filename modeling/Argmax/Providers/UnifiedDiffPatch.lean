import Argmax.Providers.UnifiedDiff
import Mathlib.Data.List.Forall2

/-!
# Unified diffs are patches

The edit script of `diffOps` turns the old lines into the new ones, whatever its table holds.
The runs of changed rows are far enough apart for windows that do not touch, as long as no
distance passes `2 ^ 64`. The windows are therefore cut out of the rows of the script
(`Cut`), and their hunks apply.

## Main results

* `diffOps_transforms`: the script.
* `cut_windows`: the windows.
* `unifiedDiff_patch`: the hunks of a diff apply to the old lines and give the new ones.
-/

namespace Argmax.Providers.UnifiedDiff

open Argmax.Lib Argmax.Lib.Text

/-! ## The script -/

section Script

theorem matchLine_transforms (common : ℕ → ℕ → ℕ) (left : ℕ) (first : Line) {old : List Line}
    {next : ℕ → List Line → List Op} (hnext : ∀ right new, Transforms (next right new) old new)
    (right : ℕ) (new : List Line) :
    Transforms (matchLine common left first old.length next right new) (first :: old) new := by
  induction new generalizing right with
  | nil => exact Transforms.deleteAll (first :: old)
  | cons line new ih =>
    rw [matchLine]
    split
    · rename_i heq
      exact heq ▸ .equal first (hnext (right + 1) new)
    · split
      · exact .delete first (hnext right (line :: new))
      · exact .insert line (ih (right + 1))

theorem matchLoop_transforms (common : ℕ → ℕ → ℕ) (left right : ℕ) (old new : List Line) :
    Transforms (matchLoop common left old right new) old new := by
  induction old generalizing left right new with
  | nil => exact Transforms.insertAll new
  | cons first old ih => exact matchLine_transforms common left first (ih (left + 1)) right new

/-- What two lists start with alike. -/
theorem take_commonLength (old new : List Line) :
    old.take (commonLength old new) = new.take (commonLength old new) := by
  induction old generalizing new with
  | nil => simp [commonLength]
  | cons line old ih =>
    cases new with
    | nil => simp [commonLength]
    | cons line' new =>
      by_cases heq : line = line'
      · have hlength : commonLength (line :: old) (line' :: new) = commonLength old new + 1 := by
          simp [commonLength, heq]
        rw [hlength, List.take_succ_cons, List.take_succ_cons, heq, ih new]
      · have hlength : commonLength (line :: old) (line' :: new) = 0 := by
          simp [commonLength, heq]
        rw [hlength, List.take_zero, List.take_zero]

theorem commonLength_le (old new : List Line) :
    commonLength old new ≤ old.length ∧ commonLength old new ≤ new.length := by
  have hle := (List.takeWhile_sublist (fun pair : Line × Line => decide (pair.1 = pair.2))
    (l := old.zip new)).length_le
  rw [List.length_zip] at hle
  exact ⟨hle.trans (min_le_left _ _), hle.trans (min_le_right _ _)⟩

/-- A list is its start, its middle and its end. -/
theorem take_middle_drop {lines : List Line} {start stop : ℕ} (h : start + stop ≤ lines.length) :
    lines.take start ++ ((lines.take (lines.length - stop)).drop start ++
      lines.drop (lines.length - stop)) = lines := by
  have hstart : lines.take start = (lines.take (lines.length - stop)).take start := by
    rw [List.take_take, min_eq_left (by omega)]
  rw [hstart, ← List.append_assoc, List.take_append_drop, List.take_append_drop]

/-- The lines of a list that are neither in what both start with nor in what both end with. -/
def oldMiddle (old new : List Line) : List Line :=
  let start := commonLength old new
  let stop := commonLength (old.drop start).reverse (new.drop start).reverse
  (old.take (old.length - stop)).drop start

def newMiddle (old new : List Line) : List Line :=
  let start := commonLength old new
  let stop := commonLength (old.drop start).reverse (new.drop start).reverse
  (new.take (new.length - stop)).drop start

/-- The operations of the middle. -/
def middleOps (old new : List Line) : List Op :=
  if maxMatchCells < min ((oldMiddle old new).length * (newMiddle old new).length) (2 ^ 64 - 1) then
    List.replicate (oldMiddle old new).length .delete ++
      List.replicate (newMiddle old new).length .insert
  else matchMiddle (oldMiddle old new) (newMiddle old new)

/-- Both lists start and end with the lines that the script keeps, around their middles. -/
theorem exists_middle (old new : List Line) : ∃ front back : List Line,
    old = front ++ (oldMiddle old new ++ back) ∧ new = front ++ (newMiddle old new ++ back) ∧
      diffOps old new = List.replicate front.length .equal ++ middleOps old new ++
        List.replicate back.length .equal := by
  set start := commonLength old new with hstart
  set stop := commonLength (old.drop start).reverse (new.drop start).reverse with hstop
  obtain ⟨hstartOld, hstartNew⟩ := commonLength_le old new
  obtain ⟨hstopOld, hstopNew⟩ := commonLength_le (old.drop start).reverse (new.drop start).reverse
  rw [List.length_reverse, List.length_drop] at hstopOld hstopNew
  have hold : start + stop ≤ old.length := by omega
  have hnew : start + stop ≤ new.length := by omega
  have hback : new.drop (new.length - stop) = old.drop (old.length - stop) := by
    have htake := take_commonLength (old.drop start).reverse (new.drop start).reverse
    rw [List.take_reverse, List.take_reverse, List.reverse_inj, List.drop_drop, List.drop_drop,
      List.length_drop, List.length_drop] at htake
    have heqOld : start + (old.length - start - stop) = old.length - stop := by omega
    have heqNew : start + (new.length - start - stop) = new.length - stop := by omega
    rw [heqOld, heqNew] at htake
    exact htake.symm
  refine ⟨old.take start, old.drop (old.length - stop), (take_middle_drop hold).symm, ?_, ?_⟩
  · rw [take_commonLength old new, ← hback]
    exact (take_middle_drop hnew).symm
  · rw [List.length_take, min_eq_left hstartOld, List.length_drop,
      Nat.sub_sub_self (by omega : stop ≤ old.length)]
    rfl

/-- **The script turns the old lines into the new ones.** -/
theorem diffOps_transforms (old new : List Line) : Transforms (diffOps old new) old new := by
  obtain ⟨front, back, hold, hnew, hops⟩ := exists_middle old new
  have hmiddle : Transforms (middleOps old new) (oldMiddle old new) (newMiddle old new) := by
    rw [middleOps]
    split
    · have hreplaced := (Transforms.deleteAll (oldMiddle old new)).append
        (Transforms.insertAll (newMiddle old new))
      rwa [List.append_nil, List.nil_append] at hreplaced
    · exact matchLoop_transforms _ 0 0 _ _
  have hall := ((Transforms.keepAll front).append hmiddle).append (Transforms.keepAll back)
  rwa [List.append_assoc front, List.append_assoc front, ← hold, ← hnew, ← hops] at hall

end Script

variable {oldIndex newIndex : ℕ} {row : Row}

/-! ## The rows -/

section Rows

/-- The edits of rows. -/
def edits (rows : List Row) : List (Edit × Line) := rows.map fun row => (row.op, row.text)

@[simp] theorem edits_append (rows rows' : List Row) :
    edits (rows ++ rows') = edits rows ++ edits rows' := List.map_append

/-- Rows count the lines in front of them. -/
def Positioned : ℕ → ℕ → List Row → Prop
  | _, _, [] => True
  | oldIndex, newIndex, row :: rows =>
    row.oldBefore = oldIndex ∧ row.newBefore = newIndex ∧
      Positioned (if row.op = .insert then oldIndex else oldIndex + 1)
        (if row.op = .delete then newIndex else newIndex + 1) rows

theorem positioned_rowsFrom (old new : List Line) (oldIndex newIndex : ℕ) (ops : List Op) :
    Positioned oldIndex newIndex (rowsFrom old new oldIndex newIndex ops) := by
  induction ops generalizing oldIndex newIndex with
  | nil => trivial
  | cons op ops ih => exact ⟨rfl, rfl, ih _ _⟩

/-- The rows behind others. -/
theorem Positioned.right {rows rows' : List Row} (h : Positioned oldIndex newIndex (rows ++ rows')) :
    Positioned (oldIndex + (oldSide (edits rows)).length)
      (newIndex + (newSide (edits rows)).length) rows' := by
  induction rows generalizing oldIndex newIndex with
  | nil => exact h
  | cons row rows ih =>
    obtain ⟨op, text, oldBefore, newBefore⟩ := row
    have hrest := ih h.2.2
    cases op <;> simpa [edits, Nat.add_comm, Nat.add_left_comm, Nat.add_assoc] using hrest

theorem Positioned.left {rows rows' : List Row} (h : Positioned oldIndex newIndex (rows ++ rows')) :
    Positioned oldIndex newIndex rows := by
  induction rows generalizing oldIndex newIndex with
  | nil => trivial
  | cons row rows ih => exact ⟨h.1, h.2.1, ih h.2.2⟩

theorem getD_of_drop {lines rest : List Line} {line : Line} {index : ℕ}
    (h : lines.drop index = line :: rest) :
    lines.getD index [] = line ∧ lines.drop (index + 1) = rest := by
  constructor
  · rw [List.getD_eq_getElem?_getD, ← List.head?_drop, h]
    rfl
  · rw [← List.drop_drop, h]
    rfl

/-- The sides of the rows are the lines. -/
theorem sides_rowsFrom {old new : List Line} {ops : List Op} {oldIndex newIndex : ℕ}
    (h : Transforms ops (old.drop oldIndex) (new.drop newIndex)) :
    oldSide (edits (rowsFrom old new oldIndex newIndex ops)) = old.drop oldIndex ∧
      newSide (edits (rowsFrom old new oldIndex newIndex ops)) = new.drop newIndex := by
  induction ops generalizing oldIndex newIndex with
  | nil =>
    cases hold : old.drop oldIndex with
    | nil => cases hnew : new.drop newIndex with
      | nil => exact ⟨rfl, rfl⟩
      | cons => rw [hold, hnew] at h; cases h
    | cons => rw [hold] at h; cases h
  | cons op ops ih =>
    generalize hold : old.drop oldIndex = oldRest at h
    generalize hnew : new.drop newIndex = newRest at h
    cases h with
    | @equal line _ oldRest newRest h =>
      obtain ⟨htext, hold'⟩ := getD_of_drop hold
      obtain ⟨-, hnew'⟩ := getD_of_drop hnew
      obtain ⟨hleft, hright⟩ := ih (by rwa [hold', hnew'])
      simp only [edits, rowsFrom, htext] at hleft hright ⊢
      simp [hleft, hright, hold', hnew']
    | @delete line _ oldRest _ h =>
      obtain ⟨htext, hold'⟩ := getD_of_drop hold
      obtain ⟨hleft, hright⟩ := @ih (oldIndex + 1) newIndex (by rwa [hold', hnew])
      simp only [edits, rowsFrom, htext] at hleft hright ⊢
      simp [hleft, hright, hold', hnew]
    | @insert line _ _ newRest h =>
      obtain ⟨htext, hnew'⟩ := getD_of_drop hnew
      obtain ⟨hleft, hright⟩ := @ih oldIndex (newIndex + 1) (by rwa [hold, hnew'])
      simp only [edits, rowsFrom, htext] at hleft hright ⊢
      simp [hleft, hright, hold, hnew']

theorem positioned_rows (old new : List Line) : Positioned 0 0 (rows old new) :=
  positioned_rowsFrom old new 0 0 _

theorem sides_rows (old new : List Line) :
    oldSide (edits (rows old new)) = old ∧ newSide (edits (rows old new)) = new :=
  @sides_rowsFrom old new _ 0 0 (diffOps_transforms old new)

/-- There are no more rows than lines. -/
theorem length_le_sides (rows : List Row) :
    rows.length ≤ (oldSide (edits rows)).length + (newSide (edits rows)).length := by
  induction rows with
  | nil => exact Nat.zero_le _
  | cons row rows ih =>
    obtain ⟨op, text, oldBefore, newBefore⟩ := row
    cases op <;> simp [edits] at ih ⊢ <;> omega

end Rows

/-! ## Runs of changed rows -/

section Groups

/-- **The runs of changed rows.** They are within the rows, further apart than their contexts
reach, and every changed row is in one of them. -/
structure Groups (rows : List Row) (context : ℕ) (groups : List (ℕ × ℕ)) : Prop where
  le : ∀ group ∈ groups, group.1 ≤ group.2
  lt : ∀ group ∈ groups, group.2 < rows.length
  apart : groups.Pairwise fun group group' => group.2 + 2 * context + 1 < group'.1
  covers : ∀ index row, rows[index]? = some row → row.op ≠ .equal →
    ∃ group ∈ groups, group.1 ≤ index ∧ index ≤ group.2

variable {rows : List Row} {context : ℕ} {groups : List (ℕ × ℕ)}

theorem changeGroups_append (rows : List Row) (row : Row) (context : ℕ) :
    changeGroups (rows ++ [row]) context =
      groupRow context (changeGroups rows context) (row, rows.length) := by
  simp [changeGroups, List.zipIdx_append]

/-- An unchanged row. -/
theorem Groups.unchanged (h : Groups rows context groups) (hrow : row.op = .equal) :
    Groups (rows ++ [row]) context groups := by
  refine ⟨h.le, fun group hgroup => ?_, h.apart, fun index found hfound hop => ?_⟩
  · have := h.lt group hgroup
    simp only [List.length_append]
    omega
  · by_cases hlt : index < rows.length
    · rw [List.getElem?_append_left hlt] at hfound
      exact h.covers index found hfound hop
    · rw [List.getElem?_append_right (by omega), List.getElem?_singleton] at hfound
      split at hfound
      · cases hfound
        exact absurd hrow hop
      · cases hfound

/-- A changed row behind the others. -/
theorem Groups.changed {groups' : List (ℕ × ℕ)} (hle : ∀ group ∈ groups', group.1 ≤ group.2)
    (hlt : ∀ group ∈ groups', group.2 ≤ rows.length)
    (hapart : groups'.Pairwise fun group group' => group.2 + 2 * context + 1 < group'.1)
    (hlast : ∃ group ∈ groups', group.1 ≤ rows.length ∧ rows.length ≤ group.2)
    (hcovers : ∀ index row, rows[index]? = some row → row.op ≠ .equal →
      ∃ group ∈ groups', group.1 ≤ index ∧ index ≤ group.2) :
    Groups (rows ++ [row]) context groups' := by
  refine ⟨hle, fun group hgroup => ?_, hapart, fun index found hfound hop => ?_⟩
  · have := hlt group hgroup
    simp only [List.length_append, List.length_singleton]
    omega
  · by_cases hindex : index < rows.length
    · rw [List.getElem?_append_left hindex] at hfound
      exact hcovers index found hfound hop
    · have hlength := (List.getElem?_eq_some_iff.mp hfound).1
      simp only [List.length_append, List.length_singleton] at hlength
      obtain rfl : index = rows.length := by omega
      exact hlast

/-- Another run behind the others. -/
theorem Groups.push (h : Groups rows context groups)
    (hfar : ∀ group ∈ groups, group.2 + 2 * context + 1 < rows.length) :
    Groups (rows ++ [row]) context (groups ++ [(rows.length, rows.length)]) := by
  refine Groups.changed ?_ ?_ ?_ ⟨(rows.length, rows.length), by simp, le_rfl, le_rfl⟩ ?_
  · intro group hgroup
    rcases List.mem_append.mp hgroup with hgroup | hgroup
    · exact h.le group hgroup
    · rw [List.mem_singleton.mp hgroup]
  · intro group hgroup
    rcases List.mem_append.mp hgroup with hgroup | hgroup
    · exact (h.lt group hgroup).le
    · rw [List.mem_singleton.mp hgroup]
  · refine List.pairwise_append.mpr ⟨h.apart, List.pairwise_singleton _ _, ?_⟩
    intro group hgroup last hlast
    rw [List.mem_singleton.mp hlast]
    exact hfar group hgroup
  · intro index found hfound hop
    obtain ⟨group, hgroup, hin⟩ := h.covers index found hfound hop
    exact ⟨group, List.mem_append_left _ hgroup, hin⟩

/-- The last run goes on. -/
theorem Groups.extend {front : List (ℕ × ℕ)} {last : ℕ × ℕ}
    (h : Groups rows context (front ++ [last])) :
    Groups (rows ++ [row]) context (front ++ [(last.1, rows.length)]) := by
  obtain ⟨hfront, -, hfar⟩ := List.pairwise_append.mp h.apart
  have hle := h.le last (by simp)
  have hlt := h.lt last (by simp)
  refine Groups.changed ?_ ?_ ?_ ⟨(last.1, rows.length), by simp, by simp only; omega, le_rfl⟩ ?_
  · intro group hgroup
    rcases List.mem_append.mp hgroup with hgroup | hgroup
    · exact h.le group (List.mem_append_left _ hgroup)
    · rw [List.mem_singleton.mp hgroup]
      omega
  · intro group hgroup
    rcases List.mem_append.mp hgroup with hgroup | hgroup
    · exact (h.lt group (List.mem_append_left _ hgroup)).le
    · rw [List.mem_singleton.mp hgroup]
  · refine List.pairwise_append.mpr ⟨hfront, List.pairwise_singleton _ _, ?_⟩
    intro group hgroup last' hlast
    rw [List.mem_singleton.mp hlast]
    exact hfar group hgroup last (by simp)
  · intro index found hfound hop
    obtain ⟨group, hgroup, hin⟩ := h.covers index found hfound hop
    rcases List.mem_append.mp hgroup with hgroup | hgroup
    · exact ⟨group, List.mem_append_left _ hgroup, hin⟩
    · rw [List.mem_singleton.mp hgroup] at hin
      exact ⟨(last.1, rows.length), by simp, hin.1, by simp only; omega⟩

/-- **What `change_groups` gives**, as long as no distance passes the size of a word. -/
theorem groups_changeGroups (rows : List Row) {context : ℕ}
    (hsize : rows.length + 2 * context < 2 ^ 64) :
    Groups rows context (changeGroups rows context) := by
  induction rows using List.reverseRecOn with
  | nil =>
    exact ⟨fun _ h => absurd h List.not_mem_nil, fun _ h => absurd h List.not_mem_nil,
      List.Pairwise.nil, fun _ _ h => by simp at h⟩
  | append_singleton rows row ih =>
    rw [List.length_append] at hsize
    have h := ih (by omega)
    rw [changeGroups_append]
    unfold groupRow
    dsimp only
    split
    · exact h.unchanged ‹_›
    · cases hlast : (changeGroups rows context).getLast? with
      | none =>
        rw [List.getLast?_eq_none_iff] at hlast
        rw [hlast] at h ⊢
        exact h.push fun group hgroup => absurd hgroup List.not_mem_nil
      | some last =>
        obtain ⟨front, hfront⟩ : ∃ front, changeGroups rows context = front ++ [last] :=
          List.getLast?_eq_some_iff.mp hlast
        rw [hfront] at h ⊢
        have hlt := h.lt last (by simp)
        have hsum : usize (last.2 + 2 * context + 1) = last.2 + 2 * context + 1 :=
          Nat.mod_eq_of_lt (by omega)
        dsimp only
        split
        · rw [List.dropLast_concat]
          exact h.extend
        · refine h.push fun group hgroup => ?_
          rcases List.mem_append.mp hgroup with hgroup | hgroup
          · have hapart := (List.pairwise_append.mp h.apart).2.2 group hgroup last (by simp)
            have := h.le last (by simp)
            omega
          · rw [List.mem_singleton.mp hgroup]
            omega

end Groups

/-! ## Windows -/

section Windows

variable {rows : List Row} {context : ℕ}

theorem fromCount_eq (count : ℕ) : fromCount count = if count = 0 then 0 else 1 := by
  unfold fromCount
  split <;> split <;> omega

theorem oldCount_eq (window : List Row) : oldCount window = (oldSide (edits window)).length := by
  rw [oldCount, oldSide, edits, List.filter_map, List.length_map, List.length_map,
    List.countP_eq_length_filter]
  rfl

theorem newCount_eq (window : List Row) : newCount window = (newSide (edits window)).length := by
  rw [newCount, newSide, edits, List.filter_map, List.length_map, List.length_map,
    List.countP_eq_length_filter]
  rfl

/-- **The numbers of a window's hunk are right.** -/
theorem numbered_hunkOf {window : List Row} (hne : window ≠ [])
    (h : Positioned oldIndex newIndex window) : (hunkOf window).Numbered oldIndex newIndex := by
  cases window with
  | nil => exact absurd rfl hne
  | cons first window =>
    refine ⟨oldCount_eq _, newCount_eq _, ?_, ?_⟩
    · simp [hunkOf, h.1, fromCount_eq]
    · simp [hunkOf, h.2.1, fromCount_eq]

/-- A window is the rows from its start to its stop. -/
theorem window_eq {group : ℕ × ℕ} {taken : List Row} (h : window rows context group = .ok taken) :
    ∃ start stop, start ≤ stop ∧ stop < rows.length ∧ start = group.1 - context ∧
      stop = min (usize (group.2 + context)) (rows.length - 1) ∧
      taken = (rows.take (stop + 1)).drop start := by
  unfold window at h
  dsimp only at h
  split at h
  · rename_i hin
    cases h
    exact ⟨_, _, hin.1, hin.2, rfl, rfl, rfl⟩
  · cases h

theorem window_ne_nil {group : ℕ × ℕ} {taken : List Row}
    (h : window rows context group = .ok taken) : taken ≠ [] := by
  obtain ⟨start, stop, hle, hlt, -, -, rfl⟩ := window_eq h
  intro hnil
  have hlength := congrArg List.length hnil
  rw [List.length_drop, List.length_take, List.length_nil] at hlength
  omega

theorem sides_of_unchanged {gap : List Row} (h : ∀ row ∈ gap, row.op = .equal) :
    (∀ edit ∈ edits gap, edit.1 = .equal) ∧ (oldSide (edits gap)).length = (edits gap).length ∧
      (newSide (edits gap)).length = (edits gap).length := by
  have hedits : ∀ edit ∈ edits gap, edit.1 = .equal := by
    intro edit hedit
    obtain ⟨row, hrow, rfl⟩ := List.mem_map.mp hedit
    exact h row hrow
  obtain ⟨hold, hnew⟩ := sides_of_equal hedits
  exact ⟨hedits, by rw [hold, List.length_map], by rw [hnew, List.length_map]⟩

/-- **The windows around runs of changed rows are cut out of the rows.** The induction is on the
runs: `done` rows are in front of the windows that are left, and none of the runs that are left
begins its context there. -/
theorem cut_windows {groups : List (ℕ × ℕ)} {windows : List (List Row)}
    (hwindows : List.Forall₂ (fun group taken => window rows context group = .ok taken)
      groups windows) (hsize : rows.length + 2 * context < 2 ^ 64) {done : ℕ}
    (hle : ∀ group ∈ groups, group.1 ≤ group.2) (hlt : ∀ group ∈ groups, group.2 < rows.length)
    (hapart : groups.Pairwise fun group group' => group.2 + 2 * context + 1 < group'.1)
    (hdone : ∀ group ∈ groups, done ≤ group.1 - context)
    (hcovers : ∀ index row, done ≤ index → rows[index]? = some row → row.op ≠ .equal →
      ∃ group ∈ groups, group.1 ≤ index ∧ index ≤ group.2)
    (hpositioned : Positioned oldIndex newIndex (rows.drop done)) :
    Cut oldIndex newIndex (edits (rows.drop done)) (windows.map hunkOf) := by
  induction hwindows generalizing done oldIndex newIndex with
  | nil =>
    refine .rest (sides_of_unchanged fun row hrow => ?_).1
    obtain ⟨index, hindex⟩ := List.mem_iff_getElem?.mp hrow
    rw [List.getElem?_drop] at hindex
    by_contra hop
    obtain ⟨group, hgroup, -⟩ := hcovers _ row (Nat.le_add_right _ _) hindex hop
    exact absurd hgroup List.not_mem_nil
  | @cons group taken groups windows hwindow _ ih =>
    obtain ⟨hbefore, hapart⟩ := List.pairwise_cons.mp hapart
    have hgroupLt := hlt group (by simp)
    have hstart := hdone group (by simp)
    have hne := window_ne_nil hwindow
    obtain ⟨start, stop, hstop, hstopLt, rfl, hstopEq, htaken⟩ := window_eq hwindow
    have hsum : usize (group.2 + context) = group.2 + context := Nat.mod_eq_of_lt (by omega)
    -- The rows that are left: unchanged ones, the window, and what is behind it.
    have hgap : ∀ row ∈ (rows.drop done).take (group.1 - context - done), row.op = .equal := by
      intro row hrow
      obtain ⟨index, hindex⟩ := List.mem_iff_getElem?.mp hrow
      rw [List.getElem?_take] at hindex
      split at hindex
      · rw [List.getElem?_drop] at hindex
        by_contra hop
        obtain ⟨found, hfound, hin⟩ := hcovers _ row (Nat.le_add_right _ _) hindex hop
        rcases List.mem_cons.mp hfound with rfl | hfound
        · omega
        · have := hbefore found hfound
          omega
      · cases hindex
    have hsplit : rows.drop done = (rows.drop done).take (group.1 - context - done) ++
        (taken ++ rows.drop (stop + 1)) := by
      have hdrop : (rows.drop done).drop (group.1 - context - done) =
          rows.drop (group.1 - context) := by
        rw [List.drop_drop, Nat.add_sub_cancel' hstart]
      have hwindowed : taken ++ rows.drop (stop + 1) = rows.drop (group.1 - context) := by
        have hall := congrArg (List.drop (group.1 - context))
          (List.take_append_drop (stop + 1) rows)
        rw [List.drop_append_of_le_length (by rw [List.length_take]; omega)] at hall
        rw [htaken, hall]
      rw [hwindowed, ← hdrop, List.take_append_drop]
    obtain ⟨hequal, hold, hnew⟩ := sides_of_unchanged hgap
    rw [hsplit] at hpositioned ⊢
    have hpositioned' := hpositioned.right
    rw [hold, hnew] at hpositioned'
    have hrest := hpositioned'.right
    rw [← oldCount_eq, ← newCount_eq] at hrest
    rw [edits_append, edits_append]
    refine .hunk hequal (numbered_hunkOf hne hpositioned'.left) (ih ?_ ?_ hapart ?_ ?_ hrest)
    · exact fun later hlater => hle later (List.mem_cons_of_mem _ hlater)
    · exact fun later hlater => hlt later (List.mem_cons_of_mem _ hlater)
    · intro later hlater
      have := hbefore later hlater
      omega
    · intro index row hindex hrow hop
      obtain ⟨found, hfound, hin⟩ := hcovers index row (by omega) hrow hop
      rcases List.mem_cons.mp hfound with rfl | hfound
      · omega
      · exact ⟨found, hfound, hin⟩

end Windows

/-! ## The text -/

section Text

variable {rows : List Row} {context maxBytes : ℕ}

/-- The text of hunks, with a line break behind each line. -/
def patchText (hunks : List (Hunk Line)) : List Char := hunks.flatMap hunkText

/-- The lines of a hunk. -/
def hunkLines (hunk : Hunk Line) : List Line :=
  header hunk.oldStart hunk.oldCount hunk.newStart hunk.newCount :: hunk.rows.map rowLine

/-- Lines with a break behind each are lines with breaks between them and one at the end. -/
theorem flatMap_newline {lines : List Line} (hne : lines ≠ []) :
    lines.flatMap (· ++ ['\n']) = ['\n'].intercalate lines ++ ['\n'] := by
  induction lines with
  | nil => exact absurd rfl hne
  | cons line lines ih =>
    cases lines with
    | nil => simp
    | cons next lines =>
      rw [List.flatMap_cons, ih (by simp)]
      simp

/-- **The text of hunks by its lines.** -/
theorem patchText_eq {hunks : List (Hunk Line)} (hne : hunks ≠ []) :
    patchText hunks = ['\n'].intercalate (hunks.flatMap hunkLines) ++ ['\n'] := by
  have hlines : hunks.flatMap hunkLines ≠ [] := by
    cases hunks with
    | nil => exact absurd rfl hne
    | cons hunk hunks => simp [hunkLines]
  rw [← flatMap_newline hlines, patchText, List.flatMap_assoc]
  congr 1
  funext hunk
  simp [hunkText, hunkLines, List.flatMap_map]

/-- What the loop has written, when it comes to its end. -/
theorem writeHunks_eq {groups : List (ℕ × ℕ)} {diff text : List Char}
    (h : writeHunks rows context maxBytes diff groups = .ok (some text)) :
    ∃ windows, List.Forall₂ (fun group taken => window rows context group = .ok taken) groups
        windows ∧ text = diff ++ patchText (windows.map hunkOf) := by
  induction groups generalizing diff with
  | nil =>
    cases h
    exact ⟨[], .nil, (List.append_nil _).symm⟩
  | cons group groups ih =>
    rw [writeHunks] at h
    cases hwindow : window rows context group with
    | error panic =>
      rw [hwindow] at h
      cases h
    | ok taken =>
      rw [hwindow] at h
      change (if maxBytes < byteLength (diff ++ hunkText (hunkOf taken)) then .ok none
        else writeHunks rows context maxBytes (diff ++ hunkText (hunkOf taken)) groups) =
          Except.ok (some text) at h
      split at h
      · cases h
      · obtain ⟨windows, hwindows, rfl⟩ := ih h
        exact ⟨taken :: windows, .cons hwindow hwindows, by simp [patchText]⟩

end Text

/-! ## A changed final newline -/

section FinalNewline

variable (lines : List Line)

/-- The script that repeats the last line. -/
def finalOps : List Op := List.replicate (lines.length - 1) .equal ++ [.delete, .insert]

/-- The rows that `final_newline_diff` takes its window from. -/
def finalRows : List Row := rowsFrom lines lines 0 0 (finalOps lines)

variable {lines}

theorem getD_last (hne : lines ≠ []) : lines.getD (lines.length - 1) [] = lines.getLast hne := by
  rw [List.getLast_eq_getElem, List.getD_eq_getElem?_getD, List.getElem?_eq_getElem]
  rfl

theorem finalOps_transforms (hne : lines ≠ []) : Transforms (finalOps lines) lines lines := by
  have hkeep := Transforms.keepAll lines.dropLast
  rw [List.length_dropLast] at hkeep
  have hlast : Transforms [.delete, .insert] [lines.getLast hne] [lines.getLast hne] :=
    .delete _ (.insert _ .nil)
  have happend := hkeep.append hlast
  rwa [List.dropLast_append_getLast hne] at happend

/-- Unchanged rows. -/
theorem edits_rowsFrom_equal {old new : List Line} (ops : List Op) {oldIndex newIndex count : ℕ}
    (h : oldIndex + count ≤ old.length) :
    edits (rowsFrom old new oldIndex newIndex (List.replicate count .equal ++ ops)) =
      ((old.drop oldIndex).take count).map (Prod.mk .equal) ++
        edits (rowsFrom old new (oldIndex + count) (newIndex + count) ops) := by
  induction count generalizing oldIndex newIndex with
  | zero => simp
  | succ count ih =>
    have hlt : oldIndex < old.length := by omega
    have hrest := @ih (oldIndex + 1) (newIndex + 1) (by omega)
    rw [List.drop_eq_getElem_cons hlt, List.take_succ_cons, List.replicate_succ, List.cons_append,
      rowsFrom]
    simp only [edits] at hrest ⊢
    simp [hrest, hlt, Nat.add_comm, Nat.add_left_comm]

theorem edits_finalRows (hne : lines ≠ []) :
    edits (finalRows lines) = lines.dropLast.map (Prod.mk .equal) ++
      [(.delete, lines.getLast hne), (.insert, lines.getLast hne)] := by
  have hedits := @edits_rowsFrom_equal lines lines [.delete, .insert] 0 0 (lines.length - 1)
    (by omega)
  have hlast := getD_last hne
  rw [List.getD_eq_getElem?_getD] at hlast
  rw [finalRows, finalOps, hedits, List.drop_zero, ← List.dropLast_eq_take]
  simp [edits, rowsFrom, hlast]

/-- The edits of the window. -/
theorem edits_drop_finalRows (hne : lines ≠ []) {start : ℕ} (hstart : start < lines.length) :
    edits ((finalRows lines).drop start) =
      (lines.drop start).dropLast.map (Prod.mk .equal) ++
        [(.delete, lines.getLast hne), (.insert, lines.getLast hne)] := by
  have hedits := edits_finalRows hne
  rw [edits] at hedits ⊢
  rw [List.map_drop, hedits, List.drop_append_of_le_length
    (by rw [List.length_map, List.length_dropLast]; omega), ← List.map_drop]
  congr 2
  rw [List.dropLast_eq_take, List.dropLast_eq_take, List.drop_take, List.length_drop]
  congr 1
  omega

/-- The window is cut out of the rows. -/
theorem cut_finalRows (hne : lines ≠ []) {start : ℕ} (hstart : start < lines.length) :
    Cut 0 0 (edits (finalRows lines)) [hunkOf ((finalRows lines).drop start)] ∧
      (hunkOf ((finalRows lines).drop start)).Numbered start start := by
  have hpositioned : Positioned 0 0 (finalRows lines) := positioned_rowsFrom lines lines 0 0 _
  have hedits : edits ((finalRows lines).take start) =
      (lines.dropLast.take start).map (Prod.mk .equal) := by
    have hall := edits_finalRows hne
    rw [edits] at hall ⊢
    rw [List.map_take, hall, List.take_append_of_le_length
      (by rw [List.length_map, List.length_dropLast]; omega), List.map_take]
  have hequal : ∀ edit ∈ edits ((finalRows lines).take start), edit.1 = .equal := by
    intro edit hedit
    rw [hedits] at hedit
    obtain ⟨line, -, rfl⟩ := List.mem_map.mp hedit
    rfl
  have hlength : (edits ((finalRows lines).take start)).length = start := by
    rw [hedits, List.length_map, List.length_take, List.length_dropLast]
    omega
  obtain ⟨hold, hnew⟩ := sides_of_equal hequal
  rw [← List.take_append_drop start (finalRows lines)] at hpositioned
  have hright := hpositioned.right
  rw [hold, hnew, List.length_map, hlength, Nat.zero_add] at hright
  have hwindow : (finalRows lines).drop start ≠ [] := by
    intro hnil
    have hdrop := edits_drop_finalRows hne hstart
    rw [hnil] at hdrop
    simp [edits] at hdrop
  have hnumbered := numbered_hunkOf hwindow hright
  refine ⟨?_, hnumbered⟩
  have hcut : Cut 0 0 (edits ((finalRows lines).take start) ++
      ((hunkOf ((finalRows lines).drop start)).rows ++ []))
      [hunkOf ((finalRows lines).drop start)] := by
    refine .hunk hequal ?_ (.rest ?_)
    · rwa [hlength, Nat.zero_add]
    · exact fun _ h => absurd h List.not_mem_nil
  have hrows : (hunkOf ((finalRows lines).drop start)).rows =
      edits ((finalRows lines).drop start) := rfl
  rwa [List.append_nil, hrows, ← edits_append, List.take_append_drop] at hcut

/-- **The diff of a changed final newline is one hunk.** -/
theorem finalNewlineDiff_eq {before after patch : List Char} {context maxBytes : ℕ}
    (h : finalNewlineDiff lines before after context maxBytes = some patch) :
    lines ≠ [] ∧ patch ++ ['\n'] =
      patchText [hunkOf ((finalRows lines).drop (lines.length - 1 - context))] := by
  unfold finalNewlineDiff at h
  split at h
  · cases h
  · rename_i hnot
    have hne : lines ≠ [] := by
      rintro rfl
      simp at hnot
    have hpos := List.length_pos_iff.mpr hne
    refine ⟨hne, ?_⟩
    dsimp only at h
    set start := lines.length - 1 - context with hstart
    have hlt : start < lines.length := by omega
    have hedits := edits_drop_finalRows hne hlt
    have hnumbered := (cut_finalRows hne hlt).2
    generalize hhunk : hunkOf ((finalRows lines).drop start) = hunk at hnumbered ⊢
    have hrows : hunk.rows = edits ((finalRows lines).drop start) := by rw [← hhunk]; rfl
    have hlength : (lines.drop start).length ≠ 0 := by rw [List.length_drop]; omega
    have hold : hunk.oldCount = (lines.drop start).length := by
      rw [hnumbered.oldCount, hrows, hedits, oldSide_append, (sides_map_equal _).1]
      simp
      omega
    have hnew : hunk.newCount = (lines.drop start).length := by
      rw [hnumbered.newCount, hrows, hedits, newSide_append, (sides_map_equal _).2]
      simp
      omega
    have holdStart := hnumbered.oldStart
    have hnewStart := hnumbered.newStart
    rw [hold, if_neg hlength] at holdStart
    rw [hnew, if_neg hlength] at hnewStart
    split at h
    · cases h
      rw [patchText, List.flatMap_cons, hunkText, hold, hnew, holdStart, hnewStart, hrows, hedits,
        getD_last hne]
      generalize (lines.drop start).dropLast = kept
      simp [rowLine, marker, List.flatMap_map]
    · cases h

end FinalNewline

/-! ## Diffs -/

section Diffs

variable {before after : List Char} {context maxBytes : ℕ}

/-- The rows of the script that a diff is taken from. -/
def scriptRows (before after : List Char) : List Row :=
  if splitLines before = splitLines after then finalRows (splitLines before)
  else rows (splitLines before) (splitLines after)

/-- The windows show the final newline that changed, or one group of changes each. -/
def DrawnFrom (before after : List Char) (context : ℕ) (windows : List (List Row)) : Prop :=
  if splitLines before = splitLines after then
    splitLines before ≠ [] ∧ windows = [(finalRows (splitLines before)).drop
      ((splitLines before).length - 1 - context)]
  else
    List.Forall₂ (fun group taken =>
        window (rows (splitLines before) (splitLines after)) context group = .ok taken)
      (changeGroups (rows (splitLines before) (splitLines after)) context) windows

theorem DrawnFrom.ne_nil {windows : List (List Row)} (h : DrawnFrom before after context windows)
    (hsame : splitLines before = splitLines after) : splitLines before ≠ [] := by
  rw [DrawnFrom, if_pos hsame] at h
  exact h.1

/-- **What is in a diff**: the hunks of windows of the script's rows. -/
theorem unifiedDiff_eq {patch : List Char}
    (h : unifiedDiff before after context maxBytes = .ok (some patch)) :
    ∃ windows : List (List Row), patch ++ ['\n'] = patchText (windows.map hunkOf) ∧
      DrawnFrom before after context windows := by
  unfold unifiedDiff at h
  dsimp only at h
  split at h
  · rename_i hsame
    have hfinal : finalNewlineDiff (splitLines before) before after context maxBytes =
        some patch := by
      injection h
    obtain ⟨hne, htext⟩ := finalNewlineDiff_eq hfinal
    exact ⟨[_], htext, by rw [DrawnFrom, if_pos hsame]; exact ⟨hne, rfl⟩⟩
  · rename_i hdiffer
    cases hwrite : writeHunks (rows (splitLines before) (splitLines after)) context maxBytes []
        (changeGroups (rows (splitLines before) (splitLines after)) context) with
    | error panic =>
      rw [hwrite] at h
      cases h
    | ok written =>
      rw [hwrite] at h
      cases written with
      | none => cases h
      | some diff =>
        obtain ⟨windows, hwindows, hdiff⟩ := writeHunks_eq hwrite
        change Except.ok (if diff.isEmpty then none else some diff.dropLast) =
          Except.ok (some patch) at h
        split at h
        · cases h
        · rename_i hempty
          injection h with h
          injection h with h
          subst h
          refine ⟨windows, ?_, by rwa [DrawnFrom, if_neg hdiffer]⟩
          rw [List.nil_append] at hdiff
          have hne : windows.map hunkOf ≠ [] := by
            intro hnil
            simp [hdiff, hnil, patchText] at hempty
          rw [hdiff, patchText_eq hne, List.dropLast_concat]

/-- The windows of a diff are cut out of the script's rows. -/
theorem cut_scriptRows (hsize : (splitLines before).length + (splitLines after).length +
      2 * context < 2 ^ 64) {windows : List (List Row)}
    (h : DrawnFrom before after context windows) :
    Cut 0 0 (edits (scriptRows before after)) (windows.map hunkOf) := by
  unfold scriptRows
  unfold DrawnFrom at h
  split at h
  · rename_i hsame
    obtain ⟨hne, rfl⟩ := h
    have hpos := List.length_pos_iff.mpr hne
    rw [if_pos hsame]
    exact (cut_finalRows hne (by omega)).1
  · rename_i hdiffer
    rw [if_neg hdiffer]
    obtain ⟨hold, hnew⟩ := sides_rows (splitLines before) (splitLines after)
    have hlength := length_le_sides (rows (splitLines before) (splitLines after))
    rw [hold, hnew] at hlength
    have hrows : (rows (splitLines before) (splitLines after)).length + 2 * context < 2 ^ 64 := by
      omega
    have hgroups := groups_changeGroups _ hrows
    have hcut := cut_windows h hrows hgroups.le hgroups.lt hgroups.apart
      (fun _ _ => Nat.zero_le _) (fun index row _ => hgroups.covers index row)
      (positioned_rows (splitLines before) (splitLines after))
    rwa [List.drop_zero] at hcut

/-- The script's rows turn the old lines into the new ones. -/
theorem sides_scriptRows (before after : List Char)
    (hne : splitLines before = splitLines after → splitLines before ≠ []) :
    oldSide (edits (scriptRows before after)) = splitLines before ∧
      newSide (edits (scriptRows before after)) = splitLines after := by
  unfold scriptRows
  split
  · rename_i hsame
    rw [← hsame]
    exact @sides_rowsFrom _ _ _ 0 0 (finalOps_transforms (hne hsame))
  · exact sides_rows _ _

/-- **A diff is a patch.** Its text is that of hunks in order, which do not overlap and have the
numbers of their rows, and applied to the lines of the old text they give those of the new one.
There are no other lines in it: no marker says how a text ends. The number of lines and twice
the context together stay below `2 ^ 64`. -/
theorem unifiedDiff_patch (hsize : (splitLines before).length + (splitLines after).length +
      2 * context < 2 ^ 64) {patch : List Char}
    (h : unifiedDiff before after context maxBytes = .ok (some patch)) :
    ∃ hunks : List (Hunk Line), patch ++ ['\n'] = patchText hunks ∧
      hunks.Pairwise Hunk.Precedes ∧
      (∀ hunk ∈ hunks, hunk.Numbered hunk.oldBefore hunk.newBefore) ∧
      applyHunks 0 0 hunks (splitLines before) = some (splitLines after) := by
  obtain ⟨windows, htext, hwindows⟩ := unifiedDiff_eq h
  have hcut := cut_scriptRows hsize hwindows
  obtain ⟨hold, hnew⟩ := sides_scriptRows before after hwindows.ne_nil
  have happly := hcut.applyHunks_eq
  rw [hold, hnew] at happly
  exact ⟨windows.map hunkOf, htext, hcut.pairwise_precedes, hcut.numbered, happly⟩

theorem unifiedDiff_patch_insertion :
    unifiedDiff "one\ntwo\n".toList "one\nmiddle\ntwo".toList 3 1000 =
        .ok (some "@@ -1,2 +1,3 @@\n one\n+middle\n two".toList) ∧
      ∃ hunks : List (Hunk Line),
        "@@ -1,2 +1,3 @@\n one\n+middle\n two".toList ++ ['\n'] = patchText hunks ∧
          hunks.Pairwise Hunk.Precedes ∧
          (∀ hunk ∈ hunks, hunk.Numbered hunk.oldBefore hunk.newBefore) ∧
          applyHunks 0 0 hunks (splitLines "one\ntwo\n".toList) =
            some (splitLines "one\nmiddle\ntwo".toList) := by
  have h : unifiedDiff "one\ntwo\n".toList "one\nmiddle\ntwo".toList 3 1000 =
      .ok (some "@@ -1,2 +1,3 @@\n one\n+middle\n two".toList) := by decide
  exact ⟨h, unifiedDiff_patch (by decide) h⟩

/-- All of the changes from `a b c` to `A b C`. -/
def wholeHunk : Hunk Line :=
  ⟨1, 3, 1, 3, [(.delete, ['a']), (.insert, ['A']), (.equal, ['b']), (.delete, ['c']),
    (.insert, ['C'])]⟩

/-- With a context of `2 ^ 63` twice the context is nothing, so two runs get a hunk each, and both
hunks are everything. And texts with and without a final newline have one and the same diff. -/
theorem unifiedDiff_overlaps :
    (unifiedDiff "a\nb\nc".toList "A\nb\nC".toList (2 ^ 63) 1000 =
        .ok (some (patchText [wholeHunk, wholeHunk]).dropLast) ∧
      ¬wholeHunk.Precedes wholeHunk ∧
      applyHunks 0 0 [wholeHunk, wholeHunk] (splitLines "a\nb\nc".toList) = none) ∧
    unifiedDiff "one".toList "two\n".toList 3 1000 =
        .ok (some "@@ -1,1 +1,1 @@\n-one\n+two".toList) ∧
      unifiedDiff "one\n".toList "two".toList 3 1000 =
        .ok (some "@@ -1,1 +1,1 @@\n-one\n+two".toList) := by
  decide

end Diffs

end Argmax.Providers.UnifiedDiff
