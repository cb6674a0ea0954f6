import Argmax.Providers.UnifiedDiffPatch
import Argmax.Renderer.Diff

/-!
# The renderer reads the host's diffs

A row of a diff starts with its marker, so it is never read as the start of a hunk or of a
file, and no text of a row has a line break. The lines of a diff are therefore those that were
written, and each hunk is read back with the numbers of its rows.

## Main results

* `parseHeader_header`: the numbers of a hunk.
* `hunkBody_rows`: its rows.
* `parse_unifiedDiff`: the rows, the numbers and the totals of a diff.
-/

namespace Argmax.Renderer.Diff

open Argmax.Lib Argmax.Providers.UnifiedDiff

/-! ## The start of a hunk -/

section Header

theorem stripStart_append (start text : List Char) :
    stripStart start (start ++ text) = some text := by
  have hstart : start.isPrefixOf (start ++ text) = true :=
    List.isPrefixOf_iff_prefix.mpr (List.prefix_append start text)
  rw [stripStart, if_pos hstart, List.drop_left]

/-- **A number is read back.** -/
theorem number_toDigits (n : ℕ) {c : Char} (hc : c.isDigit = false) (rest : List Char) :
    number (Nat.toDigits 10 n ++ c :: rest) = some (n, c :: rest) := by
  have hdigits : ∀ d ∈ Nat.toDigits 10 n, d.isDigit = true := fun d hd =>
    Nat.isDigit_of_mem_toDigits (by decide) (by decide) hd
  have htake : (Nat.toDigits 10 n ++ c :: rest).takeWhile Char.isDigit = Nat.toDigits 10 n := by
    rw [List.takeWhile_append_of_pos hdigits, List.takeWhile_cons_of_neg (by simp [hc]),
      List.append_nil]
  have hdrop : (Nat.toDigits 10 n ++ c :: rest).dropWhile Char.isDigit = c :: rest := by
    rw [List.dropWhile_append_of_pos hdigits, List.dropWhile_cons_of_neg (by simp [hc])]
  have hne : (Nat.toDigits 10 n).isEmpty = false := by simp
  rw [number, htake, hdrop, hne, Nat.ofDigitChars_ten_toDigits]
  rfl

theorem skipCount_toDigits (n : ℕ) {c : Char} (hc : c.isDigit = false) (rest : List Char) :
    skipCount (',' :: (Nat.toDigits 10 n ++ c :: rest)) = c :: rest := by
  rw [skipCount, number_toDigits n hc]
  rfl

/-- **The start of a hunk is read back.** -/
theorem parseHeader_header (oldStart oldCount newStart newCount : ℕ) :
    parseHeader (header oldStart oldCount newStart newCount) = some (oldStart, newStart) := by
  have hcomma : ",".toList = [','] := by decide
  have hplus : " +".toList = [' ', '+'] := by decide
  have hclose : " @@".toList = [' ', '@', '@'] := by decide
  have hshape : header oldStart oldCount newStart newCount =
      "@@ -".toList ++ (Nat.toDigits 10 oldStart ++ ',' :: (Nat.toDigits 10 oldCount ++
        ' ' :: '+' :: (Nat.toDigits 10 newStart ++ ',' :: (Nat.toDigits 10 newCount ++
          [' ', '@', '@'])))) := by
    unfold header
    rw [hcomma, hplus, hclose]
    simp
  have hnew : ∀ rest, stripStart [' ', '+'] (' ' :: '+' :: rest) = some rest :=
    stripStart_append [' ', '+']
  have hend : stripStart [' ', '@', '@'] [' ', '@', '@'] = some [] := by decide
  rw [parseHeader, hshape, stripStart_append, hplus, hclose]
  simp only [Option.bind_eq_bind, Option.bind_some]
  rw [number_toDigits oldStart (by decide)]
  simp only [Option.bind_some]
  rw [skipCount_toDigits oldCount (by decide), hnew]
  simp only [Option.bind_some]
  rw [number_toDigits newStart (by decide)]
  simp only [Option.bind_some]
  rw [skipCount_toDigits newCount (by decide)]
  rfl

end Header

/-! ## Rows -/

section Rows

/-- A row as the parser gives it. -/
def lineOf (row : Row) : ParsedDiffLine :=
  match row.op with
  | .equal => ⟨.context, some (row.oldBefore + 1), some (row.newBefore + 1), row.text⟩
  | .delete => ⟨.deletion, some (row.oldBefore + 1), none, row.text⟩
  | .insert => ⟨.addition, none, some (row.newBefore + 1), row.text⟩

/-- The lines behind a hunk: none, or those of another hunk. -/
def AtHunk (lines : List (List Char)) : Prop :=
  ∀ line ∈ lines.head?, "@@ ".toList.isPrefixOf line = true

/-- **The rows of a hunk are read back**, with numbers that start at those of its first rows. The
number of a side without rows does not matter. -/
theorem hunkBody_rows {window : List Row} {oldIndex newIndex oldLineNumber newLineNumber : ℕ}
    {rest : List (List Char)} (hpositioned : Positioned oldIndex newIndex window)
    (hold : oldSide (edits window) ≠ [] → oldLineNumber = oldIndex + 1)
    (hnew : newSide (edits window) ≠ [] → newLineNumber = newIndex + 1) (hrest : AtHunk rest) :
    (hunkBody oldLineNumber newLineNumber ((edits window).map rowLine ++ rest)).1 =
        window.map lineOf ∧
      (hunkBody oldLineNumber newLineNumber ((edits window).map rowLine ++ rest)).2.2 = rest := by
  induction window generalizing oldIndex newIndex oldLineNumber newLineNumber with
  | nil =>
    cases rest with
    | nil => exact ⟨rfl, rfl⟩
    | cons line rest =>
      have hstart := hrest line rfl
      simp only [edits, List.map_nil, List.nil_append]
      unfold hunkBody
      rw [hstart]
      exact ⟨rfl, rfl⟩
  | cons row window ih =>
    obtain ⟨op, text, oldBefore, newBefore⟩ := row
    obtain ⟨rfl, rfl, hpositioned⟩ := hpositioned
    cases op with
    | equal =>
      obtain rfl := hold (by simp [edits])
      obtain rfl := hnew (by simp [edits])
      obtain ⟨hlines, hleft⟩ := ih hpositioned (fun _ => rfl) (fun _ => rfl)
      exact ⟨congrArg (List.cons _) hlines, hleft⟩
    | delete =>
      obtain rfl := hold (by simp [edits])
      obtain ⟨hlines, hleft⟩ := ih hpositioned (fun _ => rfl) hnew
      exact ⟨congrArg (List.cons _) hlines, hleft⟩
    | insert =>
      obtain rfl := hnew (by simp [edits])
      obtain ⟨hlines, hleft⟩ := ih hpositioned hold (fun _ => rfl)
      exact ⟨congrArg (List.cons _) hlines, hleft⟩

end Rows

/-! ## Hunks -/

section Hunks

theorem header_start (oldStart oldCount newStart newCount : ℕ) :
    "@@ ".toList.isPrefixOf (header oldStart oldCount newStart newCount) = true := by
  have hshape : "@@ -".toList = "@@ ".toList ++ ['-'] := by decide
  unfold header
  rw [List.isPrefixOf_iff_prefix]
  exact List.prefix_append _ _

theorem atHunk_hunkLines (hunks : List (Hunk Line)) : AtHunk (hunks.flatMap hunkLines) := by
  cases hunks with
  | nil => exact fun _ h => nomatch h
  | cons hunk hunks =>
    intro line hline
    cases hline
    exact header_start _ _ _ _

/-- **The hunks of windows are read back.** -/
theorem hunksOf_blocksOf {windows : List (List Row)}
    (h : ∀ window ∈ windows, window ≠ [] ∧ ∃ oldIndex newIndex, Positioned oldIndex newIndex window)
    (previousOldEnd : Option ℤ) (hunkIndex : ℕ) :
    hunksOf (blocksOf previousOldEnd hunkIndex ((windows.map hunkOf).flatMap hunkLines)) =
      windows.map fun window => window.map lineOf := by
  induction windows generalizing previousOldEnd hunkIndex with
  | nil =>
    rw [List.map_nil, List.flatMap_nil, blocksOf]
    rfl
  | cons window windows ih =>
    obtain ⟨hne, oldIndex, newIndex, hpositioned⟩ := h window (by simp)
    have hnumbered := numbered_hunkOf hne hpositioned
    have hold : oldSide (edits window) ≠ [] → (hunkOf window).oldStart = oldIndex + 1 := by
      intro hside
      rw [hnumbered.oldStart, hnumbered.oldCount, if_neg]
      exact fun hzero => hside (List.length_eq_zero_iff.mp hzero)
    have hnew : newSide (edits window) ≠ [] → (hunkOf window).newStart = newIndex + 1 := by
      intro hside
      rw [hnumbered.newStart, hnumbered.newCount, if_neg]
      exact fun hzero => hside (List.length_eq_zero_iff.mp hzero)
    obtain ⟨hlines, hleft⟩ := hunkBody_rows hpositioned hold hnew
      (atHunk_hunkLines (windows.map hunkOf))
    have hrows : (hunkOf window).rows = edits window := rfl
    rw [List.map_cons, List.flatMap_cons, hunkLines, List.cons_append, blocksOf, parseHeader_header]
    dsimp only
    rw [hrows, hlines, hleft]
    have hrest := fun previousOldEnd => ih (fun later hlater => h later (by simp [hlater]))
      previousOldEnd (hunkIndex + 1)
    rw [hunksOf_append, hunksOf_hunk, hrest]
    split <;> rfl

/-- A capped diff has a block more, which is no hunk. -/
theorem hunksOf_parseUnifiedDiff (content : List Char) :
    hunksOf (parseUnifiedDiff content) = hunksOf (blocksOf none 0 (content.splitOn '\n')) := by
  unfold parseUnifiedDiff
  split <;> simp

end Hunks

/-! ## Lines without breaks -/

section Breaks

theorem newline_notMem_splitOn {text : List Char} : ∀ line ∈ text.splitOn '\n', '\n' ∉ line := by
  induction text with
  | nil => simp
  | cons c text ih =>
    rw [List.splitOn_cons_eq_if_modifyHead]
    split
    · intro line hline
      rcases List.mem_cons.mp hline with rfl | hline
      · exact List.not_mem_nil
      · exact ih line hline
    · rename_i hc
      cases hsplit : text.splitOn '\n' with
      | nil => simp
      | cons first rest =>
        rw [hsplit] at ih
        intro line hline
        rcases List.mem_cons.mp hline with rfl | hline
        · intro hmem
          rcases List.mem_cons.mp hmem with heq | hmem
          · exact hc (by simp [← heq])
          · exact ih first (by simp) hmem
        · exact ih line (by simp [hline])

theorem newline_notMem_splitLines {text : List Char} : ∀ line ∈ splitLines text, '\n' ∉ line := by
  unfold splitLines
  split
  · exact fun _ h => absurd h List.not_mem_nil
  · exact newline_notMem_splitOn

theorem newline_notMem_header (oldStart oldCount newStart newCount : ℕ) :
    '\n' ∉ header oldStart oldCount newStart newCount := by
  have hdigits : ∀ n, '\n' ∉ Nat.toDigits 10 n := fun n hmem =>
    absurd (Nat.isDigit_of_mem_toDigits (by decide) (by decide) hmem) (by decide)
  have hfixed : '\n' ∉ "@@ -".toList ∧ '\n' ∉ ",".toList ∧ '\n' ∉ " +".toList ∧
      '\n' ∉ " @@".toList := by decide
  unfold header
  simp [hdigits]

/-- A line of a hunk without breaks in its rows has none. -/
theorem newline_notMem_hunkLines {window : List Row} (h : ∀ row ∈ window, '\n' ∉ row.text) :
    ∀ line ∈ hunkLines (hunkOf window), '\n' ∉ line := by
  intro line hline
  rcases List.mem_cons.mp hline with rfl | hline
  · exact newline_notMem_header _ _ _ _
  · have hrows : (hunkOf window).rows = edits window := rfl
    rw [hrows, edits, List.map_map] at hline
    obtain ⟨row, hrow, rfl⟩ := List.mem_map.mp hline
    intro hmem
    rcases List.mem_cons.mp hmem with hmarker | hmem
    · cases hop : row.op <;> simp [hop, marker] at hmarker
    · exact h row hrow hmem

end Breaks

/-! ## Diffs -/

section Diffs

variable {before after : List Char} {context maxBytes : ℕ}

/-- The text of a row is the line at its place, on the sides it is on. -/
def TextAt (old new : List Line) (row : Row) : Prop :=
  (row.op ≠ .insert → old[row.oldBefore]? = some row.text) ∧
    (row.op ≠ .delete → new[row.newBefore]? = some row.text)

theorem textAt_rowsFrom {old new : List Line} {ops : List Op} {oldIndex newIndex : ℕ}
    (h : Transforms ops (old.drop oldIndex) (new.drop newIndex)) :
    ∀ row ∈ rowsFrom old new oldIndex newIndex ops, TextAt old new row := by
  have hat : ∀ {lines rest : List Line} {line : Line} {index : ℕ},
      lines.drop index = line :: rest →
        lines[index]? = some line ∧ lines.getD index [] = line ∧ lines.drop (index + 1) = rest := by
    intro lines rest line index hdrop
    exact ⟨by rw [← List.head?_drop, hdrop]; rfl, getD_of_drop hdrop⟩
  induction ops generalizing oldIndex newIndex with
  | nil => exact fun _ h => absurd h List.not_mem_nil
  | cons op ops ih =>
    generalize hold : old.drop oldIndex = oldRest at h
    generalize hnew : new.drop newIndex = newRest at h
    intro row hrow
    cases h with
    | @equal line _ oldRest newRest h =>
      obtain ⟨holdAt, htext, hold'⟩ := hat hold
      obtain ⟨hnewAt, -, hnew'⟩ := hat hnew
      rcases List.mem_cons.mp hrow with rfl | hrow
      · simp [TextAt, holdAt, hnewAt]
      · exact ih (by simpa [hold', hnew'] using h) row hrow
    | @delete line _ oldRest _ h =>
      obtain ⟨holdAt, htext, hold'⟩ := hat hold
      rcases List.mem_cons.mp hrow with rfl | hrow
      · simp [TextAt, holdAt]
      · exact ih (by simpa [hold', hnew] using h) row hrow
    | @insert line _ _ newRest h =>
      obtain ⟨hnewAt, htext, hnew'⟩ := hat hnew
      rcases List.mem_cons.mp hrow with rfl | hrow
      · simp [TextAt, hnewAt]
      · exact ih (by simpa [hold, hnew'] using h) row hrow

theorem textAt_scriptRows (hne : splitLines before = splitLines after → splitLines before ≠ []) :
    ∀ row ∈ scriptRows before after, TextAt (splitLines before) (splitLines after) row := by
  unfold scriptRows
  split
  · rename_i hsame
    rw [← hsame]
    exact @textAt_rowsFrom _ _ _ 0 0 (finalOps_transforms (hne hsame))
  · exact @textAt_rowsFrom _ _ _ 0 0 (diffOps_transforms _ _)

/-- The lines of rows have no breaks. -/
theorem newline_notMem_text {row : Row} (h : TextAt (splitLines before) (splitLines after) row) :
    '\n' ∉ row.text := by
  by_cases hop : row.op = .insert
  · have htext := h.2 (by simp [hop])
    exact newline_notMem_splitLines _ (List.mem_of_getElem? htext)
  · exact newline_notMem_splitLines _ (List.mem_of_getElem? (h.1 hop))

theorem positioned_scriptRows (before after : List Char) :
    Positioned 0 0 (scriptRows before after) := by
  unfold scriptRows
  split
  · exact positioned_rowsFrom _ _ 0 0 _
  · exact positioned_rows _ _

/-- The windows of a diff are parts of the script's rows. -/
theorem windows_part {windows : List (List Row)}
    (h : DrawnFrom before after context windows) :
    ∀ window ∈ windows, window ≠ [] ∧ window <:+: scriptRows before after := by
  unfold scriptRows
  unfold DrawnFrom at h
  split at h
  · rename_i hsame
    obtain ⟨hne, rfl⟩ := h
    have hpos := List.length_pos_iff.mpr hne
    rw [if_pos hsame]
    intro window hwindow
    rw [List.mem_singleton.mp hwindow]
    refine ⟨fun hnil => ?_, (List.drop_suffix _ _).isInfix⟩
    have hedits := edits_drop_finalRows hne
      (by omega : (splitLines before).length - 1 - context < (splitLines before).length)
    rw [hnil] at hedits
    simp [edits] at hedits
  · rename_i hdiffer
    rw [if_neg hdiffer]
    generalize changeGroups (rows (splitLines before) (splitLines after)) context = groups at h
    induction h with
    | nil => exact fun _ h => absurd h List.not_mem_nil
    | cons hwindow _ ih =>
      intro window hmem
      rcases List.mem_cons.mp hmem with rfl | hmem
      · obtain ⟨start, stop, -, -, -, -, htaken⟩ := window_eq hwindow
        refine ⟨window_ne_nil hwindow, ?_⟩
        rw [htaken]
        exact (List.drop_suffix _ _).isInfix.trans (List.take_prefix _ _).isInfix
      · exact ih window hmem

/-- The additions and the deletions among lines are those among the rows. -/
theorem countP_lineOf (windows : List (List Row)) {kind : LineKind} {op : Op}
    (hkind : ∀ row, (lineOf row).kind = kind ↔ row.op = op) :
    ((windows.map fun window => window.map lineOf).flatten.countP fun line =>
        decide (line.kind = kind)) =
      windows.flatten.countP fun row => decide (row.op = op) := by
  rw [← List.map_flatten, List.countP_map]
  congr 1
  funext row
  simp [hkind]

/-- The hunks of windows have their rows. -/
theorem countP_edits (rows : List Row) (op : Op) :
    (edits rows).countP (fun row => decide (row.1 = op)) =
      rows.countP fun row => decide (row.op = op) := by
  rw [edits, List.countP_map]
  rfl

/-- **The renderer reads a diff of the host as it was written.** The diff is the text of windows of
rows. Their rows have the lines of the two texts at the places they count. The parser gives
back the rows of each window with their kinds, texts and line numbers, and its totals are the
numbers of added and deleted rows. As long as no distance passes `2 ^ 64`, these are all rows that
the edit script adds and deletes. -/
theorem parse_unifiedDiff {patch : List Char}
    (h : unifiedDiff before after context maxBytes = .ok (some patch)) :
    ∃ windows : List (List Row),
      patch ++ ['\n'] = patchText (windows.map hunkOf) ∧
      (∀ window ∈ windows, window <:+: scriptRows before after) ∧
      (∀ row ∈ windows.flatten, TextAt (splitLines before) (splitLines after) row) ∧
      hunksOf (parseUnifiedDiff patch) = windows.map (fun window => window.map lineOf) ∧
      tallyHunks (parseUnifiedDiff patch) =
        (windows.flatten.countP fun row => decide (row.op = .insert),
          windows.flatten.countP fun row => decide (row.op = .delete)) ∧
      ((splitLines before).length + (splitLines after).length + 2 * context < 2 ^ 64 →
        tallyHunks (parseUnifiedDiff patch) =
          ((scriptRows before after).countP fun row => decide (row.op = .insert),
            (scriptRows before after).countP fun row => decide (row.op = .delete))) := by
  obtain ⟨windows, htext, hwindows⟩ := unifiedDiff_eq h
  have hparts := windows_part hwindows
  have hrows : ∀ row ∈ windows.flatten, TextAt (splitLines before) (splitLines after) row := by
    intro row hrow
    obtain ⟨window, hwindow, hrow⟩ := List.mem_flatten.mp hrow
    exact textAt_scriptRows hwindows.ne_nil row ((hparts window hwindow).2.subset hrow)
  have hwhole : windows.map hunkOf ≠ [] := by
    intro hnil
    simp [hnil, patchText] at htext
  have hpatch : patch = ['\n'].intercalate ((windows.map hunkOf).flatMap hunkLines) := by
    rw [patchText_eq hwhole] at htext
    exact List.append_cancel_right htext
  have hsplit : patch.splitOn '\n' = (windows.map hunkOf).flatMap hunkLines := by
    rw [hpatch]
    refine List.splitOn_intercalate '\n' (fun line hline => ?_) ?_
    · obtain ⟨hunk, hhunk, hline⟩ := List.mem_flatMap.mp hline
      obtain ⟨window, hwindow, rfl⟩ := List.mem_map.mp hhunk
      refine newline_notMem_hunkLines (fun row hrow => ?_) line hline
      exact newline_notMem_text (hrows row (List.mem_flatten.mpr ⟨window, hwindow, hrow⟩))
    · cases windows with
      | nil => simp at hwhole
      | cons window windows => simp [hunkLines]
  have hhunks : hunksOf (parseUnifiedDiff patch) =
      windows.map fun window => window.map lineOf := by
    rw [hunksOf_parseUnifiedDiff, hsplit]
    refine hunksOf_blocksOf (fun window hwindow => ⟨(hparts window hwindow).1, ?_⟩) none 0
    obtain ⟨front, back, hsplit⟩ := (hparts window hwindow).2
    have hpositioned := positioned_scriptRows before after
    rw [← hsplit, List.append_assoc] at hpositioned
    exact ⟨_, _, hpositioned.right.left⟩
  have htally : tallyHunks (parseUnifiedDiff patch) =
      (windows.flatten.countP fun row => decide (row.op = .insert),
        windows.flatten.countP fun row => decide (row.op = .delete)) := by
    unfold tallyHunks
    rw [hhunks]
    refine Prod.ext (countP_lineOf windows fun row => ?_) (countP_lineOf windows fun row => ?_)
    · unfold lineOf
      cases row.op <;> simp
    · unfold lineOf
      cases row.op <;> simp
  refine ⟨windows, htext, fun window hwindow => (hparts window hwindow).2, hrows, hhunks, htally,
    fun hsize => ?_⟩
  have hcut := cut_scriptRows hsize hwindows
  have hcount : ∀ op : Op, op ≠ .equal → windows.flatten.countP (fun row => decide (row.op = op)) =
      (scriptRows before after).countP fun row => decide (row.op = op) := by
    intro op hop
    have hall := hcut.countP_eq hop
    have hflat : (windows.map hunkOf).flatMap (·.rows) = edits windows.flatten := by
      rw [List.flatMap_map, edits, List.map_flatten]
      rfl
    rwa [hflat, countP_edits, countP_edits] at hall
  rw [htally, hcount .insert (by simp), hcount .delete (by simp)]

/-- Lines that look like the start of a hunk or of a file, and like a marker. -/
theorem parse_unifiedDiff_imitations :
    unifiedDiff "--- a\n".toList "@@ -1 +1 @@\n++ b\n\\ No newline\n".toList 3 1000 =
        .ok (some "@@ -1,1 +1,3 @@\n---- a\n+@@ -1 +1 @@\n+++ b\n+\\ No newline".toList) ∧
      tallyHunks (parseUnifiedDiff
        "@@ -1,1 +1,3 @@\n---- a\n+@@ -1 +1 @@\n+++ b\n+\\ No newline".toList) = (3, 1) := by
  have h : unifiedDiff "--- a\n".toList "@@ -1 +1 @@\n++ b\n\\ No newline\n".toList 3 1000 =
      .ok (some "@@ -1,1 +1,3 @@\n---- a\n+@@ -1 +1 @@\n+++ b\n+\\ No newline".toList) := by
    decide
  obtain ⟨windows, -, -, -, -, -, htotals⟩ := parse_unifiedDiff h
  exact ⟨h, (htotals (by decide)).trans (by decide)⟩

end Diffs

end Argmax.Renderer.Diff
