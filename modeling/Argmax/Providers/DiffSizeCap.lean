import Argmax.Providers.UnifiedDiffPatch

/-!
# The size of a diff

`unified_diff` returns no diff past a number of bytes. It measures its hunks while they still
have the newline that is taken off at the end, and a diff of the final newline without one. So a
diff of hunks that has exactly that many bytes is not returned.
-/

namespace Argmax.Providers.UnifiedDiff

open Argmax.Lib Argmax.Lib.Text

/-! ## The diff without a cap -/

/-- The loop of `unified_diff` without the test of its size. -/
def renderHunks (rows : List Row) (context : ℕ) :
    List Char → List (ℕ × ℕ) → Except Panic (List Char)
  | diff, [] => .ok diff
  | diff, group :: groups => do
    let window ← window rows context group
    renderHunks rows context (diff ++ hunkText (hunkOf window)) groups

/-- The text of `final_newline_diff`. -/
def finalNewlineText (lines : List Line) (context : ℕ) : List Char :=
  let changed := lines.length - 1
  let start := changed - context
  let window := lines.drop start
  header (start + 1) window.length (start + 1) window.length ++ ['\n'] ++
    (window.dropLast.flatMap fun line => ' ' :: line ++ ['\n']) ++
    ('-' :: lines.getD changed [] ++ ['\n']) ++ '+' :: lines.getD changed []

/-- The diff, however long it is. -/
def renderedDiff (before after : List Char) (context : ℕ) : Except Panic (Option (List Char)) := do
  let old := splitLines before
  let new := splitLines after
  if old = new then
    return if before = after || old.isEmpty then none else some (finalNewlineText old context)
  let rows := rows old new
  let diff ← renderHunks rows context [] (changeGroups rows context)
  return if diff.isEmpty then none else some diff.dropLast

/-- What is returned is the diff of texts that differ, when it is within the cap. -/
def CapKept (before after : List Char) (context maxBytes : ℕ) : Prop :=
  ∀ patch, unifiedDiff before after context maxBytes = .ok (some patch) ↔
    before ≠ after ∧ renderedDiff before after context = .ok (some patch) ∧
      byteLength patch ≤ maxBytes

/-! ## The two paths -/

theorem finalNewlineDiff_eq_some {lines : List Line} {before after patch : List Char}
    {context maxBytes : ℕ} :
    finalNewlineDiff lines before after context maxBytes = some patch ↔
      (before = after || lines.isEmpty) = false ∧ patch = finalNewlineText lines context ∧
        byteLength patch ≤ maxBytes := by
  have hunfold : finalNewlineDiff lines before after context maxBytes =
      if before = after || lines.isEmpty then none
      else if byteLength (finalNewlineText lines context) ≤ maxBytes then
        some (finalNewlineText lines context)
      else none := rfl
  rw [hunfold]
  cases hnone : decide (before = after) || lines.isEmpty with
  | true => simp
  | false =>
    by_cases hfits : byteLength (finalNewlineText lines context) ≤ maxBytes
    · simp only [hfits, if_true, Bool.false_eq_true, if_false, Option.some.injEq, true_and]
      constructor
      · rintro rfl
        exact ⟨rfl, hfits⟩
      · exact fun h => h.1.symm
    · simp only [hfits, if_false, reduceCtorEq, true_and, false_iff]
      rintro ⟨rfl, hle⟩
      exact hfits hle

section Hunks

variable {rows : List Row} {context maxBytes : ℕ}

/-- The text grows. -/
theorem byteLength_renderHunks {groups : List (ℕ × ℕ)} {diff text : List Char}
    (h : renderHunks rows context diff groups = .ok text) : byteLength diff ≤ byteLength text := by
  induction groups generalizing diff with
  | nil =>
    cases h
    exact Nat.le_refl _
  | cons group groups ih =>
    rw [renderHunks] at h
    cases hwindow : window rows context group with
    | error panic =>
      rw [hwindow] at h
      cases h
    | ok taken =>
      rw [hwindow] at h
      have hle := ih h
      rw [byteLength_append] at hle
      omega

/-- The loop comes to its end with a text that is never too long. -/
theorem writeHunks_eq_some {groups : List (ℕ × ℕ)} {diff text : List Char}
    (hdiff : byteLength diff ≤ maxBytes) :
    writeHunks rows context maxBytes diff groups = .ok (some text) ↔
      renderHunks rows context diff groups = .ok text ∧ byteLength text ≤ maxBytes := by
  induction groups generalizing diff with
  | nil =>
    simp only [writeHunks, renderHunks, Except.ok.injEq, Option.some.injEq]
    constructor
    · rintro rfl
      exact ⟨rfl, hdiff⟩
    · exact fun h => h.1
  | cons group groups ih =>
    rw [writeHunks, renderHunks]
    cases hwindow : window rows context group with
    | error panic => simp [bind, Except.bind]
    | ok taken =>
      change (if maxBytes < byteLength (diff ++ hunkText (hunkOf taken)) then .ok none
        else writeHunks rows context maxBytes (diff ++ hunkText (hunkOf taken)) groups) =
          Except.ok (some text) ↔
        renderHunks rows context (diff ++ hunkText (hunkOf taken)) groups = .ok text ∧ _
      by_cases hlong : maxBytes < byteLength (diff ++ hunkText (hunkOf taken))
      · simp only [hlong, if_true, Except.ok.injEq, reduceCtorEq, false_iff]
        rintro ⟨hrest, hle⟩
        have hgrows := byteLength_renderHunks hrest
        omega
      · rw [if_neg hlong]
        exact ih (by omega)

theorem byteLength_newline (text : List Char) :
    byteLength (text ++ ['\n']) = byteLength text + 1 := by
  rw [byteLength_append]
  rfl

/-- A hunk ends with a newline. -/
theorem hunkText_newline (hunk : Hunk Line) : ∃ front, hunkText hunk = front ++ ['\n'] := by
  obtain hrows | ⟨rows, row, hrows⟩ := List.eq_nil_or_concat hunk.rows
  · exact ⟨header hunk.oldStart hunk.oldCount hunk.newStart hunk.newCount, by
      simp [hunkText, hrows]⟩
  · exact ⟨header hunk.oldStart hunk.oldCount hunk.newStart hunk.newCount ++ ['\n'] ++
      rows.flatMap (fun row => rowLine row ++ ['\n']) ++ rowLine row, by
        simp [hunkText, hrows]⟩

/-- So does a text of hunks. -/
theorem renderHunks_newline {groups : List (ℕ × ℕ)} {diff text : List Char}
    (h : renderHunks rows context diff groups = .ok text) :
    (groups = [] ∧ text = diff) ∨ ∃ front, text = front ++ ['\n'] := by
  induction groups generalizing diff with
  | nil =>
    cases h
    exact .inl ⟨rfl, rfl⟩
  | cons group groups ih =>
    rw [renderHunks] at h
    cases hwindow : window rows context group with
    | error panic =>
      rw [hwindow] at h
      cases h
    | ok taken =>
      rw [hwindow] at h
      obtain ⟨-, rfl⟩ | hnewline := ih h
      · obtain ⟨front, hfront⟩ := hunkText_newline (hunkOf taken)
        exact .inr ⟨diff ++ front, by rw [hfront, List.append_assoc]⟩
      · exact .inr hnewline

end Hunks

section Paths

variable {before after : List Char} {context maxBytes : ℕ}

/-- A diff of hunks is a text without its last newline, which is one byte. -/
theorem renderedDiff_of_ne {patch : List Char} (hne : splitLines before ≠ splitLines after) :
    renderedDiff before after context = .ok (some patch) ↔
      renderHunks (rows (splitLines before) (splitLines after)) context []
        (changeGroups (rows (splitLines before) (splitLines after)) context) =
          .ok (patch ++ ['\n']) := by
  rw [renderedDiff]
  simp only [hne]
  cases hrender : renderHunks (rows (splitLines before) (splitLines after)) context []
      (changeGroups (rows (splitLines before) (splitLines after)) context) with
  | error panic => simp
  | ok text =>
    obtain ⟨-, rfl⟩ | ⟨front, rfl⟩ := renderHunks_newline hrender
    · simp
    · simp

theorem unifiedDiff_of_ne {patch : List Char} (hne : splitLines before ≠ splitLines after) :
    unifiedDiff before after context maxBytes = .ok (some patch) ↔
      renderedDiff before after context = .ok (some patch) ∧ byteLength patch + 1 ≤ maxBytes := by
  rw [renderedDiff_of_ne hne]
  rw [unifiedDiff, if_neg hne]
  dsimp only
  generalize rows (splitLines before) (splitLines after) = rows
  generalize changeGroups rows context = groups
  have hwrite : ∀ text, writeHunks rows context maxBytes [] groups = .ok (some text) ↔
      renderHunks rows context [] groups = .ok text ∧ byteLength text ≤ maxBytes :=
    fun text => writeHunks_eq_some (Nat.zero_le maxBytes)
  constructor
  · intro h
    cases hresult : writeHunks rows context maxBytes [] groups with
    | error panic => simp [hresult, bind, Except.bind] at h
    | ok result =>
      cases result with
      | none => simp [hresult, bind, Except.bind, pure, Except.pure] at h
      | some text =>
        obtain ⟨hrender, hle⟩ := (hwrite text).mp hresult
        simp only [hresult, bind, Except.bind, pure, Except.pure, Except.ok.injEq] at h
        obtain ⟨-, rfl⟩ | ⟨front, rfl⟩ := renderHunks_newline hrender
        · simp at h
        · simp only [List.isEmpty_iff, List.append_eq_nil_iff, List.cons_ne_nil, and_false,
            if_false, List.dropLast_concat, Option.some.injEq] at h
          subst h
          rw [byteLength_newline] at hle
          exact ⟨hrender, hle⟩
  · rintro ⟨hrender, hle⟩
    have hresult := (hwrite (patch ++ ['\n'])).mpr ⟨hrender, byteLength_newline patch ▸ hle⟩
    simp [hresult, bind, Except.bind, pure, Except.pure]

/-- A diff of the final newline is measured as it is returned. -/
theorem unifiedDiff_of_eq {patch : List Char} (heq : splitLines before = splitLines after) :
    unifiedDiff before after context maxBytes = .ok (some patch) ↔
      renderedDiff before after context = .ok (some patch) ∧ byteLength patch ≤ maxBytes := by
  have hunified : unifiedDiff before after context maxBytes =
      .ok (finalNewlineDiff (splitLines before) before after context maxBytes) := by
    rw [unifiedDiff]
    simp only [heq]
    rfl
  have hrendered : renderedDiff before after context =
      .ok (if before = after || (splitLines before).isEmpty then none
        else some (finalNewlineText (splitLines before) context)) := by
    rw [renderedDiff]
    simp only [heq]
    rfl
  rw [hunified, hrendered, Except.ok.injEq, finalNewlineDiff_eq_some]
  cases hnone : decide (before = after) || (splitLines before).isEmpty with
  | true => simp
  | false => simp [eq_comm]

end Paths

/-! ## The cap -/

/-- **When the cap is kept.** The diff is one of the final newline, or it is not exactly as long
as it may be. -/
theorem capKept_iff (before after : List Char) (context maxBytes : ℕ) :
    CapKept before after context maxBytes ↔
      (splitLines before ≠ splitLines after → ∀ patch,
        renderedDiff before after context = .ok (some patch) → byteLength patch ≠ maxBytes) := by
  by_cases heq : splitLines before = splitLines after
  · simp only [heq, ne_eq, not_true_eq_false, false_implies, iff_true]
    intro patch
    rw [unifiedDiff_of_eq heq]
    refine ⟨fun h => ⟨?_, h⟩, fun h => h.2⟩
    rintro rfl
    simp [renderedDiff, pure, Except.pure] at h
  · have hdiffer : before ≠ after := fun h => heq (congrArg splitLines h)
    simp only [CapKept, unifiedDiff_of_ne heq, ne_eq, heq, not_false_eq_true, true_implies,
      hdiffer, true_and]
    refine forall_congr' fun patch => ?_
    constructor
    · intro h hrender hlength
      have hle := (h.mpr ⟨hrender, hlength.le⟩).2
      omega
    · intro h
      refine and_congr_right fun hrender => ?_
      have hlength := h hrender
      omega

/-- One line is replaced by another one, and the diff has the 21 bytes that it may have. -/
theorem unifiedDiff_at_cap : ¬ CapKept "a\n".toList "b\n".toList 3 21 := by
  intro h
  have hpatch := (h "@@ -1,1 +1,1 @@\n-a\n+b".toList).mpr (by decide)
  exact absurd hpatch (by decide)

end Argmax.Providers.UnifiedDiff
