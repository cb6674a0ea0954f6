import Argmax.Lib.Parts
import Argmax.Review.StatusParsers
import Mathlib.Algebra.Group.Nat.Defs
import Mathlib.Algebra.Group.Prod

/-!
# The counts of an untracked file

`review/git_review.rs`: git does not diff an untracked file, so a diff is made up for it, is cut at
the cap and is counted by the first characters of its lines. A line of the file that begins with
two plus signs reads as a header there, lines behind the cut are not seen, an empty file has one
empty line, and a name with line feeds brings lines of its own.
-/

namespace Argmax.Review

open Argmax.Lib Argmax.Lib.Text Argmax.Lib.Utf8 Argmax.Providers

/-! ## The diff -/

def perFileDiffCapBytes : ℕ := 1048576

/-- The envelope of a diff in front of its body. -/
def envelope (filePath mode hunkHeader : List Char) : List Char :=
  joinLines ["diff --git a/".toList ++ filePath ++ " b/".toList ++ filePath,
    "new file mode ".toList ++ mode, "index 0000000..0000000".toList, "--- /dev/null".toList,
    "+++ b/".toList ++ filePath, hunkHeader]

def untrackedDiff (filePath mode hunkHeader body : List Char) : List Char :=
  envelope filePath mode hunkHeader ++ '\n' :: body

def noNewlineMarker : List Char := '\n' :: "\\ No newline at end of file".toList

/-- The lines of a file. What follows the last line feed is one, if there is anything. -/
def fileLines (content : List Char) : List (List Char) :=
  if content.getLast? = some '\n' then (content.splitOn '\n').dropLast else content.splitOn '\n'

def textHunkHeader (lineCount : ℕ) : List Char :=
  "@@ -0,0 +1,".toList ++ Nat.toDigits 10 lineCount ++ " @@".toList

/-- Lines that are added, with what follows the last one. -/
def addedBody (ls : List (List Char)) (marker : List Char) : List Char :=
  joinLines (ls.map ('+' :: ·)) ++ marker

def synthesizeUntrackedTextDiff (filePath content : List Char) : List Char :=
  untrackedDiff filePath "100644".toList (textHunkHeader (fileLines content).length)
    (addedBody (fileLines content) (if content.getLast? = some '\n' then [] else noNewlineMarker))

def oneLineHunkHeader : List Char := "@@ -0,0 +1 @@".toList

def skippedLine (sizeBytes : ℕ) (reason : String) : List Char :=
  "[untracked file not loaded: ".toList ++ reason.toList ++ "; size ".toList ++
    Nat.toDigits 10 sizeBytes ++ " bytes]".toList

def synthesizeSkippedUntrackedDiff (filePath : List Char) (sizeBytes : ℕ) (reason : String) :
    List Char :=
  untrackedDiff filePath "100644".toList oneLineHunkHeader
    (addedBody [skippedLine sizeBytes reason] noNewlineMarker)

/-- What stands under an untracked path. -/
inductive Entry where
  | symlink (target : List Char)
  | directory
  | file (bytes : List UInt8)

def synthesizeUntrackedDiff (filePath : List Char) : Entry → List Char
  | .symlink target =>
    untrackedDiff filePath "120000".toList oneLineHunkHeader (addedBody [target] noNewlineMarker)
  | .directory => []
  | .file bytes =>
    if perFileDiffCapBytes < bytes.length then
      synthesizeSkippedUntrackedDiff filePath bytes.length "file exceeds diff preview cap"
    else
      match (fromUtf8 bytes).filter fun content => !content.contains '\x00' with
      | some content => synthesizeUntrackedTextDiff filePath content
      | none => synthesizeSkippedUntrackedDiff filePath bytes.length "binary file skipped"

/-- The characters of a text that are whole within some bytes. -/
def takeBytes : ℕ → List Char → List Char
  | _, [] => []
  | n, c :: text => if c.utf8Size ≤ n then c :: takeBytes (n - c.utf8Size) text else []

def capDiff (content : List Char) : List Char :=
  if byteLength content ≤ perFileDiffCapBytes then content
  else
    let kept := takeBytes perFileDiffCapBytes content
    kept ++ '\n' :: ("[diff truncated at ".toList ++ Nat.toDigits 10 (byteLength kept) ++
      " bytes; dropped ".toList ++ Nat.toDigits 10 (byteLength content - byteLength kept) ++
        " bytes]".toList) ++ ['\n']

/-- One turn of the loop over the lines. -/
def countLine (counts : ℕ × ℕ) (line : List Char) : ℕ × ℕ :=
  if startsWith line "+++" || startsWith line "---" then counts
  else if startsWith line "+" then (counts.1 + 1, counts.2)
  else if startsWith line "-" then (counts.1, counts.2 + 1)
  else counts

/-- The additions and the deletions of a diff. -/
def countDiffLines (content : List Char) : ℕ × ℕ := (lines content).foldl countLine (0, 0)

/-- `load_file_summaries`, for an untracked file. -/
def untrackedCounts (filePath : List Char) (entry : Entry) : ℕ × ℕ :=
  countDiffLines (capDiff (synthesizeUntrackedDiff filePath entry))

/-! ## Counting -/

/-- What a line counts for. -/
def marks (line : List Char) : ℕ × ℕ := countLine (0, 0) line

theorem marks_cons {c : Char} (h : c ≠ '+' ∧ c ≠ '-') (rest : List Char) :
    marks (c :: rest) = 0 := by
  simp [marks, countLine, startsWith, h.1.symm, h.2.symm]

theorem marks_plus (line : List Char) :
    marks ('+' :: line) = if startsWith line "++" then 0 else (1, 0) := by
  cases h : startsWith line "++" <;> simp_all [marks, countLine, startsWith]

/-- Only signs at the beginning matter. -/
theorem marks_append {c : Char} (h : c ≠ '+' ∧ c ≠ '-') (line rest : List Char) :
    marks (line ++ c :: rest) = marks line := by
  rcases line with - | ⟨x, - | ⟨y, - | ⟨z, line⟩⟩⟩ <;>
    simp [marks, countLine, startsWith, h.1.symm, h.2.symm]

theorem countDiffLines_eq (text : List Char) :
    countDiffLines text = ((segments (· == '\n') text).map marks).sum := by
  have hfold : ∀ (ls : List (List Char)) (counts : ℕ × ℕ),
      ls.foldl countLine counts = counts + (ls.map marks).sum := by
    intro ls
    induction ls with
    | nil => simp
    | cons line ls ih =>
      intro counts
      have hline : countLine counts line = counts + marks line := by
        simp only [marks, countLine]
        split_ifs <;> simp [Prod.ext_iff]
      rw [List.foldl_cons, ih, hline, List.map_cons, List.sum_cons, add_assoc]
  rw [countDiffLines, hfold, lines, List.map_map]
  have hzero : ((0, 0) : ℕ × ℕ) = 0 := rfl
  rw [hzero, zero_add]
  congr 1
  refine List.map_congr_left fun segment _ => ?_
  -- a line without its end has the same signs
  have hdrop : ∀ {c : Char} {line : List Char}, c ≠ '+' ∧ c ≠ '-' → line.getLast? = some c →
      marks line.dropLast = marks line := by
    intro c line hc hlast
    rw [← List.dropLast_append_getLast? c hlast, List.dropLast_concat, marks_append hc]
  dsimp only [Function.comp_apply]
  split_ifs with hfeed hreturn
  · rw [hdrop (by decide) hreturn, hdrop (by decide) hfeed]
  · exact hdrop (by decide) hfeed
  · rfl

theorem feed_ne {line : List Char} (h : '\n' ∉ line) : ∀ c ∈ line, c ≠ '\n' := by
  rintro c hc rfl
  exact h hc

theorem countDiffLines_open {line : List Char} (h : '\n' ∉ line) :
    countDiffLines line = marks line := by
  cases line with
  | nil => rfl
  | cons c line =>
    rw [countDiffLines_eq, segments_of_open (by simpa using feed_ne h) (by simp)]
    simp

theorem countDiffLines_line {line : List Char} (h : '\n' ∉ line) (rest : List Char) :
    countDiffLines (line ++ '\n' :: rest) = marks line + countDiffLines rest := by
  have hclosed : Closed (· == '\n') (line ++ ['\n']) := by simp [Closed]
  have hline : segments (· == '\n') (line ++ ['\n']) = [line ++ ['\n']] :=
    segments_eq_singleton (by simpa using feed_ne h) (by simp)
  rw [countDiffLines_eq, countDiffLines_eq, List.append_cons, segments_append hclosed, hline]
  simp [marks_append]

/-- A text is a line or begins with one. -/
theorem line_induction {P : List Char → Prop} (last : ∀ line, '\n' ∉ line → P line)
    (cons : ∀ line rest, '\n' ∉ line → P rest → P (line ++ '\n' :: rest)) (text : List Char) :
    P text := by
  induction hn : text.length using Nat.strong_induction_on generalizing text with
  | _ n ih =>
    by_cases hfeed : '\n' ∈ text
    · obtain ⟨line, rest, rfl, hline⟩ := List.eq_append_cons_of_mem hfeed
      exact cons line rest hline (ih rest.length (by simp at hn; omega) rest rfl)
    · exact last text hfeed

/-- Texts are counted line by line. -/
theorem countDiffLines_append (text rest : List Char) :
    countDiffLines (text ++ '\n' :: rest) = countDiffLines text + countDiffLines rest := by
  induction text using line_induction with
  | last line h => rw [countDiffLines_line h, countDiffLines_open h]
  | cons line text h ih =>
    rw [List.append_assoc, List.cons_append, countDiffLines_line h, countDiffLines_line h, ih,
      add_assoc]

/-- What follows a text in its last line does not matter. -/
theorem countDiffLines_blank (text : List Char) {rest : List Char} (hrest : '\n' ∉ rest) :
    countDiffLines (text ++ ' ' :: rest) = countDiffLines text := by
  induction text using line_induction with
  | last line h =>
    rw [countDiffLines_open h, countDiffLines_open (by simp [h, hrest]), marks_append (by decide)]
  | cons line text h ih =>
    rw [List.append_assoc, List.cons_append, countDiffLines_line h, countDiffLines_line h, ih]

/-! ## The envelope -/

/-- The lines of a name behind its first one. -/
def laterLines (filePath : List Char) : List Char := (filePath.dropWhile (· != '\n')).tail

theorem laterLines_open {filePath : List Char} (h : '\n' ∉ filePath) : laterLines filePath = [] := by
  have hnil : filePath.dropWhile (· != '\n') = [] := by
    simpa [List.dropWhile_eq_nil_iff] using feed_ne h
  simp [laterLines, hnil]

theorem laterLines_line {line : List Char} (h : '\n' ∉ line) (rest : List Char) :
    laterLines (line ++ '\n' :: rest) = rest := by
  have hline : ∀ c ∈ line, (c != '\n') = true := by simpa using feed_ne h
  simp [laterLines, List.dropWhile_append_of_pos hline]

theorem envelope_eq (filePath mode hunkHeader : List Char) :
    envelope filePath mode hunkHeader =
      ("diff --git a/".toList ++ filePath ++ " b/".toList ++ filePath) ++ '\n' ::
        (("new file mode ".toList ++ mode) ++ '\n' :: ("index 0000000..0000000".toList ++ '\n' ::
          ("--- /dev/null".toList ++ '\n' :: (("+++ b/".toList ++ filePath) ++ '\n' ::
            hunkHeader)))) := by
  simp [envelope, joinLines, List.intercalate]

/-- The later lines of a name stand in the envelope three times. -/
theorem countDiffLines_envelope (filePath : List Char) {mode hunkHeader : List Char}
    (hmode : '\n' ∉ mode) (hhunk : '\n' ∉ hunkHeader) (hmarks : marks hunkHeader = 0) :
    countDiffLines (envelope filePath mode hunkHeader) =
      countDiffLines (laterLines filePath) + countDiffLines (laterLines filePath) +
        countDiffLines (laterLines filePath) := by
  have hnew : countDiffLines ("new file mode ".toList ++ mode) = 0 := by
    rw [countDiffLines_open (by simp [hmode])]
    exact marks_cons (by decide) _
  have hindex : countDiffLines "index 0000000..0000000".toList = 0 := by rfl
  have hold : countDiffLines "--- /dev/null".toList = 0 := by rfl
  have hhunk' : countDiffLines hunkHeader = 0 := by rw [countDiffLines_open hhunk, hmarks]
  have hplus : ∀ rest : List Char, marks ("+++ b/".toList ++ rest) = 0 := fun rest => rfl
  have hdiff : ∀ rest : List Char, marks ("diff --git a/".toList ++ rest) = 0 :=
    fun rest => marks_cons (by decide) _
  rw [envelope_eq, countDiffLines_append, countDiffLines_append, countDiffLines_append,
    countDiffLines_append, countDiffLines_append, hnew, hindex, hold, hhunk']
  by_cases hfeed : '\n' ∈ filePath
  · obtain ⟨line, rest, rfl, hline⟩ := List.eq_append_cons_of_mem hfeed
    have hfirst : "diff --git a/".toList ++ (line ++ '\n' :: rest) ++ " b/".toList ++
        (line ++ '\n' :: rest) = ("diff --git a/".toList ++ line) ++ '\n' ::
          ((rest ++ ' ' :: ("b/".toList ++ line)) ++ '\n' :: rest) := by simp
    rw [hfirst, laterLines_line hline, countDiffLines_line (by simp [hline]), hdiff,
      countDiffLines_append, countDiffLines_blank rest (by simp [hline]), ← List.append_assoc,
      countDiffLines_line (by simp [hline]), hplus]
    simp
  · rw [laterLines_open hfeed, countDiffLines_open (by simp [hfeed]),
      countDiffLines_open (by simp [hfeed])]
    rfl

/-! ## The cut -/

section Cut

variable {n b : ℕ} {text line rest : List Char}

@[simp] theorem takeBytes_zero (text : List Char) : takeBytes 0 text = [] := by
  cases text with
  | nil => rfl
  | cons c text =>
    have := c.utf8Size_pos
    rw [takeBytes, if_neg (by omega)]

theorem takeBytes_append (h : byteLength text ≤ n) (rest : List Char) :
    takeBytes n (text ++ rest) = text ++ takeBytes (n - byteLength text) rest := by
  induction text generalizing n with
  | nil => rfl
  | cons c text ih =>
    rw [byteLength_cons] at h
    rw [List.cons_append, takeBytes, if_pos (by omega), ih (by omega), byteLength_cons,
      ← Nat.sub_sub, List.cons_append]

theorem takeBytes_of_le (h : byteLength text ≤ n) : takeBytes n text = text := by
  have := takeBytes_append h []
  simpa [takeBytes] using this

theorem prefix_takeBytes (n : ℕ) (text : List Char) : takeBytes n text <+: text := by
  induction text generalizing n with
  | nil => simp [takeBytes]
  | cons c text ih =>
    rw [takeBytes]
    split
    · exact List.prefix_cons_inj c |>.mpr (ih _)
    · simp

/-- A cut inside of a line. -/
theorem takeBytes_line (h : n < byteLength line + 1) (rest : List Char) :
    takeBytes n (line ++ '\n' :: rest) = takeBytes n line := by
  induction line generalizing n with
  | nil =>
    have : n = 0 := by simpa using h
    simp [this]
  | cons c line ih =>
    rw [byteLength_cons] at h
    rw [List.cons_append, takeBytes, takeBytes]
    split
    · rw [ih (by omega)]
    · rfl

theorem startsWith_takeBytes (n : ℕ) (line : List Char) :
    startsWith (takeBytes n line) "++" = (startsWith line "++" && decide (2 ≤ n)) := by
  have hplus : ∀ text : List Char, startsWith text "++" = ['+', '+'].isPrefixOf text :=
    fun _ => rfl
  have hsize : ('+' : Char).utf8Size = 1 := rfl
  by_cases h : startsWith line "++" = true
  · obtain ⟨rest, rfl⟩ := List.isPrefixOf_iff_prefix.mp ((hplus line).symm.trans h)
    rcases n with - | - | n <;> simp [hplus, takeBytes, hsize]
  · rw [Bool.not_eq_true] at h
    rw [h, Bool.false_and, ← Bool.not_eq_true, hplus, List.isPrefixOf_iff_prefix]
    intro hcut
    rw [hplus, ← Bool.not_eq_true, List.isPrefixOf_iff_prefix] at h
    exact h (hcut.trans (prefix_takeBytes n line))

/-- A cut diff is counted up to the cut. -/
theorem countDiffLines_capDiff (content : List Char) :
    countDiffLines (capDiff content) = countDiffLines (takeBytes perFileDiffCapBytes content) := by
  rw [capDiff]
  split
  · rw [takeBytes_of_le ‹_›]
  · dsimp only
    rw [List.append_assoc, List.cons_append, countDiffLines_append, countDiffLines_line]
    · simp only [List.append_assoc]
      rfl
    · simp [@notMem_toDigits '\n' rfl]

/-! ## The body -/

/-- How many lines a cut hides or that imitate a header in front of it. A line takes its sign and
its line feed besides its own bytes. -/
def missed : ℕ → List (List Char) → ℕ
  | _, [] => 0
  | b, line :: ls =>
    (if b = 0 ∨ startsWith line "++" = true ∧ 3 ≤ b then 1 else 0) +
      missed (b - (byteLength line + 2)) ls

/-- A line is counted or missed. -/
theorem count_take_line (hline : '\n' ∉ line) (b : ℕ) (rest : List Char) :
    countDiffLines (takeBytes b ('+' :: line ++ '\n' :: rest)) +
        (if b = 0 ∨ startsWith line "++" = true ∧ 3 ≤ b then (1, 0) else 0) =
      (1, 0) + countDiffLines (takeBytes (b - (byteLength line + 2)) rest) := by
  have hsize : ('+' : Char).utf8Size = 1 := rfl
  have hfeed : byteLength ('+' :: line) = byteLength line + 1 := by simp [hsize, Nat.add_comm]
  have hopen : '\n' ∉ '+' :: line := by simp [hline]
  by_cases hfit : byteLength line + 2 ≤ b
  · have hthree : startsWith line "++" = true → 3 ≤ b := by
      intro h
      obtain ⟨after, rfl⟩ := List.isPrefixOf_iff_prefix.mp h
      simp only [byteLength_append] at hfit
      have : byteLength "++".toList = 2 := by decide
      omega
    have hend : ('\n' : Char).utf8Size = 1 := rfl
    have hrest : b - byteLength ('+' :: line) - ('\n' : Char).utf8Size =
        b - (byteLength line + 2) := by omega
    rw [takeBytes_append (by omega), takeBytes, if_pos (by omega), hrest,
      countDiffLines_line hopen, marks_plus]
    by_cases hstarts : startsWith line "++" = true
    · simp [hstarts, hthree hstarts, add_comm]
    · simp [hstarts, show b ≠ 0 by omega]
  · have htail : b - (byteLength line + 2) = 0 := by omega
    rw [takeBytes_line (by omega), htail]
    rcases b with - | b
    · simp [countDiffLines, lines]
    · have hcut : takeBytes (b + 1) ('+' :: line) = '+' :: takeBytes b line := by
        simp [takeBytes, hsize]
      have hshown : '\n' ∉ takeBytes b line :=
        fun hmem => hline ((prefix_takeBytes b line).subset hmem)
      rw [hcut, countDiffLines_open (by simp [hshown]), marks_plus, startsWith_takeBytes]
      by_cases hstarts : startsWith line "++" = true <;> by_cases htwo : 2 ≤ b <;>
        simp [hstarts, htwo, countDiffLines, lines]

/-- The marker is no line of the file. -/
theorem count_take_marker (n : ℕ) :
    countDiffLines (takeBytes n "\\ No newline at end of file".toList) = 0 := by
  have hopen : '\n' ∉ takeBytes n "\\ No newline at end of file".toList :=
    fun hmem => absurd ((prefix_takeBytes n _).subset hmem) (by decide)
  rw [countDiffLines_open hopen]
  rcases hcut : takeBytes n "\\ No newline at end of file".toList with - | ⟨c, shown⟩
  · rfl
  · obtain ⟨rest, hrest⟩ := hcut ▸ prefix_takeBytes n "\\ No newline at end of file".toList
    obtain rfl : c = '\\' := (List.cons.inj hrest).1
    exact marks_cons (by decide) _

/-- A line feed at the end does not matter. -/
theorem count_take_feed (hline : '\n' ∉ line) (n : ℕ) :
    countDiffLines (takeBytes n (line ++ ['\n'])) = countDiffLines (takeBytes n line) := by
  by_cases hfit : n < byteLength line + 1
  · rw [takeBytes_line hfit]
  · have hend : byteLength ['\n'] = 1 := rfl
    have hfull : byteLength (line ++ ['\n']) ≤ n := by rw [byteLength_append]; omega
    rw [takeBytes_of_le hfull, takeBytes_of_le (by omega), countDiffLines_line hline,
      countDiffLines_open hline]
    rfl

/-- **What is counted and what is missed** are all of the lines. -/
theorem count_take_body {ls : List (List Char)} (hne : ls ≠ []) (hls : ∀ l ∈ ls, '\n' ∉ l)
    {marker : List Char} (hmarker : marker = [] ∨ marker = noNewlineMarker) (b : ℕ) :
    countDiffLines (takeBytes b (addedBody ls marker)) + (missed b ls, 0) = (ls.length, 0) := by
  induction ls generalizing b with
  | nil => exact absurd rfl hne
  | cons line ls ih =>
    rw [List.forall_mem_cons] at hls
    -- the rest of the lines, or the marker, stands behind a line feed
    have hcount : ∀ rest : List Char,
        countDiffLines (takeBytes (b - (byteLength line + 2)) rest) +
          (missed (b - (byteLength line + 2)) ls, 0) = (ls.length, 0) →
        countDiffLines (takeBytes b ('+' :: line ++ '\n' :: rest)) + (missed b (line :: ls), 0) =
          ((line :: ls).length, 0) := by
      intro rest hrest
      have hline := count_take_line hls.1 b rest
      rw [Prod.ext_iff] at hline hrest ⊢
      simp only [missed] at hline hrest ⊢
      split_ifs at hline ⊢ <;> simp_all <;> omega
    cases ls with
    | cons next ls =>
      have hbody : addedBody (line :: next :: ls) marker =
          '+' :: line ++ '\n' :: addedBody (next :: ls) marker := by
        simp [addedBody, joinLines]
      rw [hbody]
      exact hcount _ (ih (by simp) hls.2 _)
    | nil =>
      rcases hmarker with rfl | rfl
      · have hempty := hcount [] (by simp [takeBytes, missed, countDiffLines, lines])
        have hbody : addedBody [line] [] = '+' :: line := by simp [addedBody, joinLines]
        rwa [count_take_feed (by simp [hls.1]), ← hbody] at hempty
      · have hbody : addedBody [line] noNewlineMarker = '+' :: line ++ noNewlineMarker := by
          simp [addedBody, joinLines]
        rw [hbody]
        refine hcount "\\ No newline at end of file".toList ?_
        rw [count_take_marker]
        rfl

end Cut

/-! ## When the counts are right -/

/-- How many lines a text has. -/
def lineCount (content : List Char) : ℕ :=
  content.count '\n' + if content.getLast?.any (· != '\n') then 1 else 0

/-- An empty file has one line here. -/
theorem length_fileLines (content : List Char) :
    (fileLines content).length = if content = [] then 1 else lineCount content := by
  have hsplit : ∀ text : List Char, (text.splitOn '\n').length = text.count '\n' + 1 := by
    intro text
    induction text with
    | nil => rfl
    | cons c text ih =>
      rw [List.splitOn_eq_splitOnP, List.splitOnP_cons_eq_if_modifyHead, ← List.splitOn_eq_splitOnP]
      split <;> simp_all
  by_cases hnil : content = []
  · simp [hnil, fileLines]
  · have hlast := List.getLast?_eq_some_getLast hnil
    rw [if_neg hnil, fileLines, lineCount, hlast]
    by_cases hfeed : content.getLast hnil = '\n'
    · rw [if_pos (by rw [hfeed]), List.length_dropLast, hsplit]
      simp [hfeed]
    · rw [if_neg (by simpa using hfeed), hsplit]
      simp [hfeed]

theorem fileLines_ne_nil (content : List Char) : fileLines content ≠ [] := by
  rw [fileLines]
  split_ifs with hfeed
  · have hmem : '\n' ∈ content := List.mem_of_getLast? hfeed
    intro hnil
    have hlength := length_fileLines content
    have hpos : 0 < content.count '\n' := List.count_pos_iff.mpr hmem
    rw [fileLines, if_pos hfeed, hnil, if_neg (List.ne_nil_of_mem hmem), lineCount] at hlength
    simp at hlength
    omega
  · exact List.splitOnP_ne_nil _ _

theorem feed_notMem_fileLines (content : List Char) : ∀ l ∈ fileLines content, '\n' ∉ l := by
  intro l hl hfeed
  have hmem : l ∈ content.splitOn '\n' := by
    rw [fileLines] at hl
    split_ifs at hl
    · exact List.mem_of_mem_dropLast hl
    · exact hl
  simpa using Parts.not_of_mem_splitOnP hmem _ hfeed

/-- The path of a file that the system opens is short. -/
structure UntrackedPath extends Path where
  short : byteLength text < 4096

section Counts

variable (path : UntrackedPath) (mode hunkHeader : List Char)

/-- The bytes that the cap leaves for the lines. -/
def room : ℕ := perFileDiffCapBytes - (byteLength (envelope path.text mode hunkHeader) + 1)

/-- The counts that the later lines of the name bring. -/
def named : ℕ × ℕ := countDiffLines (laterLines path.text)

theorem byteLength_envelope :
    byteLength (envelope path.text mode hunkHeader) =
      3 * byteLength path.text + byteLength mode + byteLength hunkHeader + 76 := by
  have hdiff : byteLength "diff --git a/".toList = 13 := by decide
  have hname : byteLength " b/".toList = 3 := by decide
  have hnew : byteLength "new file mode ".toList = 14 := by decide
  have hindex : byteLength "index 0000000..0000000".toList = 22 := by decide
  have hold : byteLength "--- /dev/null".toList = 13 := by decide
  have hplus : byteLength "+++ b/".toList = 6 := by decide
  have hend : ('\n' : Char).utf8Size = 1 := rfl
  rw [envelope_eq]
  simp only [byteLength_append, byteLength_cons]
  omega

variable {mode hunkHeader}

theorem room_ne_zero (hshort : byteLength mode ≤ 6) (hsize : byteLength hunkHeader ≤ 30) :
    room path mode hunkHeader ≠ 0 := by
  have hpath := path.short
  rw [room, byteLength_envelope, perFileDiffCapBytes]
  omega

/-- **The counts of a made-up diff** are those of its name and of its lines, up to what is
missed. -/
theorem counts_untrackedDiff (hmode : '\n' ∉ mode) (hshort : byteLength mode ≤ 6)
    (hhunk : '\n' ∉ hunkHeader) (hmarks : marks hunkHeader = 0) (hsize : byteLength hunkHeader ≤ 30)
    {ls : List (List Char)} (hne : ls ≠ []) (hls : ∀ l ∈ ls, '\n' ∉ l)
    {marker : List Char} (hmarker : marker = [] ∨ marker = noNewlineMarker) :
    countDiffLines (capDiff (untrackedDiff path.text mode hunkHeader (addedBody ls marker))) +
        (missed (room path mode hunkHeader) ls, 0) =
      named path + named path + named path + (ls.length, 0) := by
  have henvelope := byteLength_envelope path mode hunkHeader
  have hpath := path.short
  have hcap : perFileDiffCapBytes = 1048576 := rfl
  have hend : ('\n' : Char).utf8Size = 1 := rfl
  have hroom : perFileDiffCapBytes - byteLength (envelope path.text mode hunkHeader) -
      ('\n' : Char).utf8Size = room path mode hunkHeader := by
    rw [room, hend, Nat.sub_sub]
  rw [countDiffLines_capDiff, untrackedDiff, takeBytes_append (by omega), takeBytes,
    if_pos (by omega), hroom, countDiffLines_append,
    countDiffLines_envelope path.text hmode hhunk hmarks, add_assoc,
    count_take_body hne hls hmarker]
  rfl

/-- A file that is not loaded has one line. -/
theorem counts_skipped (sizeBytes : ℕ) (reason : String) :
    '\n' ∉ reason.toList → countDiffLines (capDiff
      (synthesizeSkippedUntrackedDiff path.text sizeBytes reason)) =
      named path + named path + named path + (1, 0) := by
  intro hreason
  have hroom : room path "100644".toList oneLineHunkHeader ≠ 0 :=
    room_ne_zero path (by decide) (by decide)
  have hsigns : startsWith (skippedLine sizeBytes reason) "++" = false := rfl
  have hline : '\n' ∉ skippedLine sizeBytes reason := by
    unfold skippedLine
    simp only [List.mem_append, not_or]
    exact ⟨⟨⟨⟨by decide, hreason⟩, by decide⟩, notMem_toDigits rfl _⟩, by decide⟩
  have hcounts := @counts_untrackedDiff path "100644".toList oneLineHunkHeader (by decide)
    (by decide) (by decide) (by decide) (by decide) _ (List.cons_ne_nil _ [])
    (List.forall_mem_singleton.mpr hline) _ (Or.inr rfl)
  have hmissed : missed (room path "100644".toList oneLineHunkHeader)
      [skippedLine sizeBytes reason] = 0 := by
    rw [missed, hsigns, if_neg (not_or.mpr ⟨hroom, fun h => absurd h.1 (by decide)⟩), missed]
  rw [hmissed, show ((0, 0) : ℕ × ℕ) = 0 from rfl, add_zero] at hcounts
  rw [synthesizeSkippedUntrackedDiff, hcounts]
  rfl

/-- The room of a text's own lines. -/
def textRoom (content : List Char) : ℕ :=
  room path "100644".toList (textHunkHeader (fileLines content).length)

theorem marks_textHunkHeader (n : ℕ) : marks (textHunkHeader n) = 0 := marks_cons (by decide) _

theorem byteLength_textHunkHeader {n : ℕ} (h : n < 10 ^ 8) :
    byteLength (textHunkHeader n) ≤ 30 := by
  have hdigits : (Nat.toDigits 10 n).length ≤ 8 :=
    (Nat.length_toDigits_le_iff (by decide) (by decide)).mpr h
  have hbefore : byteLength "@@ -0,0 +1,".toList = 11 := by decide
  have hbehind : byteLength " @@".toList = 3 := by decide
  unfold textHunkHeader
  simp only [byteLength_append, byteLength_toDigits]
  omega

theorem counts_text {content : List Char} (h : (fileLines content).length < 10 ^ 8) :
    countDiffLines (capDiff (synthesizeUntrackedTextDiff path.text content)) +
        (missed (textRoom path content) (fileLines content), 0) =
      named path + named path + named path + ((fileLines content).length, 0) := by
  have hhunk : '\n' ∉ textHunkHeader (fileLines content).length := by
    unfold textHunkHeader
    simp only [List.mem_append, not_or]
    exact ⟨⟨by decide, notMem_toDigits rfl _⟩, by decide⟩
  refine counts_untrackedDiff path (by decide) (by decide) hhunk (marks_textHunkHeader _)
    (byteLength_textHunkHeader h) (fileLines_ne_nil content) (feed_notMem_fileLines content) ?_
  split
  · exact Or.inl rfl
  · exact Or.inr rfl

theorem length_fileLines_lt {content : List Char}
    (h : (encode content).length ≤ perFileDiffCapBytes) : (fileLines content).length < 10 ^ 8 := by
  have hlength : ∀ text : List Char, text.length ≤ (encode text).length := by
    intro text
    induction text with
    | nil => simp
    | cons c text ih =>
      have hpos := c.utf8Size_pos
      simp only [encode, List.flatMap_cons, List.length_append, String.length_utf8EncodeChar,
        List.length_cons] at ih ⊢
      omega
  have hcount : content.count '\n' ≤ content.length := List.count_le_length
  have := hlength content
  rw [perFileDiffCapBytes] at h
  rw [length_fileLines, lineCount]
  split_ifs <;> omega

/-- **When the counts are right.** The later lines of the name bring no deletion; a file over the
cap has as many lines as the name brings additions and one more; another file is not empty and as
many of its lines are missed as the name brings additions. -/
theorem untracked_counts_iff (path : UntrackedPath) {content : List Char}
    (hnul : '\x00' ∉ content) :
    untrackedCounts path.text (.file (encode content)) = (lineCount content, 0) ↔
      (named path).2 = 0 ∧
        if perFileDiffCapBytes < (encode content).length then
          lineCount content = 3 * (named path).1 + 1
        else
          content ≠ [] ∧
            missed (textRoom path content) (fileLines content) = 3 * (named path).1 := by
  rw [untrackedCounts, synthesizeUntrackedDiff]
  by_cases hcap : perFileDiffCapBytes < (encode content).length
  · rw [if_pos hcap, if_pos hcap, counts_skipped path _ _ (by decide)]
    simp only [Prod.ext_iff, Prod.fst_add, Prod.snd_add]
    omega
  · have htext : (fromUtf8 (encode content)).filter (fun text => !text.contains '\x00') =
        some content := by
      simp [fromUtf8_encode, hnul]
    have hlt := length_fileLines_lt (Nat.le_of_not_lt hcap)
    have hcounts := counts_text path hlt
    have hroom : textRoom path content ≠ 0 :=
      room_ne_zero path (by decide) (byteLength_textHunkHeader hlt)
    rw [if_neg hcap, if_neg hcap, htext]
    rw [length_fileLines] at hcounts
    simp only [Prod.ext_iff, Prod.fst_add, Prod.snd_add] at hcounts ⊢
    by_cases hnil : content = []
    · subst hnil
      have hmissed : missed (textRoom path []) (fileLines []) = 0 := by
        have hlines : fileLines [] = [[]] := rfl
        rw [hlines, missed, if_neg (by simp [hroom, startsWith]), missed]
      have hzero : lineCount [] = 0 := rfl
      rw [if_pos rfl] at hcounts
      simp only [ne_eq, not_true_eq_false, false_and, and_false, iff_false]
      omega
    · simp only [hnil, if_false] at hcounts
      simp only [ne_eq, hnil, not_false_eq_true, true_and]
      omega

end Counts

def notesPath : UntrackedPath where
  text := "notes.txt".toList
  ne_nil := by decide
  nul_notMem := by decide
  short := by decide

theorem untracked_counts_two_lines :
    untrackedCounts notesPath.text (.file (encode "a\nb".toList)) = (lineCount "a\nb".toList, 0) :=
  (untracked_counts_iff notesPath (by decide)).mpr (by decide +kernel)

/-- An empty file has a line, and a line that begins with two plus signs is none. -/
theorem untracked_counts_differ :
    untrackedCounts notesPath.text (.file (encode [])) = (1, 0) ∧ lineCount [] = 0 ∧
      untrackedCounts notesPath.text (.file (encode "++i;\n".toList)) = (0, 0) ∧
        lineCount "++i;\n".toList = 1 := by
  decide +kernel

end Argmax.Review
