import Argmax.Lib.Parts
import Argmax.Review.Hunks

/-!
# What is cut out of a diff

A diff of one file is its preamble and its hunks, line by line. The lines are read without their
ends, and a carriage return before a line feed counts as part of the end. So a hunk is cut out
exactly if none of its lines ends in a carriage return: then the preamble and the hunks put
together are the diff, and what is found in another diff has the new side and the rows of the hunk
that was asked for.
-/

namespace Argmax.Review

open Argmax.Lib
open Argmax.Lib.Parts
open Argmax.Providers (lines)

/-! ## Lines with their ends -/

/-- The text of some lines. -/
def endLines (ls : List (List Char)) : List Char := ls.flatMap (· ++ ['\n'])

@[simp] theorem endLines_nil : endLines [] = [] := rfl

@[simp] theorem endLines_cons (l : List Char) (ls : List (List Char)) :
    endLines (l :: ls) = l ++ '\n' :: endLines ls := by
  simp [endLines]

@[simp] theorem endLines_append (ls ls' : List (List Char)) :
    endLines (ls ++ ls') = endLines ls ++ endLines ls' := List.flatMap_append

/-- The lines as they are read. -/
def chomp (line : List Char) : List Char :=
  if line.getLast? = some '\r' then line.dropLast else line

variable {line : List Char} {ls : List (List Char)}

theorem chomp_of_ne (h : line.getLast? ≠ some '\r') : chomp line = line :=
  if_neg h

theorem chomp_eq_self_iff : chomp line = line ↔ line.getLast? ≠ some '\r' := by
  constructor
  · intro h hcr
    rw [chomp, if_pos hcr] at h
    have hlength := congrArg List.length h
    rw [List.length_dropLast] at hlength
    have hne : line ≠ [] := by
      rintro rfl
      simp at hcr
    have := List.length_pos_iff.2 hne
    omega
  · exact chomp_of_ne

theorem newline_notMem_chomp (h : '\n' ∉ line) : '\n' ∉ chomp line := by
  unfold chomp
  split_ifs
  · exact fun hmem => h (List.mem_of_mem_dropLast hmem)
  · exact h

theorem startsWith_chomp (h : startsWith line "@@ " = false) :
    startsWith (chomp line) "@@ " = false := by
  unfold chomp
  split_ifs
  · by_contra hstart
    rw [Bool.not_eq_false, startsWith, List.isPrefixOf_iff_prefix] at hstart
    have hline : startsWith line "@@ " = true := by
      rw [startsWith, List.isPrefixOf_iff_prefix]
      exact hstart.trans (List.dropLast_prefix line)
    rw [h] at hline
    simp at hline
  · exact h

/-- Reading lines takes a carriage return off each end. -/
theorem lines_endLines (h : ∀ l ∈ ls, '\n' ∉ l) : lines (endLines ls) = ls.map chomp := by
  induction ls with
  | nil => rfl
  | cons l ls ih =>
    have hl : ∀ c ∈ (l ++ ['\n']).dropLast, (c == '\n') = false := by
      intro c hc
      rw [List.dropLast_concat] at hc
      rw [beq_eq_false_iff_ne]
      rintro rfl
      exact h l (by simp) hc
    have hclosed : Closed (· == '\n') (l ++ ['\n']) := by
      intro c hc
      rw [List.getLast?_concat, Option.mem_some_iff] at hc
      rw [← hc]
      rfl
    have ihls := ih fun l hl => h l (List.mem_cons_of_mem _ hl)
    rw [lines] at ihls ⊢
    rw [endLines_cons, ← List.singleton_append, ← List.append_assoc, segments_append hclosed,
      segments_eq_singleton hl (by simp), List.map_append, ihls]
    simp [chomp]

/-- The lines of a text are its own. -/
theorem endLines_injective {ls' : List (List Char)} (h : ∀ l ∈ ls, '\n' ∉ l)
    (h' : ∀ l ∈ ls', '\n' ∉ l) (heq : endLines ls = endLines ls') : ls = ls' := by
  have hsplit : ∀ ls : List (List Char), (∀ l ∈ ls, '\n' ∉ l) →
      (endLines ls).splitOnP (· == '\n') = ls ++ [[]] := by
    intro ls hls
    induction ls with
    | nil => rfl
    | cons l ls ih =>
      have hl : ∀ c ∈ l, (c == '\n') = false := by
        intro c hc
        rw [beq_eq_false_iff_ne]
        rintro rfl
        exact hls l (by simp) hc
      rw [endLines_cons, List.splitOnP_append_cons_of_forall_mem hl _ (by simp),
        ih fun l hl => hls l (List.mem_cons_of_mem _ hl)]
      rfl
  have hboth := congrArg (List.splitOnP (· == '\n')) heq
  rw [hsplit ls h, hsplit ls' h'] at hboth
  exact List.append_cancel_right hboth

theorem joinLines_endLine (h : ls ≠ []) : joinLines ls ++ ['\n'] = endLines ls := by
  induction ls with
  | nil => exact absurd rfl h
  | cons l ls ih =>
    cases ls with
    | nil => simp [joinLines]
    | cons l' ls =>
      rw [endLines_cons, ← ih (by simp)]
      simp [joinLines]

/-! ## Diffs -/

/-- A hunk, as git prints it. A row starts with its mark, so not with `@@ `. -/
structure Hunk where
  oldSide : List Char
  newSide : List Char
  context : List Char
  rows : List (List Char)
  sides : ∀ c ∈ oldSide ++ newSide, c.isDigit = true ∨ c = ','
  context_line : '\n' ∉ context
  rows_line : ∀ row ∈ rows, '\n' ∉ row
  rows_marked : ∀ row ∈ rows, startsWith row "@@ " = false

namespace Hunk

def header (hunk : Hunk) : List Char :=
  "@@ -".toList ++ hunk.oldSide ++ " +".toList ++ hunk.newSide ++ " @@".toList ++ hunk.context

def lines (hunk : Hunk) : List (List Char) := hunk.header :: hunk.rows

def text (hunk : Hunk) : List Char := endLines hunk.lines

end Hunk

/-- A diff of one file, as git prints it. Git quotes a name with control characters. -/
structure UnifiedDiff where
  preamble : List (List Char)
  hunks : List Hunk
  preamble_ne : preamble ≠ []
  preamble_line : ∀ line ∈ preamble, '\n' ∉ line ∧ line.getLast? ≠ some '\r'
  preamble_plain : ∀ line ∈ preamble, startsWith line "@@ " = false ∧ isUnsupported line = false

namespace UnifiedDiff

def preambleText (diff : UnifiedDiff) : List Char := endLines diff.preamble

def text (diff : UnifiedDiff) : List Char :=
  diff.preambleText ++ (diff.hunks.map Hunk.text).flatten

end UnifiedDiff

/-- The hunks come out one by one, and behind the preamble they are the diff. -/
def Reassembles (diff : UnifiedDiff) : Prop :=
  ∃ hunks : List (List Char), diff.preambleText ++ hunks.flatten = diff.text ∧
    ∀ i, extractHunkPatch diff.text i =
      (hunks[i]?).elim (.error hunkUnavailable) fun hunk => .ok (diff.preambleText ++ hunk)

/-- What is found for a hunk of one diff is a hunk of the other, with its new side and rows. -/
def Matches (displayed unstaged : UnifiedDiff) : Prop :=
  ∀ i selected patch, extractHunkPatch displayed.text i = .ok selected →
    matchingHunkPatch unstaged.text selected = .ok patch →
    ∃ requested, displayed.hunks[i]? = some requested ∧ ∃ hunk ∈ unstaged.hunks,
      patch = unstaged.preambleText ++ hunk.text ∧ hunk.newSide = requested.newSide ∧
        hunk.rows = requested.rows

/-- No line of a hunk ends in a carriage return. -/
def CrFree (diff : UnifiedDiff) : Prop :=
  ∀ hunk ∈ diff.hunks, ∀ line ∈ hunk.lines, line.getLast? ≠ some '\r'

/-! ## Reading a diff -/

variable {diff : UnifiedDiff} {hunk : Hunk}

theorem Hunk.newline_notMem (hunk : Hunk) : ∀ line ∈ hunk.lines, '\n' ∉ line := by
  intro line hline
  rcases List.mem_cons.1 hline with rfl | hrow
  · have hsides : ∀ c ∈ hunk.oldSide ++ hunk.newSide, c ≠ '\n' := by
      rintro c hc rfl
      have := hunk.sides _ hc
      revert this
      decide
    have hold : '\n' ∉ hunk.oldSide := fun hmem => hsides _ (List.mem_append_left _ hmem) rfl
    have hnew : '\n' ∉ hunk.newSide := fun hmem => hsides _ (List.mem_append_right _ hmem) rfl
    simp [Hunk.header, hold, hnew, hunk.context_line]
  · exact hunk.rows_line line hrow

@[simp] theorem Hunk.startsWith_header (hunk : Hunk) : startsWith hunk.header "@@ " = true := by
  rw [startsWith]
  simp [Hunk.header]

theorem Hunk.startsWith_chomp_header (hunk : Hunk) :
    startsWith (chomp hunk.header) "@@ " = true := by
  have hlong : ∀ rest : List Char, startsWith (chomp ('@' :: '@' :: ' ' :: '-' :: rest)) "@@ " =
      true := by
    intro rest
    unfold chomp
    split_ifs
    · cases rest <;> simp [startsWith]
    · simp [startsWith]
  simpa [Hunk.header] using hlong _

/-- The lines of a diff. -/
def UnifiedDiff.lines (diff : UnifiedDiff) : List (List Char) :=
  diff.preamble ++ (diff.hunks.map Hunk.lines).flatten

theorem UnifiedDiff.text_eq (diff : UnifiedDiff) : diff.text = endLines diff.lines := by
  have hhunks : ∀ hunks : List Hunk,
      (hunks.map Hunk.text).flatten = endLines (hunks.map Hunk.lines).flatten := by
    intro hunks
    induction hunks with
    | nil => rfl
    | cons hunk hunks ih => simp [ih, Hunk.text]
  rw [UnifiedDiff.text, UnifiedDiff.lines, endLines_append, hhunks, UnifiedDiff.preambleText]

theorem UnifiedDiff.newline_notMem (diff : UnifiedDiff) : ∀ line ∈ diff.lines, '\n' ∉ line := by
  intro line hline
  rcases List.mem_append.1 hline with hpreamble | hhunk
  · exact (diff.preamble_line line hpreamble).1
  · obtain ⟨_, hmem, hin⟩ := List.mem_flatten.1 hhunk
    obtain ⟨hunk, _, rfl⟩ := List.mem_map.1 hmem
    exact hunk.newline_notMem line hin

theorem foldl_next_preamble {preamble : List (List Char)}
    (h : ∀ line ∈ preamble, startsWith line "@@ " = false) (done : List (List Char)) :
    preamble.foldl Scan.next ⟨done, [], none⟩ = ⟨done ++ preamble, [], none⟩ := by
  induction preamble generalizing done with
  | nil => simp
  | cons line preamble ih =>
    have hnext : Scan.next ⟨done, [], none⟩ line = ⟨done ++ [line], [], none⟩ := by
      simp [Scan.next, h line (by simp)]
    rw [List.foldl_cons, hnext, ih fun l hl => h l (List.mem_cons_of_mem _ hl)]
    simp

theorem foldl_next_rows {rows : List (List Char)}
    (h : ∀ row ∈ rows, startsWith row "@@ " = false) (preamble : List (List Char))
    (done : List (List (List Char))) (active : List (List Char)) :
    rows.foldl Scan.next ⟨preamble, done, some active⟩ =
      ⟨preamble, done, some (active ++ rows)⟩ := by
  induction rows generalizing active with
  | nil => simp
  | cons row rows ih =>
    have hnext : Scan.next ⟨preamble, done, some active⟩ row =
        ⟨preamble, done, some (active ++ [row])⟩ := by
      simp [Scan.next, h row (by simp)]
    rw [List.foldl_cons, hnext, ih fun l hl => h l (List.mem_cons_of_mem _ hl)]
    simp

/-- Each hunk is closed by the next one or by the end. -/
theorem foldl_next_hunks (hunks : List Hunk) (scan : Scan) :
    ((hunks.map fun hunk => hunk.lines.map chomp).flatten.foldl Scan.next scan).preamble =
        scan.preamble ∧
      ((hunks.map fun hunk => hunk.lines.map chomp).flatten.foldl Scan.next scan).allHunks =
        scan.allHunks ++ hunks.map fun hunk => hunk.lines.map chomp := by
  induction hunks generalizing scan with
  | nil => simp
  | cons hunk hunks ih =>
    have hrows : ∀ row ∈ hunk.rows.map chomp, startsWith row "@@ " = false := by
      intro row hrow
      obtain ⟨line, hline, rfl⟩ := List.mem_map.1 hrow
      exact startsWith_chomp (hunk.rows_marked line hline)
    have hstart : Scan.next scan (chomp hunk.header) =
        ⟨scan.preamble, scan.allHunks, some [chomp hunk.header]⟩ := by
      simp [Scan.next, hunk.startsWith_chomp_header, Scan.allHunks]
    rw [List.map_cons, List.flatten_cons, List.foldl_append, Hunk.lines, List.map_cons,
      List.foldl_cons, hstart, foldl_next_rows hrows]
    have ⟨hpreamble, hall⟩ := ih ⟨scan.preamble, scan.allHunks,
      some ([chomp hunk.header] ++ hunk.rows.map chomp)⟩
    refine ⟨hpreamble, ?_⟩
    rw [hall]
    simp [Scan.allHunks]

/-- What is read of a diff. -/
theorem scanDiff_text (diff : UnifiedDiff) :
    (scanDiff diff.text).preamble = diff.preamble ∧
      (scanDiff diff.text).allHunks = diff.hunks.map fun hunk => hunk.lines.map chomp := by
  have hpreamble : diff.preamble.map chomp = diff.preamble := by
    rw [List.map_congr_left fun line hline => chomp_of_ne (diff.preamble_line line hline).2]
    exact List.map_id' _
  have hlines : lines diff.text = diff.preamble ++
      (diff.hunks.map fun hunk => hunk.lines.map chomp).flatten := by
    rw [diff.text_eq, lines_endLines diff.newline_notMem, UnifiedDiff.lines, List.map_append,
      hpreamble, List.map_flatten, List.map_map]
    rfl
  rw [scanDiff, hlines, List.foldl_append, Scan.start,
    foldl_next_preamble fun line hline => (diff.preamble_plain line hline).1]
  have ⟨hkept, hall⟩ := foldl_next_hunks diff.hunks ⟨[] ++ diff.preamble, [], none⟩
  exact ⟨by simpa using hkept, by simpa [Scan.allHunks] using hall⟩

/-- The text of a hunk as it is cut out. -/
def Hunk.cutText (hunk : Hunk) : List Char := endLines (hunk.lines.map chomp)

/-- What is cut out of a diff. -/
theorem extractHunkPatch_text (diff : UnifiedDiff) (i : ℕ) :
    extractHunkPatch diff.text i = (diff.hunks[i]?).elim (.error hunkUnavailable)
      fun hunk => .ok (diff.preambleText ++ hunk.cutText) := by
  have ⟨hpreamble, hall⟩ := scanDiff_text diff
  have hplain : ¬ diff.preamble.any isUnsupported = true := by
    rw [List.any_eq_true]
    rintro ⟨line, hline, hunsupported⟩
    rw [(diff.preamble_plain line hline).2] at hunsupported
    simp at hunsupported
  unfold extractHunkPatch
  dsimp only
  rw [hall, hpreamble, List.getElem?_map]
  cases diff.hunks[i]? with
  | none => rfl
  | some hunk =>
    rw [Option.map_some]
    dsimp only
    rw [if_neg hplain, joinLines_endLine diff.preamble_ne, List.append_assoc,
      joinLines_endLine (by simp [Hunk.lines])]
    rfl

/-! ## What hunks are compared by -/

/-- The first occurrence is no later than any other. -/
theorem afterFirst_eq_some {needle text rest : List Char} (h : afterFirst needle text = some rest) :
    ∃ before, text = before ++ needle ++ rest ∧
      ∀ before' rest', text = before' ++ needle ++ rest' → before.length ≤ before'.length := by
  induction text with
  | nil =>
    unfold afterFirst at h
    split_ifs at h with hempty
    rw [List.isEmpty_iff] at hempty
    exact ⟨[], by simpa [hempty] using h, by simp⟩
  | cons c text ih =>
    unfold afterFirst at h
    split_ifs at h with hhere
    · have happend := List.prefix_iff_eq_append.1 (List.isPrefixOf_iff_prefix.1 hhere)
      refine ⟨[], ?_, by simp⟩
      rw [← Option.some.inj h]
      exact happend.symm
    · obtain ⟨before, htext, hfirst⟩ := ih h
      refine ⟨c :: before, by simp [htext], ?_⟩
      intro before' rest' hsplit
      cases before' with
      | nil =>
        refine absurd ?_ hhere
        rw [List.isPrefixOf_iff_prefix]
        exact ⟨rest', by simpa using hsplit.symm⟩
      | cons c' before' =>
        have ⟨_, htail⟩ := List.cons.inj hsplit
        have := hfirst before' rest' htail
        simpa using this

/-- The cut is made at a plus sign that is not behind one that stands after `@@ `. -/
theorem comparedPart_eq_some {before between rest part : List Char}
    (h : comparedPart (before ++ "@@ ".toList ++ (between ++ "+".toList ++ rest)) = some part) :
    ∃ cut, before ++ "@@ ".toList ++ (between ++ "+".toList ++ rest) = cut ++ '+' :: part ∧
      cut.length ≤ (before ++ "@@ ".toList ++ between).length := by
  rw [comparedPart, Option.bind_eq_some_iff] at h
  obtain ⟨body, hbody, hpart⟩ := h
  obtain ⟨front, hfront, hfirst⟩ := afterFirst_eq_some hbody
  obtain ⟨middle, hmiddle, hplus⟩ := afterFirst_eq_some hpart
  have hle := hfirst before _ rfl
  -- What stands between the two occurrences of the mark goes into the body.
  obtain ⟨gap, hgap⟩ : ∃ gap, before ++ "@@ ".toList = front ++ "@@ ".toList ++ gap := by
    have hprefix : front ++ "@@ ".toList <+: before ++ "@@ ".toList := by
      have hbody : front ++ "@@ ".toList <+:
          before ++ "@@ ".toList ++ (between ++ "+".toList ++ rest) := ⟨body, hfront.symm⟩
      apply List.prefix_of_prefix_length_le hbody
      · exact List.prefix_append _ _
      · simpa using hle
    obtain ⟨gap, hgap⟩ := hprefix
    exact ⟨gap, hgap.symm⟩
  have hbodyEq : body = gap ++ between ++ "+".toList ++ rest := by
    rw [hgap, List.append_assoc (front ++ "@@ ".toList)] at hfront
    simpa using (List.append_cancel_left hfront).symm
  have hmiddleLe := hplus (gap ++ between) rest hbodyEq
  refine ⟨front ++ "@@ ".toList ++ middle, ?_, ?_⟩
  · rw [hfront, hmiddle]
    simp
  · have hlength := congrArg List.length hgap
    simp only [List.length_append] at hlength hmiddleLe ⊢
    omega

/-- What follows a plus sign in some lines is the rest of its line and the lines behind. -/
theorem exists_of_endLines_eq {front back : List Char} (h : endLines ls = front ++ '+' :: back)
    (hls : ∀ l ∈ ls, '\n' ∉ l) :
    ∃ first rest, back = endLines (first :: rest) ∧ ∀ l ∈ first :: rest, '\n' ∉ l := by
  induction ls generalizing front with
  | nil => simp at h
  | cons l ls ih =>
    rw [endLines_cons] at h
    have htail : ∀ l ∈ ls, '\n' ∉ l := fun l hl => hls l (List.mem_cons_of_mem _ hl)
    rcases List.append_eq_append_iff.1 h with ⟨gap, hfront, hgap⟩ | ⟨gap, hl, hgap⟩
    · cases gap with
      | nil => simp at hgap
      | cons c gap =>
        have ⟨_, hrest⟩ := List.cons.inj hgap
        exact ih hrest htail
    · cases gap with
      | nil => simp at hgap
      | cons c gap =>
        have ⟨_, hrest⟩ := List.cons.inj hgap
        refine ⟨gap, ls, by rw [endLines_cons, hrest]; rfl, ?_⟩
        intro line hline
        rcases List.mem_cons.1 hline with rfl | hline
        · have hl' := hls l (by simp)
          rw [hl] at hl'
          exact fun hmem => hl' (by simp [hmem])
        · exact htail line hline

/-- The lines from the new side on. -/
def Hunk.newPart (hunk : Hunk) : List (List Char) :=
  (hunk.newSide ++ " @@".toList ++ hunk.context) :: hunk.rows

theorem Hunk.newline_notMem_newPart (hunk : Hunk) : ∀ line ∈ hunk.newPart, '\n' ∉ line := by
  intro line hline
  rcases List.mem_cons.1 hline with rfl | hrow
  · have hheader := hunk.newline_notMem hunk.header (by simp [Hunk.lines])
    intro hmem
    apply hheader
    simp only [Hunk.header, List.mem_append] at hmem ⊢
    tauto
  · exact hunk.rows_line line hrow

/-- The part of a patch that is compared: from the new side on, or from somewhere in the preamble
on. -/
theorem comparedPart_patch (preamble : List (List Char))
    (hpreamble : ∀ line ∈ preamble, '\n' ∉ line) (hunk : Hunk) {part : List Char}
    (h : comparedPart (endLines preamble ++ hunk.text) = some part) :
    part = endLines hunk.newPart ∨
      ∃ first rest, part = endLines (first :: rest ++ hunk.lines) ∧
        ∀ l ∈ first :: rest, '\n' ∉ l := by
  have htext : hunk.text = "@@ ".toList ++ ("-".toList ++ hunk.oldSide ++ " ".toList ++
      "+".toList ++ endLines hunk.newPart) := by
    simp [Hunk.text, Hunk.lines, Hunk.header, Hunk.newPart]
  have hsides : '+' ∉ "@@ ".toList ++ ("-".toList ++ hunk.oldSide ++ " ".toList) := by
    have hold : '+' ∉ hunk.oldSide := by
      intro hmem
      have := hunk.sides '+' (List.mem_append_left _ hmem)
      revert this
      decide
    simp [hold]
  rw [htext, ← List.append_assoc] at h
  obtain ⟨cut, hcut, hle⟩ := comparedPart_eq_some h
  rw [List.append_assoc] at hcut
  rcases List.append_eq_append_iff.1 hcut with ⟨gap, hgap, hrest⟩ | ⟨gap, hgap, hrest⟩
  · -- The cut is behind the preamble.
    left
    have hshort : gap.length ≤
        ("@@ ".toList ++ ("-".toList ++ hunk.oldSide ++ " ".toList)).length := by
      rw [hgap] at hle
      simp only [List.length_append] at hle ⊢
      omega
    have hsplit : "@@ ".toList ++ ("-".toList ++ hunk.oldSide ++ " ".toList) ++
        '+' :: endLines hunk.newPart =
        gap ++ '+' :: part := by
      simpa using hrest
    rcases List.append_eq_append_iff.1 hsplit with ⟨more, hmore, htail⟩ | ⟨more, hmore, htail⟩
    · have hnil : more = [] := by
        rw [← List.length_eq_zero_iff]
        rw [hmore, List.length_append] at hshort
        omega
      rw [hnil] at htail
      exact (List.cons.inj htail).2.symm
    · cases more with
      | nil => exact (List.cons.inj htail).2
      | cons c more =>
        have hc : c = '+' := (List.cons.inj htail).1.symm
        exact absurd (by rw [hmore, hc]; simp) hsides
  · -- The cut is in the preamble, so the whole hunk follows.
    right
    cases gap with
    | nil => simp at hrest
    | cons c gap =>
      have ⟨hc, hpart⟩ := List.cons.inj hrest
      rw [← hc] at hgap
      obtain ⟨first, rest, hback, hlines⟩ := exists_of_endLines_eq hgap hpreamble
      refine ⟨first, rest, ?_, hlines⟩
      calc part = gap ++ hunk.text := by rw [htext]; exact hpart
        _ = endLines (first :: rest ++ hunk.lines) := by rw [hback, endLines_append]; rfl

/-- A later line that starts like a hunk tells the two kinds of parts apart. -/
theorem newSide_ne_later {hunk hunk' : Hunk} {first : List Char} {rest : List (List Char)}
    (hlines : ∀ l ∈ first :: rest, '\n' ∉ l) :
    endLines hunk.newPart ≠ endLines (first :: rest ++ hunk'.lines) := by
  intro heq
  have hfree' : ∀ l ∈ first :: rest ++ hunk'.lines, '\n' ∉ l := by
    intro l hl
    rcases List.mem_append.1 hl with hl | hl
    · exact hlines l hl
    · exact hunk'.newline_notMem l hl
  have hsame := endLines_injective hunk.newline_notMem_newPart hfree' heq
  have hrows : hunk.rows = rest ++ hunk'.lines := (List.cons.inj hsame).2
  have hmem : hunk'.header ∈ hunk.rows := by
    rw [hrows]
    simp [Hunk.lines]
  have hmarked := hunk.rows_marked _ hmem
  simp at hmarked

theorem Hunk.space_notMem (hunk : Hunk) : ' ' ∉ hunk.oldSide ∧ ' ' ∉ hunk.newSide := by
  have hsides : ' ' ∉ hunk.oldSide ++ hunk.newSide := by
    intro hmem
    have := hunk.sides _ hmem
    revert this
    decide
  simpa using hsides

/-- What stands before the first blank. -/
theorem eq_of_append_space {front front' back back' : List Char}
    (h : front ++ ' ' :: back = front' ++ ' ' :: back') (hfront : ' ' ∉ front)
    (hfront' : ' ' ∉ front') : front = front' := by
  have htake : ∀ front back : List Char, ' ' ∉ front →
      (front ++ ' ' :: back).takeWhile (· != ' ') = front := by
    intro front back hnone
    have hall : ∀ c ∈ front, (c != ' ') = true := by
      intro c hc
      rw [bne_iff_ne]
      rintro rfl
      exact hnone hc
    rw [List.takeWhile_append_of_pos hall]
    simp
  have hboth := congrArg (List.takeWhile (· != ' ')) h
  rwa [htake front back hfront, htake front' back' hfront'] at hboth

/-- Hunks that compare as equal have one new side and one set of rows. -/
theorem eq_of_comparedPart_eq {preamble preamble' : List (List Char)} {hunk hunk' : Hunk}
    {part : List Char} (hpreamble : ∀ line ∈ preamble, '\n' ∉ line)
    (hpreamble' : ∀ line ∈ preamble', '\n' ∉ line)
    (h : comparedPart (endLines preamble ++ hunk.text) = some part)
    (h' : comparedPart (endLines preamble' ++ hunk'.text) = some part) :
    hunk.newSide = hunk'.newSide ∧ hunk.rows = hunk'.rows := by
  rcases comparedPart_patch preamble hpreamble hunk h with hnew | ⟨first, rest, hlater, hlines⟩
  · rcases comparedPart_patch preamble' hpreamble' hunk' h' with hnew' | ⟨_, _, hlater', hlines'⟩
    · have hparts := endLines_injective hunk.newline_notMem_newPart hunk'.newline_notMem_newPart
        (hnew.symm.trans hnew')
      have ⟨hhead, hrows⟩ := List.cons.inj hparts
      have hnewSide : hunk.newSide ++ ' ' :: ("@@".toList ++ hunk.context) =
          hunk'.newSide ++ ' ' :: ("@@".toList ++ hunk'.context) := by
        simpa using hhead
      exact ⟨eq_of_append_space hnewSide hunk.space_notMem.2 hunk'.space_notMem.2, hrows⟩
    · exact absurd (hnew.symm.trans hlater') (newSide_ne_later hlines')
  · rcases comparedPart_patch preamble' hpreamble' hunk' h' with hnew' | ⟨_, _, hlater', hlines'⟩
    · exact absurd (hnew'.symm.trans hlater) (newSide_ne_later hlines)
    · have hfree : ∀ {first : List Char} {rest : List (List Char)} (hunk : Hunk),
          (∀ l ∈ first :: rest, '\n' ∉ l) → ∀ l ∈ first :: rest ++ hunk.lines, '\n' ∉ l := by
        intro first rest hunk hlines l hl
        rcases List.mem_append.1 hl with hl | hl
        · exact hlines l hl
        · exact hunk.newline_notMem l hl
      have hsame := endLines_injective (hfree hunk hlines) (hfree hunk' hlines')
        (hlater.symm.trans hlater')
      -- The header is the last line that starts a hunk.
      obtain ⟨_, hheader, hrows⟩ := eq_of_append_cons (p := fun line => startsWith line "@@ ")
        hsame hunk.startsWith_header hunk'.startsWith_header hunk.rows_marked hunk'.rows_marked
      refine ⟨?_, hrows⟩
      have hsides : hunk.oldSide ++ ' ' :: ('+' :: hunk.newSide ++ ' ' ::
          ("@@".toList ++ hunk.context)) = hunk'.oldSide ++ ' ' :: ('+' :: hunk'.newSide ++ ' ' ::
          ("@@".toList ++ hunk'.context)) := by
        simpa [Hunk.header] using hheader
      have hold := eq_of_append_space hsides hunk.space_notMem.1 hunk'.space_notMem.1
      rw [hold] at hsides
      have hnewSide : hunk.newSide ++ ' ' :: ("@@".toList ++ hunk.context) =
          hunk'.newSide ++ ' ' :: ("@@".toList ++ hunk'.context) := by
        simpa using List.append_cancel_left hsides
      exact eq_of_append_space hnewSide hunk.space_notMem.2 hunk'.space_notMem.2

/-! ## Carriage returns -/

theorem cutText_eq_of_crFree (h : ∀ line ∈ hunk.lines, line.getLast? ≠ some '\r') :
    hunk.cutText = hunk.text := by
  rw [Hunk.cutText, List.map_congr_left fun line hline => chomp_of_ne (h line hline)]
  rw [List.map_id', Hunk.text]

/-- What is put together is the diff only if nothing was taken off its lines. -/
theorem crFree_of_cutTexts
    (h : (diff.hunks.map Hunk.cutText).flatten = (diff.hunks.map Hunk.text).flatten) :
    CrFree diff := by
  have hflat : ∀ f : Hunk → List (List Char),
      (diff.hunks.map fun hunk => endLines (f hunk)).flatten =
        endLines (diff.hunks.map f).flatten := by
    intro f
    induction diff.hunks with
    | nil => rfl
    | cons hunk hunks ih => simp [ih]
  have hcut : endLines (diff.hunks.map Hunk.lines).flatten =
      endLines ((diff.hunks.map Hunk.lines).flatten.map chomp) := by
    rw [List.map_flatten, List.map_map, ← hflat Hunk.lines]
    exact h.symm.trans (hflat fun hunk => hunk.lines.map chomp)
  have hfree : ∀ line ∈ (diff.hunks.map Hunk.lines).flatten, '\n' ∉ line := fun line hline =>
    diff.newline_notMem line (List.mem_append_right _ hline)
  have hfree' : ∀ line ∈ (diff.hunks.map Hunk.lines).flatten.map chomp, '\n' ∉ line := by
    intro line hline
    obtain ⟨whole, hwhole, rfl⟩ := List.mem_map.1 hline
    exact newline_notMem_chomp (hfree whole hwhole)
  have hsame := endLines_injective hfree hfree' hcut
  intro hunk hhunk line hline
  have hmem : line ∈ (diff.hunks.map Hunk.lines).flatten :=
    List.mem_flatten.2 ⟨hunk.lines, List.mem_map_of_mem hhunk, hline⟩
  have hself : ∀ line ∈ (diff.hunks.map Hunk.lines).flatten, chomp line = line := by
    intro line hline
    obtain ⟨n, hn⟩ := List.mem_iff_getElem?.1 hline
    have hat := congrArg (fun ls => ls[n]?) hsame
    rw [List.getElem?_map, hn, Option.map_some, Option.some.injEq] at hat
    exact hat.symm
  exact chomp_eq_self_iff.1 (hself line hmem)

/-- A diff is put together again exactly if no line of a hunk ends in a carriage return. -/
theorem reassembles_iff : Reassembles diff ↔ CrFree diff := by
  constructor
  · rintro ⟨hunks, htext, hextract⟩
    have hhunks : hunks = diff.hunks.map Hunk.cutText := by
      apply List.ext_getElem?
      intro i
      have hi := hextract i
      rw [extractHunkPatch_text] at hi
      cases hd : diff.hunks[i]? <;> cases hh : hunks[i]? <;> simp [hd, hh] at hi ⊢
      exact hi.symm
    apply crFree_of_cutTexts
    rw [hhunks] at htext
    exact List.append_cancel_left htext
  · intro h
    refine ⟨diff.hunks.map Hunk.text, rfl, ?_⟩
    intro i
    rw [extractHunkPatch_text, List.getElem?_map]
    cases hd : diff.hunks[i]? with
    | none => rfl
    | some hunk =>
      rw [Option.map_some, Option.elim_some, Option.elim_some,
        cutText_eq_of_crFree (h hunk (List.mem_of_getElem? hd))]

/-- Without carriage returns only the hunk that was asked for is found. -/
theorem matches_of_crFree {displayed unstaged : UnifiedDiff} (h : CrFree displayed)
    (h' : CrFree unstaged) : Matches displayed unstaged := by
  intro i selected patch hselected hpatch
  have hcut : ∀ {diff : UnifiedDiff} {i : ℕ} {patch : List Char}, CrFree diff →
      extractHunkPatch diff.text i = .ok patch →
      ∃ hunk, diff.hunks[i]? = some hunk ∧ patch = diff.preambleText ++ hunk.text := by
    intro diff i patch hfree hextract
    rw [extractHunkPatch_text] at hextract
    cases hd : diff.hunks[i]? with
    | none => simp [hd] at hextract
    | some hunk =>
      rw [hd, Option.elim_some, Except.ok.injEq,
        cutText_eq_of_crFree (hfree hunk (List.mem_of_getElem? hd))] at hextract
      exact ⟨hunk, rfl, hextract.symm⟩
  obtain ⟨requested, hrequested, hselectedText⟩ := hcut h hselected
  obtain ⟨part, hpart, hpart', j, hfound⟩ := matchingHunkPatch_eq_ok hpatch
  obtain ⟨hunk, hhunk, hpatchText⟩ := hcut h' hfound
  rw [hselectedText] at hpart
  rw [hpatchText] at hpart'
  have ⟨hside, hrows⟩ := eq_of_comparedPart_eq
    (fun line hline => (unstaged.preamble_line line hline).1)
    (fun line hline => (displayed.preamble_line line hline).1) hpart' hpart
  exact ⟨requested, hrequested, hunk, List.mem_of_getElem? hhunk, hpatchText, hside, hrows⟩

/-- Two diffs of a file are cut exactly, and a hunk of one is found in the other as itself or not
at all, if and only if no line of a hunk of either ends in a carriage return. -/
theorem hunks_exact_iff (displayed unstaged : UnifiedDiff) :
    Reassembles displayed ∧ Reassembles unstaged ∧ Matches displayed unstaged ↔
      CrFree displayed ∧ CrFree unstaged := by
  rw [reassembles_iff, reassembles_iff]
  constructor
  · exact fun h => ⟨h.1, h.2.1⟩
  · exact fun h => ⟨h.1, h.2, matches_of_crFree h.1 h.2⟩

/-! ## A file with carriage returns -/

/-- The diff of a file whose lines end in carriage return and line feed. -/
def crlfDiff : UnifiedDiff where
  preamble := ["diff --git a/a b/a", "index 1..2 100644", "--- a/a", "+++ b/a"].map String.toList
  hunks := [{
    oldSide := ['1']
    newSide := ['1']
    context := []
    rows := [['-', 'x', '\r'], ['+', 'y', '\r']]
    sides := by simp
    context_line := by decide
    rows_line := by decide
    rows_marked := by decide }]
  preamble_ne := by decide
  preamble_line := by decide
  preamble_plain := by decide

theorem crlfDiff_not_exact : ¬ ∀ displayed unstaged : UnifiedDiff,
    Reassembles displayed ∧ Reassembles unstaged ∧ Matches displayed unstaged := by
  intro h
  obtain ⟨hunks, htext, hextract⟩ := (h crlfDiff crlfDiff).1
  have hcut : (extractHunkPatch crlfDiff.text 0).toOption.map List.length =
      some (crlfDiff.text.length - 2) := by
    rfl
  have hend : extractHunkPatch crlfDiff.text 1 = .error hunkUnavailable := by
    rfl
  have hfirst := hextract 0
  have hsecond := hextract 1
  cases hunks with
  | nil =>
    rw [hfirst] at hcut
    revert hcut
    decide
  | cons hunk hunks =>
    cases hunks with
    | nil =>
      -- The only patch would be the diff.
      have hwhole : extractHunkPatch crlfDiff.text 0 = .ok crlfDiff.text := by
        rw [hfirst, ← htext]
        simp
      rw [hwhole] at hcut
      revert hcut
      decide
    | cons hunk' hunks =>
      rw [hend] at hsecond
      simp at hsecond

end Argmax.Review
