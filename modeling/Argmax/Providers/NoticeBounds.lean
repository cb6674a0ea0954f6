import Argmax.Providers.CompletionNotices
import Mathlib.Tactic.Ring

/-!
# The bounds of completion notices

A batch keeps the reserve of every result that it has not reached yet, and a pointer is
shorter than its reserve, so the whole batch fits its row.

A long answer keeps the learnings heading, but for one case: the cut falls inside the line
of the heading. The head then ends before that line, and the heading is looked for behind
the cut only.
-/

namespace Argmax.Providers.CompletionNotices

open Argmax.Lib Argmax.Lib.Text

/-! ## Batches -/

variable {n count : ℕ}

/-- The line ends behind the head. -/
def outsideHead (head : List Char) (start : ℕ) (line : List Char) : Bool :=
  decide (head.length < start + (trimEnd line).length)

/-- Where the first heading stands that is not wholly inside the head. -/
def headingOutside (answer : List Char) : Option ℕ :=
  findLine (fun start line => isLearningsHeading line &&
    outsideHead (answerHead answer) start line) 0 (answerLines answer)

/-- A capped answer keeps its learnings. -/
structure Survives (answer : List Char) : Prop where
  whole : answer.length ≤ noticeAnswerChars → capNoticeAnswer answer = answer
  head : answerHead answer <+: answer
  learnings : noticeAnswerChars < answer.length → capNoticeAnswer answer =
    match headingOutside answer with
    | some start => answerHead answer ++ middleTruncated ++ capLearningsSection (answer.drop start)
    | none => answerHead answer ++ truncated
  bounded : (capNoticeAnswer answer).length ≤ noticeAnswerChars + middleTruncated.length +
    noticeLearningsChars + truncated.length

/-- The line in which the cut falls is no heading, or nothing of it is lost: the cut stands
before it, the head is this line, or the next heading opens the same section. -/
def CutSpares (answer : List Char) : Prop :=
  ∀ start line, lineAt (answerCut answer) 0 (answerLines answer) = some (start, line) →
    isLearningsHeading line = true →
      start = answerCut answer ∨ start = 0 ∧ (trimEnd line).length ≤ answerCut answer ∨
        ∃ next, learningsOffset answer (answerCut answer) = some next ∧
          capLearningsSection (answer.drop next) = capLearningsSection (answer.drop start)

theorem isLineFeed_iff {c : Char} : isLineFeed c = true ↔ c = '\n' := by
  simp [isLineFeed]

theorem trimEnd_ne_nil {line : List Char} (h : isLearningsHeading line = true) :
    trimEnd line ≠ [] := by
  intro hnil
  rw [trimEnd, List.rdropWhile_eq_nil_iff] at hnil
  rw [isLearningsHeading, trim_eq_nil.mpr hnil] at h
  exact absurd h (by decide)

theorem beforeLastLineFeed_of_open {text : List Char} (h : ∀ c ∈ text, isLineFeed c = false) :
    beforeLastLineFeed text = text := by
  rw [beforeLastLineFeed, if_neg]
  simpa using h

theorem beforeLastLineFeed_append {front rest : List Char} {c : Char} (hc : isLineFeed c = true)
    (h : ∀ d ∈ rest, isLineFeed d = false) : beforeLastLineFeed (front ++ [c] ++ rest) = front := by
  rw [beforeLastLineFeed]
  rw [List.rdropWhile, List.reverse_append, List.dropWhile_append_of_pos (by simpa using h)]
  simp [hc]

theorem prefix_beforeLastLineFeed (text : List Char) : beforeLastLineFeed text <+: text := by
  rw [beforeLastLineFeed]
  split
  · exact (List.dropLast_prefix _).trans (List.rdropWhile_prefix _ _)
  · exact List.prefix_refl _

theorem prefix_answerHead (answer : List Char) : answerHead answer <+: answer.take (answerCut answer) :=
  (List.rdropWhile_prefix _ _).trans (prefix_beforeLastLineFeed _)

theorem length_answerHead_le (answer : List Char) : (answerHead answer).length ≤ answerCut answer :=
  (prefix_answerHead answer).length_le.trans (List.length_take_le _ _)

theorem length_capLearningsSection_le (section_ : List Char) :
    (capLearningsSection section_).length ≤ noticeLearningsChars + truncated.length := by
  rw [capLearningsSection]
  split
  · omega
  · have htrim : (trimEnd (section_.take (charOffset section_ noticeLearningsChars))).length ≤
        noticeLearningsChars :=
      ((List.rdropWhile_prefix _ _).length_le.trans (List.length_take_le _ _)).trans
        (Nat.min_le_left _ _)
    rw [List.length_append]
    omega

section Cut

variable {answer line : List Char} {before after : List (List Char)}

section

variable (hlines : answerLines answer = before ++ line :: after)
include hlines

/-- The lines before another one end with a line feed. -/
theorem flatten_before
    (hne : before ≠ []) :
    ∃ front c, before.flatten = front ++ [c] ∧ isLineFeed c = true := by
  have hbefore : before.dropLast ++ [before.getLast hne] = before := List.dropLast_concat_getLast hne
  have hsplit : splitInclusive isLineFeed answer =
      before.dropLast ++ before.getLast hne :: line :: after := by
    rw [← answerLines, hlines]
    conv_lhs => rw [← hbefore]
    simp
  have ⟨hline, _, hend⟩ := splitInclusive_spec hsplit
  have hlast := List.dropLast_concat_getLast hline
  refine ⟨before.dropLast.flatten ++ (before.getLast hne).dropLast, (before.getLast hne).getLast hline,
    ?_, hend (by simp) _ (List.getLast?_eq_some_getLast hline)⟩
  rw [List.append_assoc, hlast]
  conv_lhs => rw [← hbefore]
  simp

/-- No line feed stands in the part of a line before its end. -/
theorem open_take (hn : n < line.length) : ∀ c ∈ line.take n, isLineFeed c = false := by
  have ⟨_, hopen, _⟩ := splitInclusive_spec hlines
  intro c hc
  refine hopen c ?_
  rw [List.dropLast_eq_take]
  exact (List.take_subset_take_left _ (by omega)) hc

theorem take_cut (hn : n < line.length) :
    answer.take (before.flatten.length + n) = before.flatten ++ line.take n := by
  have hanswer : before.flatten ++ (line ++ after.flatten) = answer := by
    rw [← flatten_splitInclusive (p := isLineFeed) answer, ← answerLines, hlines]
    simp
  rw [← hanswer, List.take_length_add_append, List.take_append_of_le_length (Nat.le_of_lt hn)]

/-- The head ends with the lines that are wholly before the cut. -/
theorem answerHead_eq (hn : n < line.length)
    (hcut : answerCut answer = before.flatten.length + n) :
    answerHead answer = if before = [] then trimEnd (line.take n) else trimEnd before.flatten := by
  rw [answerHead, hcut, take_cut hlines hn]
  split
  case isTrue hnil =>
    subst hnil
    rw [List.flatten_nil, List.nil_append, beforeLastLineFeed_of_open (open_take hlines hn)]
  case isFalse hne =>
    have ⟨front, c, hflatten, hc⟩ := flatten_before hlines hne
    rw [hflatten, beforeLastLineFeed_append hc (open_take hlines hn)]
    refine (trimEnd_append_blank ?_ front).symm
    rw [isLineFeed_iff.mp hc]
    simp [isWhitespace]

/-- A heading that ends before the cut is wholly inside the head. -/
theorem inside_of_before
    (hn : n < line.length) (hcut : answerCut answer = before.flatten.length + n) {place : ℕ}
    {heading : List Char} (hstands : Stands 0 before place heading)
    (hheading : isLearningsHeading heading = true) :
    outsideHead (answerHead answer) place heading = false := by
  have ⟨front, back, hbefore, hplace⟩ := hstands
  have hne : before ≠ [] := by simp [hbefore]
  have hsolid : trimEnd (front.flatten ++ trimEnd heading) = front.flatten ++ trimEnd heading :=
    trimEnd_append_of_ne_nil (List.rdropWhile_idempotent _ _) (trimEnd_ne_nil hheading) _
  have hprefix : front.flatten ++ trimEnd heading <+: before.flatten := by
    have ⟨blank, hblank⟩ := List.rdropWhile_prefix isWhitespace heading
    have hflatten : before.flatten = front.flatten ++ (heading ++ back.flatten) := by simp [hbefore]
    rw [hflatten]
    conv_rhs => rw [← hblank]
    simp [trimEnd]
  have hlength := length_trimEnd_mono hprefix
  rw [hsolid, List.length_append] at hlength
  rw [outsideHead, answerHead_eq hlines hn hcut, if_neg hne, decide_eq_false_iff_not]
  omega

/-- The heading in which the cut falls is inside the head only if it is the first line. -/
theorem outsideHead_cut
    (hn : n < line.length) (hcut : answerCut answer = before.flatten.length + n)
    (hheading : isLearningsHeading line = true) :
    outsideHead (answerHead answer) before.flatten.length line = true ↔
      ¬(before.flatten.length = 0 ∧ (trimEnd line).length ≤ answerCut answer) := by
  have hpos : 0 < (trimEnd line).length := List.length_pos_iff.mpr (trimEnd_ne_nil hheading)
  rw [outsideHead, answerHead_eq hlines hn hcut, decide_eq_true_eq, hcut]
  split
  case isTrue hnil =>
    subst hnil
    have hle : (trimEnd (line.take n)).length ≤ n :=
      (List.IsPrefix.length_le (List.rdropWhile_prefix _ _)).trans (List.length_take_le _ _)
    simp only [List.flatten_nil, List.length_nil, true_and]
    constructor
    · intro hlt
      by_contra hshort
      have hprefix : trimEnd line <+: line.take n :=
        List.prefix_take_iff.mpr ⟨List.rdropWhile_prefix _ _, by omega⟩
      have hmono := length_trimEnd_mono hprefix
      rw [show trimEnd (trimEnd line) = trimEnd line from List.rdropWhile_idempotent _ _] at hmono
      omega
    · intro hlt
      omega
  case isFalse hne =>
    have ⟨front, c, hflatten, _⟩ := flatten_before hlines hne
    have hle : (trimEnd before.flatten).length ≤ before.flatten.length :=
      List.IsPrefix.length_le (List.rdropWhile_prefix _ _)
    have hlength : 0 < before.flatten.length := by simp [hflatten]
    constructor
    · intro _
      omega
    · intro _
      omega

end

/-- The first heading behind the line in which the cut falls. -/
def headingAfter (start : ℕ) (after : List (List Char)) : Option ℕ :=
  findLine (fun _ line => isLearningsHeading line) start after

theorem learningsOffset_eq (hlines : answerLines answer = before ++ line :: after)
    (hn : n < line.length) (hcut : answerCut answer = before.flatten.length + n) :
    learningsOffset answer (answerCut answer) =
      if decide (n = 0) && isLearningsHeading line then some before.flatten.length
      else headingAfter (before.flatten.length + line.length) after := by
  have hbefore : findLine (fun start line => decide (answerCut answer ≤ start) &&
      isLearningsHeading line) 0 before = none := by
    refine findLine_eq_none fun place other ⟨front, back, heq, hplace⟩ => ?_
    have hother : other ≠ [] := by
      refine (@splitInclusive_spec _ isLineFeed answer other front (back ++ line :: after) ?_).1
      rw [← answerLines, hlines, heq]
      simp
    have hpos := List.length_pos_iff.mpr hother
    have hlength : before.flatten.length =
        front.flatten.length + (other.length + back.flatten.length) := by simp [heq]
    simp only [Bool.and_eq_false_iff, decide_eq_false_iff_not]
    omega
  have hafter : findLine (fun start line => decide (answerCut answer ≤ start) &&
      isLearningsHeading line) (before.flatten.length + line.length) after =
        headingAfter (before.flatten.length + line.length) after := by
    refine findLine_congr fun place other ⟨front, back, heq, hplace⟩ => ?_
    rw [decide_eq_true (by omega), Bool.true_and]
  rw [learningsOffset, hlines, findLine_append, hbefore, Option.none_or, findLine, Nat.zero_add,
    hafter, show decide (answerCut answer ≤ before.flatten.length) = decide (n = 0) from
      decide_eq_decide.mpr (by omega)]

theorem headingOutside_eq (hlines : answerLines answer = before ++ line :: after)
    (hn : n < line.length) (hcut : answerCut answer = before.flatten.length + n) :
    headingOutside answer =
      if isLearningsHeading line && outsideHead (answerHead answer) before.flatten.length line then
        some before.flatten.length
      else headingAfter (before.flatten.length + line.length) after := by
  have hbefore : findLine (fun start line => isLearningsHeading line &&
      outsideHead (answerHead answer) start line) 0 before = none := by
    refine findLine_eq_none fun place other hstands => ?_
    cases hheading : isLearningsHeading other with
    | false => rfl
    | true => rw [inside_of_before hlines hn hcut hstands hheading, Bool.and_false]
  have hafter : findLine (fun start line => isLearningsHeading line &&
      outsideHead (answerHead answer) start line) (before.flatten.length + line.length) after =
        headingAfter (before.flatten.length + line.length) after := by
    refine findLine_congr fun place other ⟨front, back, heq, hplace⟩ => ?_
    cases hheading : isLearningsHeading other with
    | false => rfl
    | true =>
      have hhead := length_answerHead_le answer
      rw [Bool.true_and, outsideHead, decide_eq_true_eq]
      omega
  rw [headingOutside, hlines, findLine_append, hbefore, Option.none_or, findLine, Nat.zero_add,
    hafter]

end Cut

theorem middle_ne_truncated (section_ : List Char) : middleTruncated ++ section_ ≠ truncated := by
  have hmiddle : middleTruncated.take 4 = ['\n', '\n', '(', '…'] := by rfl
  have htruncated : truncated.take 4 = ['\n', '\n', '(', 't'] := by rfl
  intro h
  have htake := congrArg (List.take 4) h
  rw [List.take_append_of_le_length (by decide)] at htake
  exact absurd htake (by decide)

/-- A long answer keeps its learnings exactly when the code finds the first heading that is
not wholly inside the head, or one that opens the same section. -/
theorem learnings_kept_iff {answer : List Char} :
    (match learningsOffset answer (answerCut answer) with
      | some start =>
        answerHead answer ++ middleTruncated ++ capLearningsSection (answer.drop start)
      | none => answerHead answer ++ truncated) =
      (match headingOutside answer with
      | some start =>
        answerHead answer ++ middleTruncated ++ capLearningsSection (answer.drop start)
      | none => answerHead answer ++ truncated) ↔
    (learningsOffset answer (answerCut answer)).map (fun start =>
        capLearningsSection (answer.drop start)) =
      (headingOutside answer).map fun start => capLearningsSection (answer.drop start) := by
  cases learningsOffset answer (answerCut answer) <;> cases headingOutside answer
  case none.none => simp
  case none.some start =>
    simpa [List.append_assoc] using (middle_ne_truncated _).symm
  case some.none start =>
    simpa [List.append_assoc] using middle_ne_truncated _
  case some.some => simp [List.append_assoc]

theorem length_capNoticeAnswer_le (answer : List Char) : (capNoticeAnswer answer).length ≤
    noticeAnswerChars + middleTruncated.length + noticeLearningsChars + truncated.length := by
  have hhead := (length_answerHead_le answer).trans (Nat.min_le_left noticeAnswerChars _)
  rw [capNoticeAnswer]
  split
  · omega
  · split
    case h_1 start _ =>
      have hsection := length_capLearningsSection_le (answer.drop start)
      rw [List.length_append, List.length_append]
      omega
    case h_2 =>
      rw [List.length_append]
      omega

theorem survives_iff {answer : List Char} : Survives answer ↔
    (noticeAnswerChars < answer.length →
      (learningsOffset answer (answerCut answer)).map (fun start =>
          capLearningsSection (answer.drop start)) =
        (headingOutside answer).map fun start => capLearningsSection (answer.drop start)) := by
  constructor
  · intro hsurvives h
    have hkept := hsurvives.learnings h
    rw [capNoticeAnswer, if_neg (Nat.not_le.mpr h)] at hkept
    exact learnings_kept_iff.mp hkept
  · intro hsame
    exact
      { whole := fun h => if_pos h
        head := (prefix_answerHead answer).trans (List.take_prefix _ _)
        learnings := fun h => by
          rw [capNoticeAnswer, if_neg (Nat.not_le.mpr h)]
          exact learnings_kept_iff.mpr (hsame h)
        bounded := length_capNoticeAnswer_le answer }

theorem cutSpares_iff {answer line : List Char} {start : ℕ}
    (h : lineAt (answerCut answer) 0 (answerLines answer) = some (start, line)) :
    CutSpares answer ↔ (isLearningsHeading line = true →
      start = answerCut answer ∨ start = 0 ∧ (trimEnd line).length ≤ answerCut answer ∨
        ∃ next, learningsOffset answer (answerCut answer) = some next ∧
          capLearningsSection (answer.drop next) = capLearningsSection (answer.drop start)) := by
  constructor
  · intro hspares hheading
    exact hspares start line h hheading
  · intro hspares start' line' h' hheading
    rw [h] at h'
    cases h'
    exact hspares hheading

/-- **The learnings survive the cap** exactly when the cut spares the heading: nothing is
lost unless the cut falls inside the line of a heading. -/
theorem learnings_survive_iff (answer : List Char) : Survives answer ↔ CutSpares answer := by
  rw [survives_iff]
  by_cases hlong : noticeAnswerChars < answer.length
  case neg =>
    -- no line holds the end of the answer
    have hcut : answerCut answer = answer.length := Nat.min_eq_right (Nat.not_lt.mp hlong)
    refine iff_of_true (fun h => absurd h hlong) fun start line hline => ?_
    have hlt := lt_of_lineAt hline
    rw [answerLines, flatten_splitInclusive] at hlt
    omega
  case pos =>
    have hcut : answerCut answer = noticeAnswerChars := Nat.min_eq_left (Nat.le_of_lt hlong)
    have hpos : 0 < answerCut answer := by simp [hcut, noticeAnswerChars]
    have hholds : answerCut answer < 0 + (answerLines answer).flatten.length := by
      rw [answerLines, flatten_splitInclusive]
      omega
    have ⟨before, line, after, hlines, hline, hle, hlt⟩ := exists_lineAt (Nat.zero_le _) hholds
    rw [Nat.zero_add] at hline hle hlt
    have ⟨n, hn⟩ := Nat.exists_eq_add_of_le hle
    have hcode := learningsOffset_eq hlines (show n < line.length by omega) hn
    have hclaim := headingOutside_eq hlines (show n < line.length by omega) hn
    rw [cutSpares_iff hline]
    generalize hs : before.flatten.length = s at *
    cases hheading : isLearningsHeading line with
    | false =>
      rw [hheading] at hcode
      rw [hheading] at hclaim
      simp [hcode, hclaim]
    | true =>
      have houtside := outsideHead_cut hlines (show n < line.length by omega)
        (hn.trans (by rw [hs])) hheading
      rw [hs] at houtside
      rw [hheading, Bool.and_true] at hcode
      rw [hheading, Bool.true_and] at hclaim
      by_cases hinside : s = 0 ∧ (trimEnd line).length ≤ answerCut answer
      case pos =>
        -- the heading is the first line and the head reaches its end
        rw [Bool.eq_false_iff.mpr (mt houtside.mp (not_not.mpr hinside))] at hclaim
        rw [decide_eq_false (show n ≠ 0 by omega)] at hcode
        simp [hcode, hclaim, hinside]
      case neg =>
        rw [houtside.mpr hinside, if_pos rfl] at hclaim
        by_cases hat : n = 0
        case pos =>
          rw [decide_eq_true hat] at hcode
          rw [hcode, hclaim]
          exact iff_of_true (fun _ => rfl) fun _ => .inl (by omega)
        case neg =>
          -- the code looks behind the line only
          have hs' : s ≠ answerCut answer := by omega
          simp [hlong, hclaim, hs', hinside]

/-- A line of `n` characters, and behind it a heading. -/
def headingBehind (n : ℕ) : List Char :=
  List.replicate n 'x' ++ '\n' :: "## Learnings for the arc\nKeep the lock.".toList

theorem answerLines_headingBehind (n : ℕ) : answerLines (headingBehind n) =
    [List.replicate n 'x' ++ ['\n']] ++ "## Learnings for the arc\n".toList ::
      ["Keep the lock.".toList] := by
  have hrest : splitInclusive isLineFeed "## Learnings for the arc\nKeep the lock.".toList =
      ["## Learnings for the arc\n".toList, "Keep the lock.".toList] := by rfl
  have hopen : ∀ c ∈ List.replicate n 'x', isLineFeed c = false := by
    intro c hc
    rw [List.eq_of_mem_replicate hc]
    rfl
  rw [answerLines, headingBehind, splitInclusive_line hopen rfl]
  rfl

theorem length_headingBehind (n : ℕ) : (headingBehind n).length = n + 40 := by
  have hrest : "## Learnings for the arc\nKeep the lock.".toList.length = 39 := by rfl
  rw [headingBehind, List.length_append, List.length_cons, List.length_replicate, hrest]

theorem not_survives_headingBehind (hn : n = 4090) : ¬Survives (headingBehind n) := by
  have hfront : [List.replicate n 'x' ++ ['\n']].flatten.length = n + 1 := by simp
  have hlong : noticeAnswerChars < (headingBehind n).length := by
    rw [length_headingBehind, noticeAnswerChars]
    omega
  have hcut : answerCut (headingBehind n) =
      [List.replicate n 'x' ++ ['\n']].flatten.length + 5 := by
    rw [answerCut, charOffset, length_headingBehind, noticeAnswerChars]
    omega
  have hfirst : ¬([List.replicate n 'x' ++ ['\n']].flatten.length = 0 ∧
      (trimEnd "## Learnings for the arc\n".toList).length ≤ answerCut (headingBehind n)) := by
    rw [hfront]
    exact fun h => Nat.succ_ne_zero n h.1
  have hinside : 5 < "## Learnings for the arc\n".toList.length := by decide
  have hheading : isLearningsHeading "## Learnings for the arc\n".toList = true := by rfl
  have hlines := answerLines_headingBehind n
  have houtside := (outsideHead_cut hlines hinside hcut hheading).mpr hfirst
  have hcode := learningsOffset_eq hlines hinside hcut
  have hclaim := headingOutside_eq hlines hinside hcut
  rw [houtside] at hclaim
  intro h
  have hkept := survives_iff.mp h hlong
  rw [hclaim, hcode] at hkept
  cases hkept

theorem learnings_cut_off : ¬∀ answer, Survives answer := by
  intro h
  exact not_survives_headingBehind rfl (h (headingBehind 4090))

end Argmax.Providers.CompletionNotices
