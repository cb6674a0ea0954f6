import Argmax.Approvals.DangerousActionPolicy

/-!
# The risk of commands in sequence

Two commands joined by a separator run one after the other, so the joined command
should be classified at least as high as either. The patterns search the whole text
and find in it whatever they found in a part. The two checks of one segment do not:
they look behind the first `rm ` or `git push` only, and a harmless one in front
hides a forced one behind it.

## Main results

* `Probe.hit_joined`: which of the two commands such a check sees.
* `otherHighRisk_joined_left`, `otherHighRisk_joined_right`: the patterns keep their
  matches.
* `neverDrops_iff`: the risk is kept exactly when no forced removal or push of the
  second command is hidden in this way.
-/

namespace Argmax.Approvals

open Argmax.Lib.Text Argmax.Lib.Search

/-! ## The first occurrence -/

variable {needle blank command : List Char} {c sep : Char}

theorem find_cons_of_head (hne : needle ≠ []) (h : needle.head? ≠ some c) (text : List Char) :
    find needle (c :: text) = (find needle text).map (· + 1) := by
  cases needle with
  | nil => exact absurd rfl hne
  | cons d needle =>
    have hdc : (d == c) = false := by simpa using h
    simp [find, List.isPrefixOf, hdc]

theorem isPrefixOf_append_cons (h : sep ∉ needle) (text rest : List Char) :
    needle.isPrefixOf (text ++ sep :: rest) = needle.isPrefixOf text := by
  induction text generalizing needle with
  | nil =>
    cases needle with
    | nil => simp
    | cons d needle =>
      have hd : (d == sep) = false := by
        simp only [List.mem_cons, not_or] at h
        simpa using fun hd => h.1 hd.symm
      simp [List.isPrefixOf, hd]
  | cons c text ih =>
    cases needle with
    | nil => simp
    | cons d needle =>
      simp only [List.mem_cons, not_or] at h
      simp [List.isPrefixOf, ih h.2]

/-- A needle without the separator lies on one side of it. -/
theorem find_append_cons (hne : needle ≠ []) (h : sep ∉ needle) (text rest : List Char) :
    find needle (text ++ sep :: rest) =
      (find needle text).or ((find needle rest).map (· + (text.length + 1))) := by
  induction text with
  | nil =>
    have hhead : needle.head? ≠ some sep := fun hsep => h (List.mem_of_mem_head? hsep)
    have hnil : find needle [] = none := by simp [find, hne]
    rw [List.nil_append, find_cons_of_head hne hhead, hnil]
    simp
  | cons c text ih =>
    have hpre := isPrefixOf_append_cons h (c :: text) rest
    simp only [List.cons_append] at hpre ⊢
    rw [find, find, hpre, ih]
    by_cases hp : needle.isPrefixOf (c :: text) = true
    · simp [hp]
    · cases find needle text <;> cases find needle rest <;> simp [hp, Nat.add_assoc]

theorem find_length {text : List Char} {i : ℕ} (h : find needle text = some i) :
    i + needle.length ≤ text.length := by
  induction text generalizing i with
  | nil =>
    by_cases hne : needle = []
    · simp only [find, hne, List.isEmpty_nil, if_true, Option.some.injEq] at h
      simp [← h, hne]
    · simp [find, hne] at h
  | cons c text ih =>
    rw [find] at h
    by_cases hp : needle.isPrefixOf (c :: text) = true
    · simp only [hp, if_true, Option.some.injEq] at h
      have hle := (List.isPrefixOf_iff_prefix.mp hp).length_le
      omega
    · cases hrest : find needle text with
      | none => simp [hp, hrest] at h
      | some j =>
        simp only [hp, hrest, Bool.false_eq_true, if_false, Option.map_some, Option.some.injEq] at h
        have hle := ih hrest
        simp only [List.length_cons]
        omega

/-! ## Lower case, words and separators -/

theorem isWhitespace_toLower (c : Char) : isWhitespace c.toLower = isWhitespace c := by
  by_cases h : c.val ≥ 'A'.val ∧ c.val ≤ 'Z'.val
  · have hle : 65 ≤ c.toNat ∧ c.toNat ≤ 90 := by
      simpa [UInt32.le_iff_toNat_le] using h
    have hlow : c.toLower.toNat = c.toNat + 32 := by
      delta Char.toLower
      rw [dif_pos h]
      change (c.val + 32).toNat = c.val.toNat + 32
      rw [UInt32.toNat_add]
      change 65 ≤ c.val.toNat ∧ c.val.toNat ≤ 90 at hle
      simp only [UInt32.reduceToNat]
      omega
    rw [Bool.eq_iff_iff]
    simp only [isWhitespace, hlow, Bool.or_eq_true, Bool.and_eq_true, decide_eq_true_eq, beq_iff_eq]
    omega
  · delta Char.toLower
    rw [dif_neg h]

theorem toAsciiLowercase_append (text rest : List Char) :
    toAsciiLowercase (text ++ rest) = toAsciiLowercase text ++ toAsciiLowercase rest := by
  simp [toAsciiLowercase]

@[simp] theorem toAsciiLowercase_cons (c : Char) (text : List Char) :
    toAsciiLowercase (c :: text) = c.toLower :: toAsciiLowercase text := by
  simp [toAsciiLowercase]

@[simp] theorem length_toAsciiLowercase (text : List Char) :
    (toAsciiLowercase text).length = text.length := by
  simp [toAsciiLowercase]

theorem toLower_separator (h : isShellSeparator c = true) : c.toLower = c := by
  simp only [isShellSeparator, Bool.or_eq_true, beq_iff_eq] at h
  rcases h with ((rfl | rfl) | rfl) | rfl <;> rfl

theorem untilShellSeparator_append (h : isShellSeparator sep = true) (text rest : List Char) :
    untilShellSeparator (text ++ sep :: rest) = untilShellSeparator text := by
  induction text with
  | nil => simp [untilShellSeparator, h]
  | cons c text ih =>
    simp only [untilShellSeparator] at ih
    by_cases hc : isShellSeparator c = true <;> simp [untilShellSeparator, hc, ih]

theorem splitWhitespace_append_blank (h : ∀ c ∈ blank, isWhitespace c = true) (text : List Char) :
    splitWhitespace (text ++ blank) = splitWhitespace text := by
  induction blank generalizing text with
  | nil => simp
  | cons c blank ih =>
    have hsplit : splitWhitespace (text ++ [c]) = splitWhitespace text := by
      rw [splitWhitespace, List.splitOnP_append_cons _ _ (h c (by simp))]
      simp [splitWhitespace]
    rw [← List.singleton_append, ← List.append_assoc,
      ih (fun d hd => h d (List.mem_cons_of_mem _ hd)), hsplit]

theorem splitWhitespace_blank (h : ∀ c ∈ blank, isWhitespace c = true) :
    splitWhitespace blank = [] := by
  have hblank := splitWhitespace_append_blank h []
  simpa [splitWhitespace] using hblank

/-- White space at the end of a text stays at the end of its first segment, or is
not part of it. -/
theorem splitWhitespace_until_append (h : ∀ c ∈ blank, isWhitespace c = true) (text : List Char) :
    splitWhitespace (untilShellSeparator (text ++ blank)) =
      splitWhitespace (untilShellSeparator text) := by
  rw [untilShellSeparator, untilShellSeparator, List.takeWhile_append]
  split
  · rename_i hall
    rw [(List.takeWhile_prefix _).eq_of_length hall]
    refine splitWhitespace_append_blank ?_ text
    intro c hc
    exact h c ((List.takeWhile_sublist _).subset hc)
  · rfl

/-! ## A check of one segment -/

/-- A character that may stand between two commands. -/
def isJoint (c : Char) : Bool := isWhitespace c || isShellSeparator c

/-- A check of the words behind the first occurrence of a needle. The segment
starts `skip` characters into the needle, which has only white space from there on,
and the check rejects an empty one. -/
structure Probe where
  needle : List Char
  skip : ℕ
  flags : List (List Char) → Bool
  starts : ∃ c rest, needle = c :: rest ∧ isJoint c = false
  unseparated : ∀ c ∈ needle, isShellSeparator c = false
  solid : ∃ front c, needle.take skip = front ++ [c] ∧ isWhitespace c = false
  blank : ∀ c ∈ needle.drop skip, isWhitespace c = true
  skip_le : skip ≤ needle.length
  quiet : flags [] = false

namespace Probe

variable (probe : Probe)

/-- The segment behind the first occurrence passes the check. -/
def hit (command : List Char) : Bool :=
  match find probe.needle (toAsciiLowercase command) with
  | none => false
  | some i => probe.flags (splitWhitespace (untilShellSeparator (command.drop (i + probe.skip))))

/-- The needle occurs. -/
def occurs (command : List Char) : Bool :=
  (find probe.needle (toAsciiLowercase command)).isSome

theorem needle_ne_nil : probe.needle ≠ [] := by
  have ⟨c, rest, h, _⟩ := probe.starts
  simp [h]

theorem head_joint (h : isJoint c = true) : probe.needle.head? ≠ some c.toLower := by
  have ⟨d, rest, hneedle, hd⟩ := probe.starts
  rw [hneedle]
  intro heq
  have hdc : d = c.toLower := by simpa using heq
  rw [isJoint, Bool.or_eq_true] at h
  rw [isJoint, hdc, isWhitespace_toLower] at hd
  rcases h with h | h
  · simp [h] at hd
  · rw [toLower_separator h] at hd
    simp [h] at hd

/-- A check does not see what only stands between commands. -/
theorem hit_joint_cons (h : isJoint c = true) (command : List Char) :
    probe.hit (c :: command) = probe.hit command := by
  rw [hit, hit, toAsciiLowercase_cons, find_cons_of_head probe.needle_ne_nil (probe.head_joint h)]
  cases find probe.needle (toAsciiLowercase command) with
  | none => rfl
  | some i => simp [Nat.add_right_comm]

theorem hit_joint_append {joint : List Char} (h : ∀ c ∈ joint, isJoint c = true)
    (command : List Char) : probe.hit (joint ++ command) = probe.hit command := by
  induction joint with
  | nil => rfl
  | cons c joint ih =>
    rw [List.cons_append, hit_joint_cons probe (h c (by simp)),
      ih fun d hd => h d (List.mem_cons_of_mem _ hd)]

/-- Where the needle occurs before a separator, the check stays in front of it;
otherwise it looks behind. -/
theorem hit_append_separator (hsep : isShellSeparator sep = true) (command rest : List Char) :
    probe.hit (command ++ sep :: rest) =
      if probe.occurs command then probe.hit command else probe.hit rest := by
  have hnot : sep ∉ probe.needle := by
    intro hmem
    simp [probe.unseparated sep hmem] at hsep
  rw [hit, occurs, toAsciiLowercase_append, toAsciiLowercase_cons, toLower_separator hsep,
    find_append_cons probe.needle_ne_nil hnot]
  cases hfind : find probe.needle (toAsciiLowercase command) with
  | some i =>
    have hlen := find_length hfind
    have hskip := probe.skip_le
    rw [length_toAsciiLowercase] at hlen
    simp only [Option.some_or, Option.isSome_some, if_true, hit, hfind]
    rw [List.drop_append_of_le_length (by omega), untilShellSeparator_append hsep]
  | none =>
    simp only [Option.none_or, Option.isSome_none, Bool.false_eq_true, if_false, hit,
      length_toAsciiLowercase]
    cases find probe.needle (toAsciiLowercase rest) with
    | none => rfl
    | some j =>
      simp only [Option.map_some]
      rw [show j + (command.length + 1) + probe.skip =
        command.length + (1 + (j + probe.skip)) by omega, List.drop_length_add_append,
        Nat.add_comm 1, List.drop_succ_cons]

/-- A needle that reaches from a text into the white space behind it leaves only
white space to check. -/
theorem blank_of_prefix (h : ∀ c ∈ blank, isWhitespace c = true)
    (hin : probe.needle <+: toAsciiLowercase (command ++ blank))
    (hout : ¬probe.needle <+: toAsciiLowercase command) :
    ∀ c ∈ (command ++ blank).drop probe.skip, isWhitespace c = true := by
  rw [toAsciiLowercase_append] at hin
  have ⟨rest, hneedle⟩ : toAsciiLowercase command <+: probe.needle :=
    (List.prefix_or_prefix_of_prefix hin (List.prefix_append _ _)).resolve_left hout
  have hrest : rest <+: toAsciiLowercase blank := by
    rwa [← hneedle, List.prefix_append_right_inj] at hin
  have hwhite : ∀ c ∈ rest, isWhitespace c = true := by
    intro c hc
    have ⟨d, hd, hdc⟩ := List.mem_map.mp (hrest.subset hc)
    rw [← hdc, isWhitespace_toLower]
    exact h d hd
  have hlen : probe.skip ≤ command.length := by
    by_contra hlt
    have ⟨front, c, hsolid, hc⟩ := probe.solid
    rw [← hneedle, List.take_append, List.take_of_length_le (by simp; omega),
      length_toAsciiLowercase] at hsolid
    rcases List.eq_nil_or_concat (rest.take (probe.skip - command.length)) with
      hlast | ⟨init, d, hlast⟩
    · have hnil : rest = [] := by
        rcases List.take_eq_nil_iff.mp hlast with hzero | hnil
        · omega
        · exact hnil
      rw [hnil, List.append_nil] at hneedle
      exact hout (hneedle ▸ List.prefix_refl _)
    · rw [hlast, List.concat_eq_append, ← List.append_assoc] at hsolid
      have hcd : c = d := by simpa using (List.append_inj_right' hsolid rfl).symm
      have hd : d ∈ rest :=
        (List.take_sublist (probe.skip - command.length) rest).subset (by simp [hlast])
      simp [hcd, hwhite d hd] at hc
  intro c hc
  rw [List.drop_append_of_le_length hlen, List.mem_append] at hc
  rcases hc with hc | hc
  · rw [← isWhitespace_toLower]
    refine probe.blank _ ?_
    rw [← hneedle, List.drop_append_of_le_length (by simpa using hlen), List.mem_append,
      toAsciiLowercase, ← List.map_drop]
    exact Or.inl (List.mem_map_of_mem hc)
  · exact h c hc

/-- White space behind a text adds no occurrence, except one with nothing but white
space in its segment. -/
theorem find_append_blank (h : ∀ c ∈ blank, isWhitespace c = true) (command : List Char) :
    find probe.needle (toAsciiLowercase (command ++ blank)) =
        find probe.needle (toAsciiLowercase command) ∨
      find probe.needle (toAsciiLowercase command) = none ∧
        ∃ i, find probe.needle (toAsciiLowercase (command ++ blank)) = some i ∧
          ∀ c ∈ (command ++ blank).drop (i + probe.skip), isWhitespace c = true := by
  induction command with
  | nil =>
    refine Or.inl ?_
    induction blank with
    | nil => rfl
    | cons c blank ih =>
      have hhead := probe.head_joint (show isJoint c = true by simp [isJoint, h c])
      have hrest := ih fun d hd => h d (List.mem_cons_of_mem _ hd)
      simp only [List.nil_append] at hrest ⊢
      rw [toAsciiLowercase_cons, find_cons_of_head probe.needle_ne_nil hhead, hrest]
      simp [toAsciiLowercase, find, probe.needle_ne_nil]
  | cons c command ih =>
    rw [List.cons_append, toAsciiLowercase_cons, toAsciiLowercase_cons, find, find]
    by_cases hp : probe.needle.isPrefixOf (c.toLower :: toAsciiLowercase command) = true
    · have hq : probe.needle.isPrefixOf
          (c.toLower :: toAsciiLowercase (command ++ blank)) = true := by
        rw [List.isPrefixOf_iff_prefix, toAsciiLowercase_append] at *
        exact hp.trans (List.prefix_append (c.toLower :: toAsciiLowercase command) _)
      simp [hp, hq]
    · by_cases hq : probe.needle.isPrefixOf
          (c.toLower :: toAsciiLowercase (command ++ blank)) = true
      · have hin : probe.needle <+: toAsciiLowercase (c :: command ++ blank) :=
          List.isPrefixOf_iff_prefix.mp hq
        have hout : ¬probe.needle <+: toAsciiLowercase (c :: command) :=
          fun hout => hp (List.isPrefixOf_iff_prefix.mpr hout)
        -- the needle is longer than the text, so no later place has it either
        have hnone : find probe.needle (toAsciiLowercase command) = none := by
          cases hat : find probe.needle (toAsciiLowercase command) with
          | none => rfl
          | some i =>
            have hlen := find_length hat
            rw [toAsciiLowercase_append] at hin
            refine absurd (List.prefix_of_prefix_length_le hin (List.prefix_append _ _) ?_) hout
            simp only [toAsciiLowercase_cons, List.length_cons]
            omega
        refine Or.inr ⟨by simp [hp, hnone], 0, by simp [hq], ?_⟩
        simpa using probe.blank_of_prefix h hin hout
      · simp only [hp, hq]
        rcases ih with ih | ⟨hnone, i, hsome, hblank⟩
        · simp [ih]
        · refine Or.inr ⟨by simp [hnone], i + 1, by simp [hsome], ?_⟩
          simpa [Nat.add_right_comm] using hblank

theorem hit_append_blank (h : ∀ c ∈ blank, isWhitespace c = true) (command : List Char) :
    probe.hit (command ++ blank) = probe.hit command := by
  have hfind := probe.find_append_blank h command
  rw [hit, hit]
  rcases hfind with hfind | ⟨hnone, i, hsome, hblank⟩
  · rw [hfind]
    cases hat : find probe.needle (toAsciiLowercase command) with
    | none => rfl
    | some i =>
      have hlen := find_length hat
      have hskip := probe.skip_le
      rw [length_toAsciiLowercase] at hlen
      simp only
      rw [List.drop_append_of_le_length (by omega), splitWhitespace_until_append h]
  · rw [hnone, hsome]
    have hsegment : splitWhitespace (untilShellSeparator
        ((command ++ blank).drop (i + probe.skip))) = [] := by
      refine splitWhitespace_blank ?_
      intro c hc
      exact hblank c ((List.takeWhile_sublist _).subset hc)
    simp [hsegment, probe.quiet]

end Probe

theorem unseparated_of_any {text : List Char} (h : text.any isShellSeparator = false) :
    ∀ c ∈ text, isShellSeparator c = false := by
  simpa using h

/-- The flags of every word of the segment, taken together. -/
def rmProbe : Probe where
  needle := ['r', 'm', ' ']
  skip := 2
  flags tokens :=
    let flags := tokens.foldl rmFlag (false, false)
    flags.1 && flags.2
  starts := ⟨'r', ['m', ' '], rfl, rfl⟩
  unseparated := unseparated_of_any rfl
  solid := ⟨['r'], 'm', rfl, rfl⟩
  blank := List.all_eq_true.mp rfl
  skip_le := by decide
  quiet := rfl

def pushProbe : Probe where
  needle := "git push".toList
  skip := 8
  flags tokens := tokens.any fun token =>
    eqIgnoreAsciiCase token "--force" || eqIgnoreAsciiCase token "-f" ||
      eqIgnoreAsciiCase token "--mirror"
  starts := ⟨'g', "it push".toList, rfl, rfl⟩
  unseparated := unseparated_of_any rfl
  solid := ⟨"git pus".toList, 'h', rfl, rfl⟩
  blank := List.all_eq_true.mp rfl
  skip_le := by decide
  quiet := rfl

theorem rmRecursiveForced_eq (command : List Char) :
    rmRecursiveForced command = rmProbe.hit command := by
  have hneedle : "rm".toList ++ [' '] = rmProbe.needle := rfl
  rw [rmRecursiveForced, commandSegmentAfter, Probe.hit, hneedle]
  cases find rmProbe.needle (toAsciiLowercase command) with
  | some i => rfl
  | none =>
    -- the bare word leaves an empty segment
    by_cases hbare : toAsciiLowercase command = "rm".toList
    · have hdrop : command.drop (0 + "rm".toList.length) = [] := by
        refine List.drop_of_length_le ?_
        rw [← length_toAsciiLowercase, hbare]
        rfl
      simp only [if_pos hbare, Option.or_some, Option.getD_none, Option.bind_eq_bind,
        Option.bind_some, hdrop]
      rfl
    · rw [if_neg hbare]
      rfl

theorem gitPushForce_eq (command : List Char) : gitPushForce command = pushProbe.hit command := by
  have hneedle : "git".toList ++ [' '] ++ "push".toList = pushProbe.needle := rfl
  rw [gitPushForce, commandSegmentAfterTwoWords, Probe.hit, hneedle]
  cases find pushProbe.needle (toAsciiLowercase command) <;> rfl

/-! ## Commands in sequence -/

/-- A separator with what may stand around it: blanks before, and blanks or further
separators behind, as in `&&`. -/
structure Separator where
  blank : List Char
  sep : Char
  gap : List Char
  blank_white : ∀ c ∈ blank, isWhitespace c = true
  sep_separates : isShellSeparator sep = true
  gap_joint : ∀ c ∈ gap, isJoint c = true

/-- `a <sep> b`. -/
def Separator.join (sep : Separator) (a b : List Char) : List Char :=
  a ++ sep.blank ++ sep.sep :: (sep.gap ++ b)

theorem Probe.hit_trim (probe : Probe) (command : List Char) :
    probe.hit (trim command) = probe.hit command := by
  have ⟨front, back, htext, hfront, hback⟩ := exists_trim command
  conv_rhs => rw [htext]
  rw [probe.hit_append_blank hback, probe.hit_joint_append]
  intro c hc
  simp [isJoint, hfront c hc]

/-- **A check sees the first command where its needle occurs there, and the second
command otherwise.** -/
theorem Probe.hit_joined (probe : Probe) (sep : Separator) (a b : List Char) :
    probe.hit (trim (sep.join a b)) =
      if probe.occurs (a ++ sep.blank) then probe.hit (trim a) else probe.hit (trim b) := by
  rw [probe.hit_trim, probe.hit_trim, probe.hit_trim, Separator.join,
    probe.hit_append_separator sep.sep_separates, probe.hit_append_blank sep.blank_white,
    probe.hit_joint_append sep.gap_joint]

/-- A check that answers has found its needle. -/
theorem Probe.occurs_of_hit {probe : Probe} {sep : Separator} {a : List Char}
    (h : probe.hit (trim a) = true) : probe.occurs (a ++ sep.blank) = true := by
  rw [probe.hit_trim, ← probe.hit_append_blank sep.blank_white, Probe.hit] at h
  rw [Probe.occurs]
  cases hfind : find probe.needle (toAsciiLowercase (a ++ sep.blank)) with
  | none => simp [hfind] at h
  | some i => rfl

/-! ## Where the trimmed parts lie -/

/-- The trimmed first part leads the trimmed whole. -/
theorem exists_trim_append {a rest : List Char} (hne : trim a ≠ [])
    (hrest : ∀ c, rest.head? = some c → isJoint c = true) :
    ∃ ext, trim (a ++ rest) = trim a ++ ext ∧ ∀ c, ext.head? = some c → isJoint c = true := by
  obtain ⟨front, back, htext, hfront, hback⟩ := exists_trim a
  refine ⟨trimEnd (back ++ rest), ?_, ?_⟩
  · conv_lhs => rw [htext]
    rw [List.append_assoc, List.append_assoc, trim_blank_append hfront, trim, trimStart,
      List.dropWhile_append, ← trimStart, trimStart_trim]
    simp only [List.isEmpty_iff, hne]
    exact trimEnd_append_of_solid (trimEnd_trim a) _
  · intro c hc
    have hhead : (back ++ rest).head? = some c := by
      have hprefix : trimEnd (back ++ rest) <+: back ++ rest := List.rdropWhile_prefix _ _
      obtain ⟨tail, htail⟩ := hprefix
      rw [← htail, List.head?_append, hc]
      rfl
    cases back with
    | nil => exact hrest c (by simpa using hhead)
    | cons d back =>
      have hdc : d = c := by simpa using hhead
      simp [isJoint, ← hdc, hback d (by simp)]

/-- The trimmed second part ends the trimmed whole. -/
theorem exists_append_trim {front b : List Char} (hne : trim b ≠ [])
    (hfront : ∀ c, front.getLast? = some c → isJoint c = true) :
    ∃ ext, trim (front ++ b) = ext ++ trim b ∧ ∀ c, ext.getLast? = some c → isJoint c = true := by
  obtain ⟨lead, back, htext, hlead, hback⟩ := exists_trim b
  refine ⟨trimStart (front ++ lead), ?_, ?_⟩
  · conv_lhs => rw [htext]
    rw [← List.append_assoc, trim_append_blank hback, ← List.append_assoc, trim, trimStart,
      List.dropWhile_append, ← trimStart, ← trimStart, trimStart_trim]
    split
    · rename_i hempty
      rw [List.isEmpty_iff.mp hempty, trimEnd_trim, List.nil_append]
    · exact trimEnd_append_of_ne_nil (trimEnd_trim b) hne _
  · intro c hc
    have hlast : (front ++ lead).getLast? = some c := by
      have hsuffix : trimStart (front ++ lead) <:+ front ++ lead := List.dropWhile_suffix _
      obtain ⟨init, hinit⟩ := hsuffix
      rw [← hinit, List.getLast?_append, hc]
      rfl
    rcases List.eq_nil_or_concat lead with rfl | ⟨init, d, rfl⟩
    · exact hfront c (by simpa using hlast)
    · have hdc : d = c := by simpa [← List.append_assoc] using hlast
      simp [isJoint, ← hdc, hlead d (by simp)]

/-! ## The patterns -/

section

variable {word : WordClass}

/-- The pattern may start behind a separator or white space. -/
def OpensAtJoint (p : Pattern) : Prop := ∀ c, isJoint c = true → p.opens (some c) = true

theorem isWord_joint (h : isJoint c = true) : word.isWord c = false := by
  rw [isJoint, Bool.or_eq_true] at h
  rcases h with h | h
  · exact word.whitespace c h
  · exact word.separator c h

theorem wordAt_joint {at_ : Option Char} (h : ∀ c, at_ = some c → isJoint c = true) :
    wordAt word.isWord at_ = false := by
  cases at_ with
  | none => rfl
  | some c => exact isWord_joint (h c rfl)

theorem opensAtJoint_commandStart (h : isJoint c = true) : commandStart c = true := by
  simp only [isJoint, isShellSeparator, Bool.or_eq_true, beq_iff_eq] at h
  rcases h with h | ((rfl | rfl) | rfl) | rfl
  · simp [commandStart, h]
  all_goals rfl

theorem opensAtJoint_high {item : PatternDecision} (h : item ∈ HIGH_RISK_PATTERNS) :
    OpensAtJoint item.pattern := by
  intro c hc
  have hstart := opensAtJoint_commandStart hc
  simp only [HIGH_RISK_PATTERNS, List.mem_cons, List.not_mem_nil, or_false] at h
  rcases h with rfl | rfl | rfl | rfl | rfl | rfl | rfl | rfl | rfl | rfl | rfl | rfl | rfl |
    rfl | rfl
  all_goals first | rfl | exact hstart

theorem opensAtJoint_medium {item : PatternDecision} (h : item ∈ MEDIUM_RISK_PATTERNS) :
    OpensAtJoint item.pattern := by
  intro c _
  simp only [MEDIUM_RISK_PATTERNS, List.mem_cons, List.not_mem_nil, or_false] at h
  rcases h with rfl | rfl | rfl | rfl | rfl | rfl | rfl <;> rfl

variable (sep : Separator) {a b : List Char} {p : Pattern}

/-- What a pattern finds in the first command it finds in both. -/
theorem isMatch_joined_left (hne : trim a ≠ [])
    (h : p.isMatch word.isWord (trim a) = true) :
    p.isMatch word.isWord (trim (sep.join a b)) = true := by
  have hhead : ∀ c, (sep.blank ++ sep.sep :: (sep.gap ++ b)).head? = some c →
      isJoint c = true := by
    intro c hc
    cases hblank : sep.blank with
    | nil =>
      have hsep : sep.sep = c := by simpa [hblank] using hc
      simp [isJoint, ← hsep, sep.sep_separates]
    | cons d blank =>
      have hdc : d = c := by simpa [hblank] using hc
      simp [isJoint, ← hdc, sep.blank_white d (by simp [hblank])]
  have ⟨ext, hjoin, hext⟩ := exists_trim_append hne hhead
  rw [Separator.join, List.append_assoc, hjoin]
  have hwhole : p.isMatch word.isWord ([] ++ trim a ++ ext) = true :=
    p.isMatch_infix (wordAt_joint hext) rfl (by simp) h
  rwa [List.nil_append] at hwhole

/-- What a pattern finds in the second command it finds in both. -/
theorem isMatch_joined_right (hp : OpensAtJoint p) (hne : trim b ≠ [])
    (h : p.isMatch word.isWord (trim b) = true) :
    p.isMatch word.isWord (trim (sep.join a b)) = true := by
  have hlast : ∀ c, (a ++ sep.blank ++ sep.sep :: sep.gap).getLast? = some c →
      isJoint c = true := by
    intro c hc
    have hmem : c ∈ sep.sep :: sep.gap := by
      rw [List.getLast?_append_cons] at hc
      exact List.mem_of_getLast? hc
    rcases List.mem_cons.mp hmem with rfl | hmem
    · simp [isJoint, sep.sep_separates]
    · exact sep.gap_joint c hmem
  have ⟨ext, hjoin, hext⟩ := exists_append_trim hne hlast
  have hopens : p.opens ext.getLast? = true := by
    cases hc : ext.getLast? with
    | none => simp
    | some c => exact hp c (hext c hc)
  have hwhole : sep.join a b = a ++ sep.blank ++ sep.sep :: sep.gap ++ b := by
    simp [Separator.join]
  rw [hwhole, hjoin, ← List.append_nil (ext ++ trim b)]
  exact p.isMatch_infix rfl (wordAt_joint hext) hopens h

/-! ## The level of a joined command -/

variable (word)

/-- Some rule of high risk applies besides the checks of one segment. -/
def otherHighRisk (command : List Char) : Bool :=
  wouldTerminateArgmaxHost word command || (firstMatch word HIGH_RISK_PATTERNS command).isSome

def mediumRisk (command : List Char) : Bool :=
  (firstMatch word MEDIUM_RISK_PATTERNS command).isSome

/-- A forced removal or a forced push. -/
def forced (command : List Char) : Bool := rmRecursiveForced command || gitPushForce command

theorem classify_level (command : List Char) :
    (classifyCommandRisk word command).riskLevel =
      if forced (trim command) || otherHighRisk word (trim command) then .high
      else if mediumRisk word (trim command) then .medium
      else .low := by
  rw [classifyCommandRisk, forced, otherHighRisk, mediumRisk]
  by_cases hrm : rmRecursiveForced (trim command) = true
  · simp [hrm, high]
  by_cases hpush : gitPushForce (trim command) = true
  · simp [hrm, hpush, high]
  by_cases hhost : wouldTerminateArgmaxHost word (trim command) = true
  · simp [hrm, hpush, hhost, high]
  · cases hhigh : firstMatch word HIGH_RISK_PATTERNS (trim command) with
    | some item => simp [hrm, hpush, hhost, high]
    | none =>
      cases firstMatch word MEDIUM_RISK_PATTERNS (trim command) <;>
        simp [hrm, hpush, hhost, medium]

variable {word}

theorem firstMatch_isSome_iff {items : List PatternDecision} {text : List Char} :
    (firstMatch word items text).isSome = true ↔
      ∃ item ∈ items, item.pattern.isMatch word.isWord text = true := by
  rw [firstMatch, List.find?_isSome]

theorem otherHighRisk_iff :
    otherHighRisk word (trim command) = true ↔
      (QUIT_ARGMAX_APP.isMatch word.isWord (trim command) = true ∨
        TELL_ARGMAX_TO_QUIT.isMatch word.isWord (trim command) = true ∨
        KILL_ARGMAX_PROCESS.isMatch word.isWord (trim command) = true) ∨
      ∃ item ∈ HIGH_RISK_PATTERNS, item.pattern.isMatch word.isWord (trim command) = true := by
  simp [otherHighRisk, wouldTerminateArgmaxHost, ← firstMatch_isSome_iff, or_assoc]

theorem trim_ne_nil_of_otherHighRisk (h : otherHighRisk word (trim command) = true) :
    trim command ≠ [] := by
  intro hnil
  have hquiet : otherHighRisk word [] = false := rfl
  simp [hnil, hquiet] at h

theorem trim_ne_nil_of_mediumRisk (h : mediumRisk word (trim command) = true) :
    trim command ≠ [] := by
  intro hnil
  have hquiet : mediumRisk word [] = false := rfl
  simp [hnil, hquiet] at h

theorem opensAtJoint_host {p : Pattern}
    (h : p = QUIT_ARGMAX_APP ∨ p = TELL_ARGMAX_TO_QUIT ∨ p = KILL_ARGMAX_PROCESS) :
    OpensAtJoint p := by
  intro c _
  rcases h with rfl | rfl | rfl <;> rfl

/-- The patterns of high risk keep what they find in either command. -/
theorem otherHighRisk_joined
    (h : otherHighRisk word (trim a) = true ∨ otherHighRisk word (trim b) = true) :
    otherHighRisk word (trim (sep.join a b)) = true := by
  rcases h with h | h
  · have hkeep : ∀ p : Pattern, p.isMatch word.isWord (trim a) = true →
        p.isMatch word.isWord (trim (sep.join a b)) = true :=
      fun p => isMatch_joined_left sep (trim_ne_nil_of_otherHighRisk h)
    rw [otherHighRisk_iff] at h ⊢
    rcases h with (h | h | h) | ⟨item, hitem, h⟩
    · exact Or.inl (Or.inl (hkeep _ h))
    · exact Or.inl (Or.inr (Or.inl (hkeep _ h)))
    · exact Or.inl (Or.inr (Or.inr (hkeep _ h)))
    · exact Or.inr ⟨item, hitem, hkeep _ h⟩
  · have hkeep : ∀ p : Pattern, OpensAtJoint p → p.isMatch word.isWord (trim b) = true →
        p.isMatch word.isWord (trim (sep.join a b)) = true :=
      fun p hp => isMatch_joined_right sep hp (trim_ne_nil_of_otherHighRisk h)
    rw [otherHighRisk_iff] at h ⊢
    rcases h with (h | h | h) | ⟨item, hitem, h⟩
    · exact Or.inl (Or.inl (hkeep _ (opensAtJoint_host (by simp)) h))
    · exact Or.inl (Or.inr (Or.inl (hkeep _ (opensAtJoint_host (by simp)) h)))
    · exact Or.inl (Or.inr (Or.inr (hkeep _ (opensAtJoint_host (by simp)) h)))
    · exact Or.inr ⟨item, hitem, hkeep _ (opensAtJoint_high hitem) h⟩

/-- So do the patterns of medium risk. -/
theorem mediumRisk_joined
    (h : mediumRisk word (trim a) = true ∨ mediumRisk word (trim b) = true) :
    mediumRisk word (trim (sep.join a b)) = true := by
  rcases h with h | h
  · have hne := trim_ne_nil_of_mediumRisk h
    rw [mediumRisk, firstMatch_isSome_iff] at h ⊢
    have ⟨item, hitem, hmatch⟩ := h
    exact ⟨item, hitem, isMatch_joined_left sep hne hmatch⟩
  · have hne := trim_ne_nil_of_mediumRisk h
    rw [mediumRisk, firstMatch_isSome_iff] at h ⊢
    have ⟨item, hitem, hmatch⟩ := h
    exact ⟨item, hitem, isMatch_joined_right sep (opensAtJoint_medium hitem) hne hmatch⟩

/-- A check of one segment sees the second command: it fires there, and its needle
does not occur before the separator. -/
def SecondSeen (a b : List Char) : Prop :=
  rmRecursiveForced (trim b) = true ∧ rmProbe.occurs (a ++ sep.blank) = false ∨
    gitPushForce (trim b) = true ∧ pushProbe.occurs (a ++ sep.blank) = false

/-- The joined command is found to be forced when the first one is, or when the
second one is seen. -/
theorem forced_joined_iff :
    forced (trim (sep.join a b)) = true ↔ forced (trim a) = true ∨ SecondSeen sep a b := by
  have hrm := rmProbe.hit_joined sep a b
  have hpush := pushProbe.hit_joined sep a b
  rw [forced, forced, SecondSeen, Bool.or_eq_true, Bool.or_eq_true, rmRecursiveForced_eq,
    rmRecursiveForced_eq, rmRecursiveForced_eq, gitPushForce_eq, gitPushForce_eq,
    gitPushForce_eq, hrm, hpush]
  have hrmOccurs : rmProbe.hit (trim a) = true → rmProbe.occurs (a ++ sep.blank) = true :=
    Probe.occurs_of_hit
  have hpushOccurs : pushProbe.hit (trim a) = true → pushProbe.occurs (a ++ sep.blank) = true :=
    Probe.occurs_of_hit
  by_cases hr : rmProbe.occurs (a ++ sep.blank) = true <;>
    by_cases hp : pushProbe.occurs (a ++ sep.blank) = true <;>
    simp only [hr, hp, if_true, if_false, Bool.false_eq_true] at hrmOccurs hpushOccurs ⊢ <;>
    tauto

end

/-! ## The order of the levels -/

def CommandRiskLevel.rank : CommandRiskLevel → ℕ
  | .low => 0
  | .medium => 1
  | .high => 2

instance : LE CommandRiskLevel := ⟨fun level level' => level.rank ≤ level'.rank⟩

instance (level level' : CommandRiskLevel) : Decidable (level ≤ level') :=
  inferInstanceAs (Decidable (level.rank ≤ level'.rank))

theorem CommandRiskLevel.le_high (level : CommandRiskLevel) : level ≤ .high := by
  cases level <;> decide

theorem medium_le_medium {p q : Bool} (h : p = true → q = true) :
    (if p then CommandRiskLevel.medium else .low) ≤ if q then .medium else .low := by
  cases p <;> cases q <;> first | decide | simp at h

/-- The joined command is at least as high as either command alone. -/
def NeverDrops (word : WordClass) (sep : Separator) (a b : List Char) : Prop :=
  (classifyCommandRisk word a).riskLevel ≤ (classifyCommandRisk word (sep.join a b)).riskLevel ∧
    (classifyCommandRisk word b).riskLevel ≤ (classifyCommandRisk word (sep.join a b)).riskLevel

/-- A forced second command is not hidden: its check sees it, or the joined command
is of high risk for another reason. -/
def NotHidden (word : WordClass) (sep : Separator) (a b : List Char) : Prop :=
  forced (trim b) = true →
    SecondSeen sep a b ∨ forced (trim a) = true ∨ otherHighRisk word (trim (sep.join a b)) = true

/-- **The risk never drops exactly when no forced removal or push of the second
command is hidden by an earlier match of its needle.** -/
theorem neverDrops_iff (word : WordClass) (sep : Separator) (a b : List Char) :
    NeverDrops word sep a b ↔ NotHidden word sep a b := by
  rw [NeverDrops, NotHidden, classify_level, classify_level, classify_level]
  have hforced := forced_joined_iff sep (a := a) (b := b)
  have hother : otherHighRisk word (trim a) = true ∨ otherHighRisk word (trim b) = true →
      otherHighRisk word (trim (sep.join a b)) = true := otherHighRisk_joined sep
  have hmedium : mediumRisk word (trim a) = true ∨ mediumRisk word (trim b) = true →
      mediumRisk word (trim (sep.join a b)) = true := mediumRisk_joined sep
  by_cases hhigh : otherHighRisk word (trim (sep.join a b)) = true
  · simp [hhigh, CommandRiskLevel.le_high]
  · have ⟨hota, hotb⟩ := not_or.mp fun h => hhigh (hother h)
    by_cases hj : forced (trim (sep.join a b)) = true
    · simp only [hj, Bool.true_or, if_true, CommandRiskLevel.le_high, true_and, true_iff]
      intro _
      rcases hforced.mp hj with h | h
      · exact Or.inr (Or.inl h)
      · exact Or.inl h
    · have ⟨hfa, hseen⟩ := not_or.mp fun h => hj (hforced.mpr h)
      by_cases hfb : forced (trim b) = true
      · -- the second command alone is high, the joined one is not
        simp only [hj, hhigh, hfb, hfa, hseen, Bool.or_false, Bool.false_eq_true, if_false,
          Bool.true_or, if_true, or_false, forall_const, iff_false, not_and]
        intro _
        split <;> decide
      · simp only [hj, hhigh, hfb, hfa, hota, hotb, Bool.or_false, Bool.false_eq_true,
          if_false, false_implies, iff_true]
        exact ⟨medium_le_medium fun h => hmedium (Or.inl h),
          medium_le_medium fun h => hmedium (Or.inr h)⟩

/-- A harmless removal hides a forced one: what is high alone is low behind it. -/
theorem forced_removal_hidden :
    ¬∀ (word : WordClass) (sep : Separator) (a b : List Char), NeverDrops word sep a b := by
  intro h
  have hdrop := h asciiWords
    ⟨[' '], ';', [' '], List.all_eq_true.mp rfl, rfl, List.all_eq_true.mp rfl⟩ "rm a".toList "rm -rf b".toList
  exact absurd hdrop.2 (by decide)

end Argmax.Approvals
