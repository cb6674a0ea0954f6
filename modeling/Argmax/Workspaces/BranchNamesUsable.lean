import Argmax.Workspaces.BranchNames

/-!
# Every launch gets a usable name

What fills a template are words of lowercase letters, digits and inner hyphens. None of the rules
about characters and neighbours minds these, so a template that passes with the values it is tried
with passes with those of every launch. Only a component that ends in `.lock` can be made by a
value, and then the launch gets the built-in name.
-/

namespace Argmax.Workspaces.BranchNames

open Argmax.Lib.Parts
open Argmax.Lib.Text

variable {name : List Char}

/-! ## The rules of git -/

/-- `git check-ref-format --branch`. -/
structure RefFormat (name : List Char) : Prop where
  components : ∀ part ∈ name.splitOnP (· == '/'),
    part ≠ [] ∧ part.head? ≠ some '.' ∧ ¬ ".lock".toList <:+ part
  dots : ¬ "..".toList <:+: name
  allowed : ∀ c ∈ name, 0x20 < c.toNat ∧ c.toNat ≠ 0x7F ∧ c ∉ "~^:?*[\\".toList
  last : name.getLast? ≠ some '.'
  brace : ¬ "@\x7b".toList <:+: name
  ne_at : name ≠ "@".toList
  /-- The name of a branch is no option and no shorthand. -/
  branch : name.head? ≠ some '-' ∧ name ≠ "HEAD".toList

/-- No component ends in `.lock`. -/
def Unlocked (name : List Char) : Prop :=
  ∀ part ∈ name.splitOnP (· == '/'), ¬ ".lock".toList <:+ part

/-- Two characters that may stand side by side. -/
def Apart (a b : Char) : Prop :=
  ¬ (a = '.' ∧ b = '.') ∧ ¬ (a = '/' ∧ b = '/') ∧ ¬ (a = '@' ∧ b = '\x7b') ∧ ¬ (a = '/' ∧ b = '.')

/-- The rules about single characters and about neighbours. -/
structure WellFormed (name : List Char) : Prop where
  ne_nil : name ≠ []
  ne_at : name ≠ "@".toList
  ne_head : name ≠ "HEAD".toList
  head : ∀ c ∈ name.head?, c ≠ '-' ∧ c ≠ '/' ∧ c ≠ '.'
  last : ∀ c ∈ name.getLast?, c ≠ '/' ∧ c ≠ '.'
  pairs : name.IsChain Apart
  allowed : ∀ c ∈ name, isForbidden c = false

theorem isChain_apart_iff : name.IsChain Apart ↔
    ¬ "..".toList <:+: name ∧ ¬ "//".toList <:+: name ∧ ¬ "@\x7b".toList <:+: name ∧
      name.IsChain fun a b => ¬ (a = '/' ∧ b = '.') := by
  have hdots := not_pair_infix_iff name '.' '.'
  have hslashes := not_pair_infix_iff name '/' '/'
  have hbrace := not_pair_infix_iff name '@' '\x7b'
  have hand : name.IsChain Apart ↔ ∀ ⦃a b front back⦄, name = front ++ a :: b :: back → Apart a b :=
    List.isChain_iff_forall_rel_of_append_cons_cons
  rw [show "..".toList = ['.', '.'] from rfl, show "//".toList = ['/', '/'] from rfl,
    show "@\x7b".toList = ['@', '\x7b'] from rfl, hdots, hslashes, hbrace]
  simp only [List.isChain_iff_forall_rel_of_append_cons_cons]
  constructor
  · intro h
    exact ⟨fun _ _ _ _ hsplit => (h hsplit).1, fun _ _ _ _ hsplit => (h hsplit).2.1,
      fun _ _ _ _ hsplit => (h hsplit).2.2.1, fun _ _ _ _ hsplit => (h hsplit).2.2.2⟩
  · intro ⟨h₁, h₂, h₃, h₄⟩ a b front back hsplit
    exact ⟨h₁ hsplit, h₂ hsplit, h₃ hsplit, h₄ hsplit⟩

/-- No component starts with a dot where neither the name does nor a dot follows a slash. -/
theorem components_dot_iff : (∀ part ∈ name.splitOnP (· == '/'), part.head? ≠ some '.') ↔
    name.head? ≠ some '.' ∧ name.IsChain fun a b => ¬ (a = '/' ∧ b = '.') := by
  constructor
  · intro h
    constructor
    · intro hhead
      obtain ⟨rest, rfl⟩ := List.head?_eq_some_iff.1 hhead
      obtain ⟨part, hpart, hdot⟩ := exists_mem_splitOnP_head (p := (· == '/')) [] rest
        (a := '.') (by simp) (by decide)
      exact h part hpart hdot
    · rw [List.isChain_iff_forall_rel_of_append_cons_cons]
      rintro a b front back rfl ⟨rfl, rfl⟩
      obtain ⟨part, hpart, hdot⟩ := exists_mem_splitOnP_head (p := (· == '/'))
        (front ++ ['/']) back (a := '.') (by simp) (by decide)
      exact h part (by simpa using hpart) hdot
  · rintro ⟨hhead, hpairs⟩ part hpart hdot
    obtain ⟨before, after, rfl, hbefore, _⟩ := exists_of_mem_splitOnP hpart
    obtain ⟨rest, rfl⟩ := List.head?_eq_some_iff.1 hdot
    cases before using List.reverseRecOn with
    | nil => simp at hhead
    | append_singleton before s =>
      have hs : s = '/' := by simpa using hbefore s (by simp)
      rw [List.isChain_iff_forall_rel_of_append_cons_cons] at hpairs
      have hsplit : before ++ [s] ++ '.' :: rest ++ after = before ++ s :: '.' :: (rest ++ after) := by
        simp
      exact hpairs hsplit ⟨hs, rfl⟩

/-- The check passes exactly the names that keep the rules and have no component in `.lock`. -/
theorem isValidBranchName_iff :
    isValidBranchName name = true ↔ WellFormed name ∧ Unlocked name := by
  have hcomponents : ((name.splitOnP (· == '/')).all fun component =>
      !(component.head? == some '.') && !(".lock".toList.isSuffixOf component)) = true ↔
      (∀ part ∈ name.splitOnP (· == '/'), part.head? ≠ some '.') ∧ Unlocked name := by
    simp only [List.all_eq_true, Bool.and_eq_true, Bool.not_eq_true', beq_eq_false_iff_ne, Unlocked,
      ← List.isSuffixOf_iff_suffix, Bool.not_eq_true]
    exact ⟨fun h => ⟨fun part hp => (h part hp).1, fun part hp => (h part hp).2⟩,
      fun h part hp => ⟨h.1 part hp, h.2 part hp⟩⟩
  constructor
  · intro h
    unfold isValidBranchName at h
    split_ifs at h with hstart hend hbrace hforbidden
    simp only [Bool.or_eq_true, not_or, List.isEmpty_iff, beq_iff_eq, containsText,
      decide_eq_true_eq] at hstart hend hbrace
    obtain ⟨⟨⟨⟨hnil, hat⟩, hhead⟩, hdash⟩, hslash⟩ := hstart
    obtain ⟨⟨⟨hlast, hdot⟩, hdots⟩, hslashes⟩ := hend
    obtain ⟨hparts, hunlocked⟩ := hcomponents.1 h
    obtain ⟨hfirst, hpairs⟩ := components_dot_iff.1 hparts
    refine ⟨⟨hnil, hat, hhead, ?_, ?_, isChain_apart_iff.2 ⟨hdots, hslashes, hbrace, hpairs⟩, ?_⟩,
      hunlocked⟩
    · intro c hc
      refine ⟨?_, ?_, ?_⟩ <;> rintro rfl
      · exact hdash hc
      · exact hslash hc
      · exact hfirst hc
    · intro c hc
      refine ⟨?_, ?_⟩ <;> rintro rfl
      · exact hlast hc
      · exact hdot hc
    · intro c hc
      by_contra hforbids
      exact hforbidden (List.any_eq_true.2 ⟨c, hc, by simpa using hforbids⟩)
  · rintro ⟨hname, hunlocked⟩
    obtain ⟨hdots, hslashes, hbrace, hpairs⟩ := isChain_apart_iff.1 hname.pairs
    have hhead : ∀ c, name.head? = some c → c ≠ '-' ∧ c ≠ '/' ∧ c ≠ '.' := hname.head
    have hlast : ∀ c, name.getLast? = some c → c ≠ '/' ∧ c ≠ '.' := hname.last
    have hallowed : ¬ name.any isForbidden = true := by
      rw [List.any_eq_true]
      rintro ⟨c, hc, hforbids⟩
      simp [hname.allowed c hc] at hforbids
    unfold isValidBranchName
    rw [if_neg, if_neg, if_neg, if_neg hallowed]
    · exact hcomponents.2 ⟨components_dot_iff.2 ⟨fun h => (hhead _ h).2.2 rfl, hpairs⟩, hunlocked⟩
    · simpa [containsText] using hbrace
    · simp only [Bool.or_eq_true, not_or, beq_iff_eq, containsText, decide_eq_true_eq]
      exact ⟨⟨⟨fun h => (hlast _ h).1 rfl, fun h => (hlast _ h).2 rfl⟩, hdots⟩, hslashes⟩
    · simp only [Bool.or_eq_true, not_or, List.isEmpty_iff, beq_iff_eq]
      exact ⟨⟨⟨⟨hname.ne_nil, hname.ne_at⟩, hname.ne_head⟩, fun h => (hhead _ h).1 rfl⟩,
        fun h => (hhead _ h).2.1 rfl⟩

/-- Every component of a well-formed name has something in it. -/
theorem WellFormed.component_ne_nil (h : WellFormed name) {part : List Char}
    (hpart : part ∈ name.splitOnP (· == '/')) : part ≠ [] := by
  rintro rfl
  obtain ⟨before, after, hname, hbefore, hafter⟩ := exists_of_mem_splitOnP hpart
  have hslash : ∀ c : Char, (c == '/') = true → c = '/' := fun c hc => by simpa using hc
  cases before using List.reverseRecOn with
  | nil =>
    cases after with
    | nil => exact h.ne_nil (by simpa using hname)
    | cons s after =>
      have hs := hslash s (hafter s (by simp))
      exact (h.head s (by simp [hname])).2.1 hs
  | append_singleton before s =>
    have hs := hslash s (hbefore s (by simp))
    cases after with
    | nil => exact (h.last s (by simp [hname])).1 hs
    | cons t after =>
      have ht := hslash t (hafter t (by simp))
      have hpairs := List.isChain_iff_forall_rel_of_append_cons_cons.1 h.pairs
      have hsplit : name = before ++ s :: t :: after := by simpa using hname
      exact (hpairs hsplit).2.1 ⟨hs, ht⟩

theorem refFormat_of_isValid (h : isValidBranchName name = true) : RefFormat name := by
  have ⟨hname, hunlocked⟩ := isValidBranchName_iff.1 h
  have ⟨hdots, _, hbrace, hpairs⟩ := isChain_apart_iff.1 hname.pairs
  have hfirst : name.head? ≠ some '.' := fun hdot => (hname.head _ hdot).2.2 rfl
  constructor
  · intro part hpart
    exact ⟨hname.component_ne_nil hpart, components_dot_iff.2 ⟨hfirst, hpairs⟩ part hpart,
      hunlocked part hpart⟩
  · exact hdots
  · intro c hc
    have hallowed := hname.allowed c hc
    simp only [isForbidden, isControl, Bool.or_eq_false_iff, decide_eq_false_iff_not,
      Bool.and_eq_false_iff, beq_eq_false_iff_ne, List.contains_eq_mem] at hallowed
    obtain ⟨⟨⟨hlow, hdelete⟩, hspace⟩, hspecial⟩ := hallowed
    refine ⟨?_, by omega, hspecial⟩
    have hne : c.toNat ≠ 0x20 := by
      intro heq
      apply hspace
      rw [← Char.ofNat_toNat c, heq]
    omega
  · exact fun hdot => (hname.last _ hdot).2 rfl
  · exact hbrace
  · exact hname.ne_at
  · exact ⟨fun hdash => (hname.head _ hdash).1 rfl, hname.ne_head⟩

/-! ## Values -/

/-- Lowercase letters, digits and `-`. -/
def isPlain (c : Char) : Bool := c.isDigit || ('a' ≤ c && c ≤ 'z') || c == '-'

/-- What a placeholder is filled with. -/
structure Fits (value : List Char) : Prop where
  ne_nil : value ≠ []
  plain : ∀ c ∈ value, isPlain c = true
  head : value.head? ≠ some '-'

variable {c : Char} {n : ℕ} {template : List Char}

/-- A fact of the ASCII characters, tried on each. -/
theorem ascii_forall {P : Char → Prop} (h : ∀ n < 128, P (Char.ofNat n)) (hc : c.toNat < 128) :
    P c := by
  have hp := h c.toNat hc
  rwa [Char.ofNat_toNat] at hp

theorem toNat_lt_of_isPlain (h : isPlain c = true) : c.toNat < 128 := by
  simp only [isPlain, Char.isDigit, Bool.or_eq_true, Bool.and_eq_true, decide_eq_true_eq,
    beq_iff_eq, Char.le_def, UInt32.le_iff_toNat_le] at h
  unfold Char.toNat
  rcases h with (⟨_, h⟩ | ⟨_, h⟩) | rfl
  · exact h.trans_lt (by decide)
  · exact h.trans_lt (by decide)
  · decide

/-- No rule is about a plain character, but for the first. -/
theorem isPlain_spec (h : isPlain c = true) :
    isForbidden c = false ∧ c ≠ '/' ∧ c ≠ '.' ∧ c ≠ '@' ∧ c ≠ '\x7b' ∧ c ≠ 'H' := by
  have hall : isPlain c = true → isForbidden c = false ∧ c ≠ '/' ∧ c ≠ '.' ∧ c ≠ '@' ∧
      c ≠ '\x7b' ∧ c ≠ 'H' :=
    ascii_forall (P := fun c => isPlain c = true → isForbidden c = false ∧ c ≠ '/' ∧ c ≠ '.' ∧
      c ≠ '@' ∧ c ≠ '\x7b' ∧ c ≠ 'H') (by decide) (toNat_lt_of_isPlain h)
  exact hall h

theorem apart_of_isPlain_left {a b : Char} (h : isPlain a = true) : Apart a b := by
  have ⟨_, hslash, hdot, hat, _⟩ := isPlain_spec h
  exact ⟨fun hab => hdot hab.1, fun hab => hslash hab.1, fun hab => hat hab.1,
    fun hab => hslash hab.1⟩

theorem apart_of_isPlain_right {a b : Char} (h : isPlain b = true) : Apart a b := by
  have ⟨_, hslash, hdot, _, hbrace, _⟩ := isPlain_spec h
  exact ⟨fun hab => hdot hab.2, fun hab => hslash hab.2, fun hab => hbrace hab.2,
    fun hab => hdot hab.2⟩

/-- The rules carry over from one filling to another, with a plain suffix. -/
theorem WellFormed.of_alike {tried rest : List Char} (h : WellFormed tried)
    (halike : Alike Fits name tried) (hrest : ∀ c ∈ rest, isPlain c = true) :
    WellFormed (name ++ rest) := by
  have hne : ∀ value, Fits value → value ≠ [] := fun _ hvalue => hvalue.ne_nil
  have hplain : ∀ value, Fits value → ∀ c ∈ value, isPlain c = true := fun _ hvalue => hvalue.plain
  have hname : name ≠ [] := fun hnil => h.ne_nil ((halike.eq_nil_iff hne).1 hnil)
  have hmem := halike.mem hplain
  -- A name without plain characters has no places and no suffix.
  have hsame : ∀ text : List Char, text.any isPlain = false → tried ≠ text →
      name ++ rest ≠ text := by
    intro text hnone htried heq
    have htext := List.any_eq_false.1 hnone
    have hempty : rest = [] := by
      rw [List.eq_nil_iff_forall_not_mem]
      intro c hc
      exact htext c (heq ▸ List.mem_append_right _ hc) (hrest c hc)
    rw [hempty, List.append_nil] at heq
    have heqs := halike.eq_of_not_inert hne hplain (heq ▸ htext)
    exact htried (heqs ▸ heq)
  refine ⟨by simp [hname], hsame _ (by decide) h.ne_at, hsame _ (by decide) h.ne_head, ?_, ?_, ?_, ?_⟩
  · intro c hc
    rw [List.head?_append_of_ne_nil _ hname] at hc
    rcases halike.head hne with hhead | ⟨value, hvalue, hhead⟩
    · exact h.head c (hhead ▸ hc)
    · rw [hhead] at hc
      have ⟨_, hslash, hdot, _⟩ := isPlain_spec (hvalue.plain c (List.mem_of_head? hc))
      exact ⟨fun hdash => hvalue.head (hdash ▸ hc), hslash, hdot⟩
  · intro c hc
    by_cases hempty : rest = []
    · rw [hempty, List.append_nil] at hc
      rcases halike.last hne hplain c hc with hlast | hinert
      · exact h.last c hlast
      · exact ⟨(isPlain_spec hinert).2.1, (isPlain_spec hinert).2.2.1⟩
    · rw [List.getLast?_append_of_ne_nil _ hempty] at hc
      have hinert := hrest c (List.mem_of_getLast? hc)
      exact ⟨(isPlain_spec hinert).2.1, (isPlain_spec hinert).2.2.1⟩
  · rw [List.isChain_append]
    refine ⟨halike.isChain (fun _ _ => apart_of_isPlain_left) (fun _ _ => apart_of_isPlain_right)
      hne hplain h.pairs, ?_, ?_⟩
    · rw [List.isChain_iff_forall_rel_of_append_cons_cons]
      intro a b front back hsplit
      exact apart_of_isPlain_left (hrest a (by simp [hsplit]))
    · intro a _ b hb
      exact apart_of_isPlain_right (hrest b (List.mem_of_head? hb))
  · intro c hc
    rcases List.mem_append.1 hc with hc | hc
    · rcases hmem c hc with htried | hinert
      · exact h.allowed c htried
      · exact (isPlain_spec hinert).1
    · exact (isPlain_spec (hrest c hc)).1

/-- Only a dot can begin `.lock`. -/
theorem unlocked_of_not_mem (h : '.' ∉ name) : Unlocked name := by
  intro part hpart hlock
  obtain ⟨before, after, rfl, _⟩ := exists_of_mem_splitOnP hpart
  obtain ⟨front, rfl⟩ := hlock
  exact h (by simp)

/-! ## The values of a launch -/

variable {parts tried : BranchNameParts} {alphabet : AlphanumericClass} {label : List Char}

/-- Whatever a placeholder stands for fits. -/
structure PartsFit (parts : BranchNameParts) : Prop where
  kind : Fits parts.kind
  slug : Fits parts.slug
  word : Fits parts.word
  id : Fits parts.id
  date : Fits parts.date

/-- `Fits`, as a check. -/
def fits (value : List Char) : Bool :=
  !value.isEmpty && value.all isPlain && value.head? != some '-'

theorem fits_iff {value : List Char} : fits value = true ↔ Fits value := by
  simp only [fits, Bool.and_eq_true, Bool.not_eq_true', List.isEmpty_eq_false_iff,
    List.all_eq_true, bne_iff_ne]
  exact ⟨fun h => ⟨h.1.1, h.1.2, h.2⟩, fun h => ⟨⟨h.ne_nil, h.plain⟩, h.head⟩⟩

theorem Fits.of_solid {value : List Char} (hne : value ≠ [])
    (h : ∀ c ∈ value, isPlain c = true ∧ c ≠ '-') : Fits value := by
  refine ⟨hne, fun c hc => (h c hc).1, ?_⟩
  intro hhead
  exact (h _ (List.mem_of_head? hhead)).2 rfl

theorem Fits.append {value rest : List Char} (h : Fits value) (hrest : ∀ c ∈ rest, isPlain c = true) :
    Fits (value ++ rest) := by
  refine ⟨by simp [h.ne_nil], ?_, ?_⟩
  · intro c hc
    rcases List.mem_append.1 hc with hc | hc
    · exact h.plain c hc
    · exact hrest c hc
  · rw [List.head?_append_of_ne_nil _ h.ne_nil]
    exact h.head

/-- A letter or digit is plain in lower case, and no `-`. -/
theorem isPlain_toLower (hascii : c.toNat < 128) (h : c.isAlphanum = true) :
    isPlain c.toLower = true ∧ c.toLower ≠ '-' :=
  ascii_forall (P := fun c => c.isAlphanum = true → isPlain c.toLower = true ∧ c.toLower ≠ '-')
    (by decide) hascii h

/-- A word of a label. -/
def IsWord (word : List Char) : Prop :=
  word ≠ [] ∧ ∀ c ∈ word, c.toNat < 128 ∧ c.isAlphanum = true

theorem IsWord.lower {word : List Char} (h : IsWord word) : Fits (word.map Char.toLower) := by
  apply Fits.of_solid (by simp [h.1])
  intro c hc
  obtain ⟨d, hd, rfl⟩ := List.mem_map.1 hc
  exact isPlain_toLower (h.2 d hd).1 (h.2 d hd).2

theorem IsWord.take {word : List Char} (h : IsWord word) (hn : n ≠ 0) : IsWord (word.take n) :=
  ⟨by simp [h.1, hn], fun c hc => h.2 c (List.mem_of_mem_take hc)⟩

theorem joinWords_fits {slug : List Char} {words : List (List Char)} (hslug : slug = [] ∨ Fits slug)
    (hwords : ∀ word ∈ words, IsWord word) :
    joinWords slug words = [] ∨ Fits (joinWords slug words) := by
  induction words generalizing slug with
  | nil => exact hslug
  | cons word rest ih =>
    have hword := hwords word (by simp)
    unfold joinWords
    by_cases hempty : slug = []
    · subst hempty
      by_cases hlong : maxSlugChars < word.length
      · right
        have hcut : min maxSlugChars word.length ≠ 0 := by
          have : maxSlugChars = 40 := rfl
          omega
        simpa [hlong] using (hword.take hcut).lower
      · simpa [hlong] using ih (.inr hword.lower) fun w hw => hwords w (List.mem_cons_of_mem _ hw)
    · have hfits := hslug.resolve_left hempty
      by_cases hlong : maxSlugChars < slug.length + 1 + word.length
      · simpa [hempty, hlong] using hfits
      · have hjoined : Fits (slug ++ ['-'] ++ word.map Char.toLower) :=
          (hfits.append (by simp [isPlain])).append hword.lower.plain
        simpa [hempty, hlong] using
          ih (.inr hjoined) fun w hw => hwords w (List.mem_cons_of_mem _ hw)

theorem slugify_fits (alphabet : AlphanumericClass) (label : List Char) :
    slugify alphabet label = [] ∨ Fits (slugify alphabet label) := by
  apply joinWords_fits (.inl rfl)
  intro word hword
  rw [List.mem_filter, Bool.and_eq_true, Bool.not_eq_true', List.isEmpty_eq_false_iff,
    List.all_eq_true] at hword
  obtain ⟨hpart, hne, hascii⟩ := hword
  refine ⟨hne, ?_⟩
  intro c hc
  have hlt : c.toNat < 128 := by simpa using hascii c hc
  have halpha := not_of_mem_splitOnP hpart c hc
  rw [Bool.not_eq_false', alphabet.ascii c hlt] at halpha
  exact ⟨hlt, halpha⟩

theorem probe_fits : PartsFit probe :=
  ⟨fits_iff.1 (by decide), fits_iff.1 (by decide), fits_iff.1 (by decide), fits_iff.1 (by decide),
    fits_iff.1 (by decide)⟩

/-- A digit or one of the hex letters is no `-`. -/
theorem isPlain_hex (h : c.isDigit ∨ 'a' ≤ c ∧ c ≤ 'f') : isPlain c = true ∧ c ≠ '-' := by
  constructor
  · rcases h with hdigit | ⟨hlow, hhigh⟩
    · simp [isPlain, hdigit]
    · have hfz : 'f' ≤ 'z' := by decide
      have hz : c ≤ 'z' := Char.le_trans hhigh hfz
      simp [isPlain, hlow, hz]
  · rintro rfl
    revert h
    decide

theorem Launch.parts_fit (launch : Launch) (alphabet : AlphanumericClass) (label : List Char) :
    PartsFit (launch.parts alphabet label) := by
  have hword : Fits launch.word := by
    have hall : worktreeNames.all fits = true := by decide
    exact fits_iff.1 (List.all_eq_true.1 hall _ launch.word_mem)
  have hid : Fits launch.id := by
    apply Fits.of_solid
    · intro hnil
      simpa [hnil] using launch.id_length
    · exact fun c hc => isPlain_hex (launch.id_hex c hc)
  have hdate : Fits launch.date := by
    apply Fits.of_solid
    · intro hnil
      simpa [hnil] using launch.date_length
    · exact fun c hc => isPlain_hex (.inl (launch.date_digit c hc))
  refine ⟨fits_iff.1 (show fits defaultBranchType = true by decide), ?_, hword, hid, hdate⟩
  show Fits (if slugify alphabet label = [] then launch.word else slugify alphabet label)
  split_ifs with hempty
  · exact hword
  · exact (slugify_fits alphabet label).resolve_left hempty

/-! ## Filled templates -/

theorem PartsFit.value (h : PartsFit parts) {word : List Char} (hword : word ∈ placeholders) :
    Fits (value parts word) := by
  simp only [placeholders, List.mem_cons, List.not_mem_nil, or_false] at hword
  rcases hword with rfl | rfl | rfl | rfl | rfl
  · exact h.kind
  · exact h.slug
  · exact h.word
  · exact h.id
  · exact h.date

/-- Two fillings of a template with sound braces. -/
theorem alike_fillFrom (hparts : PartsFit parts) (htried : PartsFit tried)
    {state : Option (List Char)} (h : checkBraces state template = .ok ()) :
    Alike Fits (fillFrom parts state template) (fillFrom tried state template) := by
  induction template generalizing state with
  | nil =>
    cases state with
    | none => exact .nil
    | some word => simp [checkBraces] at h
  | cons c rest ih =>
    cases state with
    | none =>
      simp only [checkBraces] at h
      split_ifs at h with hclose hopen
      · simpa [fillFrom, hopen] using ih h
      · simpa [fillFrom, hopen] using (ih h).keep c
    | some word =>
      simp only [checkBraces] at h
      split_ifs at h with hopen hclose hknown
      · simpa [fillFrom, hclose] using
          Alike.fill (hparts.value hknown) (htried.value hknown) (ih h)
      · simpa [fillFrom, hclose] using ih h

/-- What is not plain in a filled template stands in the template. -/
theorem mem_fillFrom (hparts : PartsFit parts) {state : Option (List Char)}
    (h : checkBraces state template = .ok ()) :
    ∀ c ∈ fillFrom parts state template, c ∈ template ∨ isPlain c = true := by
  induction template generalizing state with
  | nil =>
    cases state with
    | none => simp [fillFrom]
    | some word => simp [checkBraces] at h
  | cons b rest ih =>
    intro c hc
    cases state with
    | none =>
      simp only [checkBraces] at h
      simp only [fillFrom] at hc
      split_ifs at h with hclose hopen
      · rw [if_pos hopen] at hc
        exact (ih h c hc).imp_left (List.mem_cons_of_mem b)
      · rw [if_neg hopen] at hc
        rcases List.mem_cons.1 hc with rfl | hc
        · simp
        · exact (ih h c hc).imp_left (List.mem_cons_of_mem b)
    | some word =>
      simp only [checkBraces] at h
      simp only [fillFrom] at hc
      split_ifs at h with hopen hclose hknown
      · rw [if_pos hclose] at hc
        rcases List.mem_append.1 hc with hc | hc
        · exact .inr ((hparts.value hknown).plain c hc)
        · exact (ih h c hc).imp_left (List.mem_cons_of_mem b)
      · rw [if_neg hclose] at hc
        exact (ih h c hc).imp_left (List.mem_cons_of_mem b)

/-- A template that may be stored. -/
structure Accepted (template : List Char) : Prop where
  braces : checkBraces none template = .ok ()
  tried : isValidBranchName (fill template probe) = true

theorem accepted_of_validate (h : validateBranchTemplate template = .ok ()) :
    Accepted template := by
  unfold validateBranchTemplate at h
  split_ifs at h
  split at h
  · simp at h
  · rename_i hbraces
    dsimp only at h
    split_ifs at h with htried
    exact ⟨hbraces, htried⟩

theorem accepted_default : Accepted defaultBranchTemplate := ⟨by decide, by decide⟩

section Filled

variable {template suffix : List Char}

theorem Accepted.wellFormed (h : Accepted template) (hparts : PartsFit parts)
    (hsuffix : ∀ c ∈ suffix, isPlain c = true) : WellFormed (fill template parts ++ suffix) :=
  (isValidBranchName_iff.1 h.tried).1.of_alike (alike_fillFrom hparts probe_fits h.braces) hsuffix

/-- Without a dot in the template nothing ends in `.lock`. -/
theorem Accepted.unlocked (h : Accepted template) (hparts : PartsFit parts)
    (hsuffix : ∀ c ∈ suffix, isPlain c = true) (hdot : '.' ∉ template) :
    Unlocked (fill template parts ++ suffix) := by
  apply unlocked_of_not_mem
  have hplain : isPlain '.' ≠ true := by decide
  intro hmem
  rcases List.mem_append.1 hmem with hmem | hmem
  · rcases mem_fillFrom hparts h.braces '.' hmem with htemplate | hinert
    · exact hdot htemplate
    · exact hplain hinert
  · exact hplain (hsuffix '.' hmem)

/-- The built-in name is valid whatever it is filled with. -/
theorem isValid_default (hparts : PartsFit parts) (hsuffix : ∀ c ∈ suffix, isPlain c = true) :
    isValidBranchName (fill defaultBranchTemplate parts ++ suffix) = true :=
  isValidBranchName_iff.2 ⟨accepted_default.wellFormed hparts hsuffix,
    accepted_default.unlocked hparts hsuffix (by decide)⟩

/-- What is rendered is valid. -/
theorem isValid_withDefaultFallback (hparts : PartsFit parts)
    (hsuffix : ∀ c ∈ suffix, isPlain c = true) :
    isValidBranchName (withDefaultFallback template parts suffix) = true := by
  unfold withDefaultFallback
  dsimp only
  split_ifs with hvalid
  · exact hvalid
  · exact isValid_default hparts hsuffix

end Filled

/-! ## Suffixes -/

theorem isDigit_of_mem_digits (h : c ∈ Nat.toDigits 10 n) : c.isDigit = true :=
  Nat.isDigit_of_mem_toDigits (by decide) (by decide) h

theorem numberSuffix_plain (attempt : ℕ) : ∀ c ∈ numberSuffix attempt, isPlain c = true := by
  intro c hc
  unfold numberSuffix at hc
  split_ifs at hc
  · simp at hc
  · rcases List.mem_cons.1 hc with rfl | hdigit
    · decide
    · exact (isPlain_hex (.inl (isDigit_of_mem_digits hdigit))).1

theorem numberSuffix_of_ne_zero {attempt : ℕ} (h : attempt ≠ 0) :
    numberSuffix attempt = '-' :: Nat.toDigits 10 (attempt + 1) := if_neg h

theorem toDigits_injective : Function.Injective (Nat.toDigits 10) := by
  intro m n h
  have hread := congrArg (fun digits => Nat.ofDigitChars 10 digits 0) h
  simpa using hread

theorem numberSuffix_injective : Function.Injective numberSuffix := by
  intro m n h
  unfold numberSuffix at h
  split_ifs at h with hm hn hn
  · rw [hm, hn]
  · have := toDigits_injective (List.cons.inj h).2
    omega

/-- The suffix that a step puts behind the template. The last step has no template. -/
def BranchStep.suffix (parts : BranchNameParts) : BranchStep → Option (List Char)
  | .numbered attempt => some (numberSuffix attempt)
  | .unique => some ('-' :: parts.id)
  | .fallback => none

theorem BranchStep.suffix_plain (hparts : PartsFit parts) {step : BranchStep} {suffix : List Char}
    (h : step.suffix parts = some suffix) : ∀ c ∈ suffix, isPlain c = true := by
  cases step with
  | numbered attempt =>
    rw [← Option.some.inj h]
    exact numberSuffix_plain attempt
  | unique =>
    rw [← Option.some.inj h]
    intro c hc
    rcases List.mem_cons.1 hc with rfl | hc
    · decide
    · exact hparts.id.plain c hc
  | fallback => simp [BranchStep.suffix] at h

theorem renderBranchStep_of_suffix {suffix : List Char} {step : BranchStep}
    (h : step.suffix parts = some suffix) :
    renderBranchStep template parts step = withDefaultFallback template parts suffix := by
  cases step with
  | numbered attempt => rw [← Option.some.inj h]; rfl
  | unique => rw [← Option.some.inj h]; rfl
  | fallback => simp [BranchStep.suffix] at h

theorem isValid_renderBranchStep (hparts : PartsFit parts) (template : List Char)
    (step : BranchStep) : isValidBranchName (renderBranchStep template parts step) = true := by
  cases hstep : step.suffix parts with
  | some suffix =>
    rw [renderBranchStep_of_suffix hstep]
    exact isValid_withDefaultFallback hparts (step.suffix_plain hparts hstep)
  | none =>
    cases step with
    | fallback => simpa [renderBranchStep] using @isValid_default parts [] hparts (by simp)
    | numbered => simp [BranchStep.suffix] at hstep
    | unique => simp [BranchStep.suffix] at hstep

/-! ## Numbered names -/

/-- A number that is tried has fewer digits than an id. -/
theorem length_digits_lt {attempt : ℕ} (h : attempt ≤ maxCollisionSuffix) :
    (Nat.toDigits 10 (attempt + 1)).length < 8 := by
  have hall : ∀ n < 31, (Nat.toDigits 10 (n + 1)).length < 8 := by decide
  exact hall attempt (by unfold maxCollisionSuffix at h; omega)

/-- What follows the last `-`. -/
theorem eq_of_append_dash {front front' back back' : List Char}
    (h : front ++ '-' :: back = front' ++ '-' :: back') (hback : '-' ∉ back)
    (hback' : '-' ∉ back') : back = back' := by
  have hnone : ∀ text : List Char, '-' ∉ text → ∀ c ∈ text, (c == '-') = false := by
    intro text htext c hc
    rw [beq_eq_false_iff_ne]
    rintro rfl
    exact htext hc
  exact (eq_of_append_cons (p := (· == '-')) h rfl rfl (hnone back hback) (hnone back' hback')).2.2

theorem dash_notMem_digits (n : ℕ) : '-' ∉ Nat.toDigits 10 n := by
  intro h
  have := isDigit_of_mem_digits h
  revert this
  decide

theorem fill_default (parts : BranchNameParts) :
    fill defaultBranchTemplate parts = "argmax/".toList ++ parts.word ++ '-' :: parts.id := by
  have hword : value parts ['w', 'o', 'r', 'd'] = parts.word := by
    unfold value
    rw [if_neg (by decide), if_neg (by decide), if_pos (by decide)]
  have hid : value parts ['i', 'd'] = parts.id := by
    unfold value
    rw [if_neg (by decide), if_neg (by decide), if_neg (by decide), if_pos (by decide)]
  have hfill : fill defaultBranchTemplate parts = "argmax/".toList ++
      (value parts ['w', 'o', 'r', 'd'] ++ ('-' :: (value parts ['i', 'd'] ++ []))) := rfl
  rw [hfill, hword, hid, List.append_nil, List.append_assoc]

section Numbered

variable {launch : Launch} {template : List Char}

/-- A template's name with one number is no built-in name with another. -/
theorem eq_of_filled_eq_builtin {m : ℕ} (hm : m ≤ maxCollisionSuffix)
    (hinvalid : isValidBranchName
      (fill template (launch.parts alphabet label) ++ numberSuffix n) = false)
    (heq : fill template (launch.parts alphabet label) ++ numberSuffix m =
      fill defaultBranchTemplate (launch.parts alphabet label) ++ numberSuffix n) : m = n := by
  set filled := fill template (launch.parts alphabet label) with hfilled
  have hid : (launch.parts alphabet label).id = launch.id := rfl
  by_cases hm₀ : m = 0
  · by_cases hn₀ : n = 0
    · rw [hm₀, hn₀]
    · -- The template's name is a built-in one, which no suffix makes invalid.
      have hbuiltin : filled ++ numberSuffix n =
          fill defaultBranchTemplate (launch.parts alphabet label) ++
            (numberSuffix n ++ numberSuffix n) := by
        rw [← List.append_assoc, ← heq, hm₀]
        simp [numberSuffix]
      have hplain : ∀ c ∈ numberSuffix n ++ numberSuffix n, isPlain c = true := by
        intro c hc
        rcases List.mem_append.1 hc with hc | hc <;> exact numberSuffix_plain n c hc
      have hvalid := isValid_default (launch.parts_fit alphabet label) hplain
      rw [← hbuiltin, hinvalid] at hvalid
      simp at hvalid
  · rw [numberSuffix_of_ne_zero hm₀] at heq
    by_cases hn₀ : n = 0
    · -- A number would be the id.
      have hnone : numberSuffix 0 = [] := rfl
      have hdash : '-' ∉ launch.id := by
        intro hmem
        exact (isPlain_hex (launch.id_hex '-' hmem)).2 rfl
      rw [hn₀, hnone, List.append_nil, fill_default, hid] at heq
      have hdigits := eq_of_append_dash heq (dash_notMem_digits _) hdash
      have hlength := length_digits_lt hm
      rw [hdigits, launch.id_length] at hlength
      omega
    · rw [numberSuffix_of_ne_zero hn₀] at heq
      have hdigits := eq_of_append_dash heq (dash_notMem_digits _) (dash_notMem_digits _)
      have := toDigits_injective hdigits
      omega

/-- The numbered names of a launch are distinct. -/
theorem renderBranchName_inj {m : ℕ} (hm : m ≤ maxCollisionSuffix) (hn : n ≤ maxCollisionSuffix)
    (h : renderBranchName template (launch.parts alphabet label) m =
      renderBranchName template (launch.parts alphabet label) n) : m = n := by
  unfold renderBranchName withDefaultFallback at h
  dsimp only at h
  split_ifs at h with hmvalid hnvalid hnvalid
  · exact numberSuffix_injective (List.append_cancel_left h)
  · exact eq_of_filled_eq_builtin hm (by simpa using hnvalid) h
  · exact (eq_of_filled_eq_builtin hn (by simpa using hmvalid) h.symm).symm
  · exact numberSuffix_injective (List.append_cancel_left h)

end Numbered

/-! ## Every launch -/

/-- The name of an accepted template is the filled template, unless a component of that ends in
`.lock`: then it is the built-in one. -/
theorem Accepted.rendered {suffix : List Char} (h : Accepted template) (hparts : PartsFit parts)
    (hsuffix : ∀ c ∈ suffix, isPlain c = true) :
    (Unlocked (fill template parts ++ suffix) →
      withDefaultFallback template parts suffix = fill template parts ++ suffix) ∧
    (¬ Unlocked (fill template parts ++ suffix) →
      withDefaultFallback template parts suffix = fill defaultBranchTemplate parts ++ suffix) := by
  have hname := h.wellFormed hparts hsuffix
  constructor
  · intro hunlocked
    exact if_pos (isValidBranchName_iff.2 ⟨hname, hunlocked⟩)
  · intro hlocked
    exact if_neg fun hvalid => hlocked (isValidBranchName_iff.1 hvalid).2

/-- Each name of a launch is one that git takes, the numbered ones differ, and for a template that
was accepted the name is the filled template with the step's suffix, unless a component of that
ends in `.lock`: then it is the built-in one. No label makes that of a template without a dot. -/
theorem branchNames_usable (alphabet : AlphanumericClass) (template label : List Char)
    (launch : Launch) :
    (∀ step, RefFormat (renderBranchStep template (launch.parts alphabet label) step)) ∧
      (∀ m n, .numbered m ∈ BranchStep.all → .numbered n ∈ BranchStep.all →
        renderBranchStep template (launch.parts alphabet label) (.numbered m) =
          renderBranchStep template (launch.parts alphabet label) (.numbered n) → m = n) ∧
      (validateBranchTemplate template = .ok () → ∀ step suffix,
        step.suffix (launch.parts alphabet label) = some suffix →
        (Unlocked (fill template (launch.parts alphabet label) ++ suffix) →
          renderBranchStep template (launch.parts alphabet label) step =
            fill template (launch.parts alphabet label) ++ suffix) ∧
        (¬ Unlocked (fill template (launch.parts alphabet label) ++ suffix) →
          renderBranchStep template (launch.parts alphabet label) step =
            fill defaultBranchTemplate (launch.parts alphabet label) ++ suffix) ∧
        ('.' ∉ template →
          renderBranchStep template (launch.parts alphabet label) step =
            fill template (launch.parts alphabet label) ++ suffix)) := by
  have hparts := launch.parts_fit alphabet label
  have hattempt : ∀ m, BranchStep.numbered m ∈ BranchStep.all → m ≤ maxCollisionSuffix := by
    intro m hm
    simp only [BranchStep.all, List.mem_append, List.mem_map, List.mem_range, List.mem_cons,
      List.not_mem_nil, reduceCtorEq, or_false, BranchStep.numbered.injEq] at hm
    omega
  refine ⟨?_, ?_, ?_⟩
  · intro step
    exact refFormat_of_isValid (isValid_renderBranchStep hparts template step)
  · intro m n hm hn h
    exact renderBranchName_inj (hattempt m hm) (hattempt n hn) h
  · intro hvalidated step suffix hstep
    have haccepted := accepted_of_validate hvalidated
    have hsuffix := step.suffix_plain hparts hstep
    obtain ⟨hfilled, hbuiltin⟩ := haccepted.rendered hparts hsuffix
    rw [renderBranchStep_of_suffix hstep]
    exact ⟨hfilled, hbuiltin, fun hdot => hfilled (haccepted.unlocked hparts hsuffix hdot)⟩

/-! ## A launch -/

/-- The ASCII letters and digits alone. -/
def asciiAlphanumeric : AlphanumericClass := ⟨Char.isAlphanum, fun _ _ => rfl⟩

def cedarLaunch : Launch where
  word := "cedar".toList
  id := "a3f92c18".toList
  date := "20261004".toList
  word_mem := by decide
  id_length := rfl
  id_hex := by
    have hall : ("a3f92c18".toList.all fun c => c.isDigit || ('a' ≤ c && c ≤ 'f')) = true := by
      decide
    intro c hc
    simpa using List.all_eq_true.1 hall c hc
  date_length := rfl
  date_digit := by
    have hall : "20261004".toList.all Char.isDigit = true := by decide
    exact List.all_eq_true.1 hall

/-- A template with the type and the slug is never replaced. -/
theorem branchNames_feat : renderBranchStep "adam/\x7btype\x7d-\x7bslug\x7d".toList
      (cedarLaunch.parts asciiAlphanumeric "Fix CI".toList) (.numbered 0) =
    "adam/feat-fix-ci".toList :=
  ((branchNames_usable asciiAlphanumeric "adam/\x7btype\x7d-\x7bslug\x7d".toList
    "Fix CI".toList cedarLaunch).2.2 (by decide) (.numbered 0) [] rfl).2.2 (by decide)

/-- The label `lock` makes the built-in name of a template that was accepted. -/
theorem branchNames_lock : ¬ ∀ (alphabet : AlphanumericClass) (template label : List Char)
    (launch : Launch), validateBranchTemplate template = .ok () → ∀ n,
      renderBranchStep template (launch.parts alphabet label) (.numbered n) =
        fill template (launch.parts alphabet label) ++ numberSuffix n := by
  intro h
  have hlock := h asciiAlphanumeric "a.\x7bslug\x7d".toList "lock".toList cedarLaunch (by decide) 0
  revert hlock
  decide

end Argmax.Workspaces.BranchNames
