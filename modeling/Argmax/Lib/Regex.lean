import Argmax.Lib.Text

/-!
# Searching a text for a regular expression

An expression is run from a place of the text and returns every place where a match
may end, so whether a text holds a match is computed without a preferred match. A
word boundary looks at the character before a place and at the one after it; which
characters belong to words is a parameter, since the Unicode tables behind it are
not part of this development.
-/

namespace Argmax.Lib.Search

open Argmax.Lib.Text

/-- A place in a text: the character before it and the text after it. -/
structure Cursor where
  prev : Option Char
  rest : List Char
deriving DecidableEq

inductive Regex
  | empty
  /-- One character of a class. -/
  | one (p : Char → Bool)
  /-- Any number of characters of a class. -/
  | many (p : Char → Bool)
  /-- `\b`. -/
  | boundary
  | seq (r s : Regex)
  | alt (r s : Regex)

/-- A word character stands there. -/
def wordAt (word : Char → Bool) : Option Char → Bool
  | none => false
  | some c => word c

/-- The places reached over any number of characters of a class. -/
def manyRests (p : Char → Bool) : Option Char → List Char → List Cursor
  | prev, [] => [⟨prev, []⟩]
  | prev, c :: text =>
    ⟨prev, c :: text⟩ :: if p c then manyRests p (some c) text else []

/-- The places where a match that starts at the cursor may end. -/
def Regex.rests (word : Char → Bool) : Regex → Cursor → List Cursor
  | .empty, cur => [cur]
  | .one p, cur =>
    match cur.rest with
    | [] => []
    | c :: text => if p c then [⟨some c, text⟩] else []
  | .many p, cur => manyRests p cur.prev cur.rest
  | .boundary, cur =>
    if wordAt word cur.prev != wordAt word cur.rest.head? then [cur] else []
  | .seq r s, cur => (r.rests word cur).flatMap (s.rests word)
  | .alt r s, cur => r.rests word cur ++ s.rests word cur

/-- Every place of a text. -/
def cursors (prev : Option Char) (text : List Char) : List Cursor :=
  manyRests (fun _ => true) prev text

/-- An expression to search for. With a `lead` class it stands for
`(^|[lead])body`: the start of the text or a character of the class comes before. -/
structure Pattern where
  lead : Option (Char → Bool)
  body : Regex

/-- The body may start after this character. -/
def Pattern.opens (p : Pattern) (prev : Option Char) : Bool :=
  match p.lead, prev with
  | some lead, some c => lead c
  | _, _ => true

@[simp] theorem Pattern.opens_none (p : Pattern) : p.opens none = true := by
  cases h : p.lead <;> simp [opens, h]

/-- Some part of the text matches. -/
def Pattern.isMatch (word : Char → Bool) (p : Pattern) (text : List Char) : Bool :=
  (cursors none text).any fun cur =>
    p.opens cur.prev && !(p.body.rests word cur).isEmpty

/-! ## Building expressions -/

/-- The simple case folding of the letters that fold to an ASCII one: the long s
and the Kelvin sign fold too. -/
def foldCase (c : Char) : Char :=
  if c = Char.ofNat 0x17F then 's'
  else if c = Char.ofNat 0x212A then 'k'
  else c.toLower

/-- A text in any case; it is given in lower case. -/
def Regex.text (s : String) : Regex :=
  s.toList.foldr (fun c r => .seq (.one fun c' => foldCase c' == c) r) .empty

/-- `r+` for a class. -/
def Regex.some (p : Char → Bool) : Regex := .seq (.one p) (.many p)

/-- `r?`. -/
def Regex.optional (r : Regex) : Regex := .alt r .empty

/-- One of several texts. -/
def Regex.oneOf : List String → Regex
  | [] => .one fun _ => false
  | [s] => .text s
  | s :: rest => .alt (.text s) (.oneOf rest)

/-- One expression after another. -/
def Regex.all : List Regex → Regex
  | [] => .empty
  | r :: rest => .seq r (.all rest)

/-! ## Putting a text into a larger one -/

/-- The second cursor stands at the same place as the first, with `ext` after the
text, and no word begins or ends there that did not before. -/
structure Embeds (word : Char → Bool) (ext : List Char) (cur cur' : Cursor) : Prop where
  prev : wordAt word cur'.prev = wordAt word cur.prev
  rest : cur'.rest = cur.rest ++ ext

variable {word : Char → Bool} {ext text : List Char} {cur : Cursor}

theorem mem_manyRests_embeds (p : Char → Bool) {prev prev' : Option Char}
    (hprev : wordAt word prev' = wordAt word prev) (h : cur ∈ manyRests p prev text) :
    ∃ cur' ∈ manyRests p prev' (text ++ ext), Embeds word ext cur cur' := by
  induction text generalizing prev prev' with
  | nil =>
    simp only [manyRests, List.mem_singleton] at h
    subst h
    refine ⟨⟨prev', ext⟩, ?_, hprev, by simp⟩
    cases ext <;> simp [manyRests]
  | cons c text ih =>
    simp only [manyRests, List.mem_cons] at h
    rcases h with rfl | h
    · exact ⟨⟨prev', c :: text ++ ext⟩, by simp [manyRests], hprev, by simp⟩
    · by_cases hc : p c = true
      · simp only [hc] at h
        obtain ⟨cur', hmem, hcur⟩ := ih rfl h
        exact ⟨cur', by simp [manyRests, hc, hmem], hcur⟩
      · simp [hc] at h

theorem wordAt_head?_append (hext : wordAt word ext.head? = false) (text : List Char) :
    wordAt word (text ++ ext).head? = wordAt word text.head? := by
  cases text with
  | nil => simpa [wordAt] using hext
  | cons c text => simp

/-- A match survives an extension on both sides by characters outside words. -/
theorem Regex.exists_mem_rests (hext : wordAt word ext.head? = false) (r : Regex)
    {cur' stop : Cursor} (hcur : Embeds word ext cur cur') (h : stop ∈ r.rests word cur) :
    ∃ stop' ∈ r.rests word cur', Embeds word ext stop stop' := by
  induction r generalizing cur cur' stop with
  | empty =>
    simp only [rests, List.mem_singleton] at h
    subst h
    exact ⟨cur', by simp [rests], hcur⟩
  | one p =>
    cases htext : cur.rest with
    | nil => simp [rests, htext] at h
    | cons c text =>
      simp only [rests, htext] at h
      by_cases hc : p c = true
      · simp only [hc, if_true, List.mem_singleton] at h
        subst h
        exact ⟨⟨Option.some c, text ++ ext⟩, by simp [rests, hcur.rest, htext, hc], rfl, rfl⟩
      · simp [hc] at h
  | many p =>
    simp only [rests, hcur.rest] at h ⊢
    exact mem_manyRests_embeds p hcur.prev h
  | boundary =>
    simp only [rests, hcur.rest, hcur.prev, wordAt_head?_append hext] at h ⊢
    by_cases hb : (wordAt word cur.prev != wordAt word cur.rest.head?) = true
    · simp only [hb, if_true, List.mem_singleton] at h
      subst h
      exact ⟨cur', by simp [hb], hcur⟩
    · simp [hb] at h
  | seq r s ihr ihs =>
    simp only [rests, List.mem_flatMap] at h
    have ⟨mid, hmid, hstop⟩ := h
    have ⟨mid', hmid', hembeds⟩ := ihr hcur hmid
    have ⟨stop', hstop', hend⟩ := ihs hembeds hstop
    exact ⟨stop', by simp only [rests, List.mem_flatMap]; exact ⟨mid', hmid', hstop'⟩, hend⟩
  | alt r s ihr ihs =>
    simp only [rests, List.mem_append] at h
    rcases h with h | h
    · have ⟨stop', hmem, hend⟩ := ihr hcur h
      exact ⟨stop', by simp [rests, hmem], hend⟩
    · have ⟨stop', hmem, hend⟩ := ihs hcur h
      exact ⟨stop', by simp [rests, hmem], hend⟩

/-- The places of a text are places of a larger one. Only the first may have
another character before it. -/
theorem exists_mem_cursors {prev prev' : Option Char} (h : cur ∈ cursors prev text) :
    ∃ cur' ∈ cursors prev' (text ++ ext), cur'.rest = cur.rest ++ ext ∧
      (cur'.prev = cur.prev ∨ cur.prev = prev ∧ cur'.prev = prev') := by
  induction text generalizing prev prev' with
  | nil =>
    simp only [cursors, manyRests, List.mem_singleton] at h
    subst h
    cases ext <;> simp [cursors, manyRests]
  | cons c text ih =>
    simp only [cursors, manyRests, List.mem_cons] at h
    rcases h with rfl | h
    · exact ⟨⟨prev', c :: text ++ ext⟩, by simp [cursors, manyRests], by simp⟩
    · obtain ⟨cur', hmem, hrest, hprev⟩ := @ih _ (Option.some c) h
      refine ⟨cur', ?_, hrest, ?_⟩
      · simp only [cursors, List.cons_append, manyRests, List.mem_cons]
        exact Or.inr hmem
      · rcases hprev with hprev | ⟨hprev, hprev'⟩
        · exact Or.inl hprev
        · exact Or.inl (hprev'.trans hprev.symm)

theorem mem_cursors_append {front : List Char} {prev : Option Char}
    (h : cur ∈ cursors (front.getLast?.or prev) text) : cur ∈ cursors prev (front ++ text) := by
  induction front generalizing prev with
  | nil => simpa using h
  | cons c front ih =>
    simp only [cursors, List.cons_append, manyRests, List.mem_cons]
    refine Or.inr (ih ?_)
    cases front with
    | nil => simpa using h
    | cons c' front =>
      have hsome : ((c' :: front).getLast?.or prev) = ((c' :: front).getLast?.or (some c)) := by
        simp [List.getLast?_cons]
      rwa [← hsome]

/-- What a search finds in a text it finds in a larger one, when the characters
next to the text belong to no word and the one before it may lead the pattern. -/
theorem Pattern.isMatch_infix {p : Pattern} {front : List Char}
    (hext : wordAt word ext.head? = false) (hfront : wordAt word front.getLast? = false)
    (hlead : p.opens front.getLast? = true) (h : p.isMatch word text = true) :
    p.isMatch word (front ++ text ++ ext) = true := by
  simp only [isMatch, List.any_eq_true, Bool.and_eq_true] at h ⊢
  have ⟨cur, hmem, hopen, hrests⟩ := h
  have ⟨cur', hmem', hrest, hprev⟩ : ∃ cur' ∈ cursors front.getLast? (text ++ ext),
      cur'.rest = cur.rest ++ ext ∧
        (cur'.prev = cur.prev ∨ cur.prev = none ∧ cur'.prev = front.getLast?) :=
    exists_mem_cursors hmem
  have hembeds : Embeds word ext cur cur' := by
    refine ⟨?_, hrest⟩
    rcases hprev with hprev | ⟨hprev, hprev'⟩
    · rw [hprev]
    · rw [hprev, hprev', hfront, wordAt]
  have hwhole : cur' ∈ cursors none (front ++ (text ++ ext)) := by
    refine mem_cursors_append ?_
    rwa [Option.or_none]
  refine ⟨cur', by rwa [List.append_assoc], ?_, ?_⟩
  · rcases hprev with hprev | ⟨-, hprev'⟩
    · rwa [hprev]
    · rwa [hprev']
  · cases hstops : p.body.rests word cur with
    | nil => simp [hstops] at hrests
    | cons stop stops =>
      have ⟨stop', hstop', _⟩ := p.body.exists_mem_rests hext hembeds
        (show stop ∈ p.body.rests word cur by simp [hstops])
      cases hstops' : p.body.rests word cur' with
      | nil => simp [hstops'] at hstop'
      | cons _ _ => simp

end Argmax.Lib.Search
