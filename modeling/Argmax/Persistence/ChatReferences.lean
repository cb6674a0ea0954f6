import Argmax.Lib.Text

/-!
# Chat references in a prompt

`persistence/events.rs`: a link to another chat in a prompt that a person wrote lets the
session read that chat. The links are found by a regular expression; no class of it holds
the character that ends a run, so a run is never given back and the expression is read from
left to right.

Text that an agent can set goes into such prompts without brackets. A link begins with its
only opening bracket, so none begins in that text. One that begins before it can still end
behind it.
-/

namespace Argmax.Persistence.ChatReferences

open Argmax.Lib.Text

/-! ## The grammar -/

/-- `[^\[\]\n]`. -/
def isTitleChar (c : Char) : Bool := c != '[' && c != ']' && c != '\n'

/-- `[A-Za-z0-9_-]`. -/
def isIdChar (c : Char) : Bool := c.isAlphanum || c == '_' || c == '-'

/-- `[A-Za-z0-9_=&.-]`. -/
def isQueryChar (c : Char) : Bool := isIdChar c || c == '=' || c == '&' || c == '.'

structure Link where
  title : List Char
  id : List Char
  query : Option (List Char)

/-- A literal part of the expression: what stands behind it. -/
def literalAt (literal text : List Char) : Option (List Char) :=
  if literal <+: text then some (text.drop literal.length) else none

/-- A run of one character or more: the run, and what stands behind it. -/
def runAt (p : Char → Bool) (text : List Char) : Option (List Char × List Char) :=
  if text.takeWhile p = [] then none else some (text.takeWhile p, text.dropWhile p)

/-- `(?:\?([A-Za-z0-9_=&.-]*))?`. -/
def queryAt : List Char → Option (List Char) × List Char
  | '?' :: text => (some (text.takeWhile isQueryChar), text.dropWhile isQueryChar)
  | text => (none, text)

/-- `](argmax://chat/`. -/
def linkMiddle : List Char := "](argmax://chat/".toList

/-- The link that begins a text, and the text behind it. -/
def linkAt (text : List Char) : Option (Link × List Char) := do
  let text ← literalAt ['['] text
  let (title, text) ← runAt isTitleChar text
  let text ← literalAt linkMiddle text
  let (id, text) ← runAt isIdChar text
  let (query, text) := queryAt text
  let text ← literalAt [')'] text
  if id.length ≤ 64 then some (⟨title, id, query⟩, text) else none

/-- `split('&')`. -/
def splitPairs (query : List Char) : List (List Char) := query.splitOn '&'

/-- `split_once('=')`, or the whole and nothing. -/
def splitPair (pair : List Char) : List Char × List Char :=
  (pair.takeWhile (· != '='), (pair.dropWhile (· != '=')).drop 1)

/-- The first value under a key. -/
def firstValue (query key : List Char) : Option (List Char) :=
  (((splitPairs query).map splitPair).find? (·.1 == key)).map (·.2)

def idOk (value : List Char) : Bool :=
  decide (1 ≤ byteLength value) && decide (byteLength value ≤ 64) && value.all isIdChar

def chatReferenceQueryOk : Option (List Char) → Bool
  | none => true
  | some query =>
    (firstValue query ['v']).all (· == ['1']) && (firstValue query ['e']).all idOk

/-- The link is one that the composer draws. -/
def Link.drawn (link : Link) : Bool :=
  decide (1 ≤ utf16Length link.title) && decide (utf16Length link.title ≤ 120) &&
    chatReferenceQueryOk link.query

/-- `captures_iter`: the links of a text, where its first characters are part of a link
that was found before. -/
def linksFrom : ℕ → List Char → List Link
  | _, [] => []
  | skip + 1, _ :: text => linksFrom skip text
  | 0, c :: text =>
    match linkAt (c :: text) with
    | some (link, rest) => link :: linksFrom (text.length - rest.length) text
    | none => linksFrom 0 text

def chatReferenceIds (text : List Char) : List (List Char) :=
  ((linksFrom 0 text).filter Link.drawn).map (·.id)

def withoutChatLinkBrackets (text : List Char) : List Char :=
  (text.map fun c => if c = '[' then '(' else c).map fun c => if c = ']' then ')' else c

/-- What the query of `human_referenced_session_ids` reads of an event. -/
structure Prompt where
  sessionId : String
  type : String
  promptAuthor : Option String
  message : List Char

def chatReferencePrefix : List Char := "argmax://chat/".toList

def humanReferencedSessionIds (events : List Prompt) (sessionId : String) : List (List Char) :=
  (events.filter fun event => event.sessionId == sessionId && event.type == "user.message" &&
    event.promptAuthor == some "person" &&
    containsText event.message chatReferencePrefix).flatMap fun event =>
      chatReferenceIds event.message

/-! ## What a link is -/

/-- The text of a query. -/
def queryText : Option (List Char) → List Char
  | none => []
  | some query => '?' :: query

/-- The text of a link behind its first character. -/
def Link.body (link : Link) : List Char :=
  link.title ++ (linkMiddle ++ (link.id ++ (queryText link.query ++ [')'])))

/-- The text of a link. -/
def Link.text (link : Link) : List Char := '[' :: link.body

/-- The link is one of the regular expression. -/
structure Link.WellFormed (link : Link) : Prop where
  title : link.title ≠ []
  titleChars : ∀ c ∈ link.title, isTitleChar c = true
  id : link.id ≠ []
  idChars : ∀ c ∈ link.id, isIdChar c = true
  idLength : link.id.length ≤ 64
  queryChars : ∀ query ∈ link.query, ∀ c ∈ query, isQueryChar c = true

theorem literalAt_eq_some {literal text rest : List Char} :
    literalAt literal text = some rest ↔ text = literal ++ rest := by
  rw [literalAt]
  constructor
  · intro h
    split at h
    · rename_i hprefix
      have ⟨rest', heq⟩ := hprefix
      subst heq
      simpa using h
    · cases h
  · rintro rfl
    simp

theorem runAt_append {p : Char → Bool} {run rest : List Char} (hne : run ≠ [])
    (hrun : ∀ c ∈ run, p c = true) (hrest : ∀ c ∈ rest.head?, p c = false) :
    runAt p (run ++ rest) = some (run, rest) := by
  have htake : rest.takeWhile p = [] ∧ rest.dropWhile p = rest := by
    cases rest with
    | nil => simp
    | cons c rest => simp [hrest c rfl]
  rw [runAt, List.takeWhile_append_of_pos hrun, List.dropWhile_append_of_pos hrun, htake.1,
    htake.2, List.append_nil, if_neg hne]

theorem of_runAt {p : Char → Bool} {text run rest : List Char}
    (h : runAt p text = some (run, rest)) :
    text = run ++ rest ∧ run ≠ [] ∧ ∀ c ∈ run, p c = true := by
  rw [runAt] at h
  split at h
  · cases h
  · rename_i hne
    cases h
    exact ⟨List.takeWhile_append_dropWhile.symm, hne, fun c hc => List.mem_takeWhile_imp hc⟩

theorem queryAt_append {query : Option (List Char)}
    (h : ∀ text ∈ query, ∀ c ∈ text, isQueryChar c = true) (rest : List Char) :
    queryAt (queryText query ++ ')' :: rest) = (query, ')' :: rest) := by
  cases query with
  | none => rfl
  | some text =>
    rw [queryText, List.cons_append, queryAt, List.takeWhile_append_of_pos (h text rfl),
      List.dropWhile_append_of_pos (h text rfl)]
    simp [isQueryChar, isIdChar]

theorem of_queryAt {text rest : List Char} {query : Option (List Char)}
    (h : queryAt text = (query, rest)) :
    text = queryText query ++ rest ∧ ∀ text ∈ query, ∀ c ∈ text, isQueryChar c = true := by
  unfold queryAt at h
  split at h
  · cases h
    refine ⟨by simp [queryText], ?_⟩
    intro query hquery c hc
    cases hquery
    exact List.mem_takeWhile_imp hc
  · cases h
    exact ⟨rfl, by simp⟩

theorem Link.WellFormed.linkAt_append {link : Link} (h : link.WellFormed) (rest : List Char) :
    linkAt (link.text ++ rest) = some (link, rest) := by
  have hopen : literalAt ['['] (link.text ++ rest) = some (link.body ++ rest) :=
    literalAt_eq_some.mpr rfl
  have htitle : runAt isTitleChar (link.body ++ rest) = some (link.title,
      linkMiddle ++ (link.id ++ (queryText link.query ++ ')' :: rest))) := by
    rw [Link.body]
    simp only [List.append_assoc]
    refine runAt_append h.title h.titleChars ?_
    intro c hc
    cases hc
    decide
  have hmiddle := literalAt_eq_some.mpr
    (Eq.refl (linkMiddle ++ (link.id ++ (queryText link.query ++ ')' :: rest))))
  have hid : runAt isIdChar (link.id ++ (queryText link.query ++ ')' :: rest)) =
      some (link.id, queryText link.query ++ ')' :: rest) := by
    refine runAt_append h.id h.idChars ?_
    intro c hc
    cases hquery : link.query with
    | none =>
      rw [hquery] at hc
      cases hc
      decide
    | some query =>
      rw [hquery] at hc
      cases hc
      decide
  have hclose : literalAt [')'] (')' :: rest) = some rest := literalAt_eq_some.mpr rfl
  simp [linkAt, hopen, htitle, hmiddle, hid, queryAt_append h.queryChars, hclose, h.idLength]

theorem of_linkAt {text rest : List Char} {link : Link} (h : linkAt text = some (link, rest)) :
    link.WellFormed ∧ text = link.text ++ rest := by
  simp only [linkAt, bind, Option.bind_eq_some_iff, Prod.exists] at h
  have ⟨text₁, hopen, title, text₂, htitle, text₃, hmiddle, id, text₄, hid, text₆, hclose, hlink⟩ := h
  have ⟨htitleText, htitleNe, htitleChars⟩ := of_runAt htitle
  have ⟨hidText, hidNe, hidChars⟩ := of_runAt hid
  have ⟨query, text₅, hquery⟩ : ∃ query text₅, queryAt text₄ = (query, text₅) := ⟨_, _, rfl⟩
  have ⟨hqueryText, hqueryChars⟩ := of_queryAt hquery
  rw [hquery] at hclose hlink
  split at hlink
  case isFalse => cases hlink
  case isTrue hlength =>
    cases hlink
    refine ⟨⟨htitleNe, htitleChars, hidNe, hidChars, hlength, hqueryChars⟩, ?_⟩
    have hclosed : text₅ = [')'] ++ rest := literalAt_eq_some.mp hclose
    rw [literalAt_eq_some.mp hopen, htitleText, literalAt_eq_some.mp hmiddle, hidText, hqueryText,
      hclosed]
    simp [Link.text, Link.body]

/-- The link that begins a text is the only one. -/
theorem linkAt_eq_some {text rest : List Char} {link : Link} :
    linkAt text = some (link, rest) ↔ link.WellFormed ∧ text = link.text ++ rest := by
  constructor
  · exact of_linkAt
  · rintro ⟨h, rfl⟩
    exact h.linkAt_append rest

/-- A link has no other opening bracket than its first character. -/
theorem Link.WellFormed.notMem_body {link : Link} (h : link.WellFormed) : '[' ∉ link.body := by
  have hmiddle : '[' ∉ linkMiddle := by decide
  have hquery : '[' ∉ queryText link.query := by
    cases hq : link.query with
    | none => simp [queryText]
    | some query =>
      intro hmem
      rcases List.mem_cons.mp hmem with hc | hc
      · cases hc
      · exact absurd (h.queryChars query hq '[' hc) (by decide)
  simp only [Link.body, List.mem_append, not_or]
  refine ⟨fun hmem => ?_, hmiddle, fun hmem => ?_, hquery, by simp⟩
  · exact absurd (h.titleChars '[' hmem) (by decide)
  · exact absurd (h.idChars '[' hmem) (by decide)

/-! ## The links of a text -/

theorem linksFrom_eq_drop (skip : ℕ) (text : List Char) :
    linksFrom skip text = linksFrom 0 (text.drop skip) := by
  induction skip generalizing text with
  | zero => rfl
  | succ skip ih =>
    cases text with
    | nil => rfl
    | cons c text => rw [linksFrom, ih, List.drop_succ_cons]

theorem linksFrom_link {text rest : List Char} {link : Link}
    (h : linkAt text = some (link, rest)) : linksFrom 0 text = link :: linksFrom 0 rest := by
  have ⟨_, htext⟩ := linkAt_eq_some.mp h
  rw [Link.text, List.cons_append] at htext
  subst htext
  have hrest := linksFrom_eq_drop link.body.length (link.body ++ rest)
  rw [linksFrom, h]
  simpa using hrest

theorem linksFrom_skip {c : Char} {text : List Char} (h : linkAt (c :: text) = none) :
    linksFrom 0 (c :: text) = linksFrom 0 text := by
  rw [linksFrom, h]

theorem linkAt_of_ne {c : Char} (h : c ≠ '[') (text : List Char) : linkAt (c :: text) = none := by
  cases hlink : linkAt (c :: text) with
  | none => rfl
  | some found =>
    have ⟨_, htext⟩ := of_linkAt hlink
    exact absurd (List.cons.inj htext).1 h

/-- No link begins in a text without an opening bracket. -/
theorem linksFrom_append_of_notMem {front : List Char} (h : '[' ∉ front) (text : List Char) :
    linksFrom 0 (front ++ text) = linksFrom 0 text := by
  induction front with
  | nil => rfl
  | cons c front ih =>
    have ⟨hc, hfront⟩ := not_or.mp (mt List.mem_cons.mpr h)
    rw [List.cons_append, linksFrom_skip (linkAt_of_ne (Ne.symm hc) _), ih hfront]

/-- The end of the text stands in the middle of a link that the composer would draw: some
text behind it would complete the link. -/
def EndsInsideLink (text : List Char) : Prop :=
  ∃ link : Link, link.WellFormed ∧ link.drawn = true ∧
    ∃ begun rest, begun <:+ text ∧ begun ≠ [] ∧ rest ≠ [] ∧ link.text = begun ++ rest

/-- A link that is found stands in the text already, or ends behind it. -/
theorem linkAt_append {text text' rest : List Char} {link : Link}
    (h : linkAt (text ++ text') = some (link, rest)) :
    (∃ front, rest = front ++ text' ∧ linkAt text = some (link, front)) ∨
      ∃ back, back ≠ [] ∧ link.text = text ++ back ∧ text' = back ++ rest := by
  have ⟨hlink, htext⟩ := linkAt_eq_some.mp h
  rcases List.append_eq_append_iff.mp htext with ⟨back, hback, htext'⟩ | ⟨front, hfront, hrest⟩
  · by_cases hnil : back = []
    · subst hnil
      left
      refine ⟨[], by simpa using htext'.symm, linkAt_eq_some.mpr ⟨hlink, by simpa using hback.symm⟩⟩
    · exact .inr ⟨back, hnil, hback, htext'⟩
  · exact .inl ⟨front, hrest, linkAt_eq_some.mpr ⟨hlink, hfront⟩⟩

theorem linkAt_append_of_some {text rest : List Char} {link : Link}
    (h : linkAt text = some (link, rest)) (text' : List Char) :
    linkAt (text ++ text') = some (link, rest ++ text') := by
  have ⟨hlink, htext⟩ := linkAt_eq_some.mp h
  exact linkAt_eq_some.mpr ⟨hlink, by rw [htext, List.append_assoc]⟩

/-- The first part of a link is none. -/
theorem linkAt_begun {text text' rest back : List Char} {link : Link}
    (h : linkAt (text ++ text') = some (link, rest)) (hback : back ≠ [])
    (htext : link.text = text ++ back) : linkAt text = none := by
  cases hlink : linkAt text with
  | none => rfl
  | some other =>
    have hother := linkAt_append_of_some hlink text'
    have hshort := congrArg List.length (linkAt_eq_some.mp hlink).2
    have hlong := congrArg List.length htext
    have hpos := List.length_pos_iff.mpr hback
    rw [h] at hother
    cases hother
    rw [List.length_append] at hshort hlong
    omega

theorem EndsInsideLink.of_suffix {text text' : List Char} (h : text <:+ text')
    (hends : EndsInsideLink text) : EndsInsideLink text' := by
  have ⟨link, hlink, hdrawn, begun, rest, hsuffix, hbegun, hrest, htext⟩ := hends
  exact ⟨link, hlink, hdrawn, begun, rest, hsuffix.trans h, hbegun, hrest, htext⟩

/-- The links that count are those of the text and those behind it. -/
theorem drawnLinks_append {text : List Char} (h : ¬EndsInsideLink text) (text' : List Char) :
    (linksFrom 0 (text ++ text')).filter Link.drawn =
      (linksFrom 0 text).filter Link.drawn ++ (linksFrom 0 text').filter Link.drawn := by
  induction hlength : text.length using Nat.strong_induction_on generalizing text with
  | _ length ih =>
    cases text with
    | nil => simp [linksFrom]
    | cons c text =>
      have hinner {front : List Char} (hsuffix : front <:+ c :: text)
          (hshort : front.length < (c :: text).length) := ih front.length (hlength ▸ hshort)
            (fun hends => h (hends.of_suffix hsuffix)) rfl
      cases hfound : linkAt (c :: (text ++ text')) with
      | none =>
        have hnone : linkAt (c :: text) = none := by
          cases hlink : linkAt (c :: text) with
          | none => rfl
          | some found =>
            have happend := linkAt_append_of_some hlink text'
            rw [List.cons_append, hfound] at happend
            cases happend
        rw [List.cons_append, linksFrom_skip hfound, linksFrom_skip hnone]
        exact hinner (List.suffix_cons _ _) (by simp)
      | some found =>
        obtain ⟨link, rest⟩ := found
        have hwhole : linkAt (c :: text ++ text') = some (link, rest) := hfound
        rw [List.cons_append, linksFrom_link hfound]
        rcases linkAt_append hwhole with ⟨front, hrest, hlink⟩ | ⟨back, hback, hlinkText, htext'⟩
        · -- the text has the link already
          have ⟨_, htext⟩ := linkAt_eq_some.mp hlink
          have hshort : front.length < (c :: text).length := by
            rw [htext, Link.text]
            simp only [List.length_append, List.length_cons]
            omega
          rw [linksFrom_link hlink, hrest, List.filter_cons, List.filter_cons,
            hinner ⟨link.text, htext.symm⟩ hshort]
          split
          · rfl
          · rfl
        · -- the link ends behind the text, so it is not one that counts
          have hwell := (linkAt_eq_some.mp hwhole).1
          have hdrawn : link.drawn = false := by
            rw [← Bool.not_eq_true]
            intro hdrawn
            exact h ⟨link, hwell, hdrawn, c :: text, back, List.suffix_rfl, by simp, hback, hlinkText⟩
          have hbody : link.body = text ++ back := by
            exact (List.cons.inj hlinkText).2
          have hnotMem := hwell.notMem_body
          rw [hbody, List.mem_append, not_or] at hnotMem
          have hfirst := linksFrom_append_of_notMem hnotMem.1 []
          rw [List.append_nil] at hfirst
          rw [linksFrom_skip (linkAt_begun hwhole hback hlinkText), htext',
            linksFrom_append_of_notMem hnotMem.2, List.filter_cons, hdrawn, hfirst]
          rfl

theorem chatReferenceIds_append {text : List Char} (h : ¬EndsInsideLink text)
    (text' : List Char) :
    chatReferenceIds (text ++ text') = chatReferenceIds text ++ chatReferenceIds text' := by
  rw [chatReferenceIds, drawnLinks_append h, List.map_append]
  rfl

/-- A text without an opening bracket ends in no link. -/
theorem not_endsInsideLink {text : List Char} (h : '[' ∉ text) : ¬EndsInsideLink text := by
  intro ⟨link, _, _, begun, rest, hsuffix, hbegun, _, htext⟩
  cases begun with
  | nil => exact hbegun rfl
  | cons c begun =>
    rw [← (List.cons.inj htext).1] at hsuffix
    exact h (hsuffix.subset (List.mem_cons_self ..))

theorem chatReferenceIds_of_notMem {text : List Char} (h : '[' ∉ text) :
    chatReferenceIds text = [] := by
  have hlinks := linksFrom_append_of_notMem h []
  rw [List.append_nil] at hlinks
  rw [chatReferenceIds, hlinks]
  rfl

theorem notMem_withoutChatLinkBrackets (text : List Char) : '[' ∉ withoutChatLinkBrackets text := by
  intro h
  have ⟨c, hc, hopen⟩ := List.mem_map.mp h
  have ⟨d, _, hd⟩ := List.mem_map.mp hc
  split at hopen
  · cases hopen
  · split at hd
    · rw [← hd] at hopen
      cases hopen
    · rename_i hne
      exact hne (hd.trans hopen)

/-- **A quote grants nothing.** It has no reference of its own, and between two texts it adds
none to theirs, unless the one before it ends inside a link. -/
theorem quoted_grants_nothing (quoted : List Char) :
    chatReferenceIds (withoutChatLinkBrackets quoted) = [] ∧
      ∀ before after, ¬EndsInsideLink before →
        chatReferenceIds (before ++ withoutChatLinkBrackets quoted ++ after) =
          chatReferenceIds before ++ chatReferenceIds after := by
  have hnotMem := notMem_withoutChatLinkBrackets quoted
  refine ⟨chatReferenceIds_of_notMem hnotMem, fun before after hbefore => ?_⟩
  rw [List.append_assoc, chatReferenceIds_append hbefore,
    chatReferenceIds_append (not_endsInsideLink hnotMem), chatReferenceIds_of_notMem hnotMem,
    List.nil_append]

theorem quoted_grants_nothing_branch :
    chatReferenceIds ("branch ".toList ++ withoutChatLinkBrackets "[x](argmax://chat/s1)".toList ++
      " and [Plain](argmax://chat/s2)".toList) =
        chatReferenceIds "branch ".toList ++
          chatReferenceIds " and [Plain](argmax://chat/s2)".toList :=
  (quoted_grants_nothing "[x](argmax://chat/s1)".toList).2 "branch ".toList
    " and [Plain](argmax://chat/s2)".toList (not_endsInsideLink (by decide))

/-- The text before a quote opens a link that the text behind it closes. -/
theorem quoted_completes_link : ¬∀ quoted before after : List Char,
    chatReferenceIds before = [] → chatReferenceIds after = [] →
      chatReferenceIds (before ++ withoutChatLinkBrackets quoted ++ after) = [] := by
  intro h
  have hids := h "s1".toList "[x](argmax://chat/".toList ")".toList (by rfl)
  exact absurd hids (by decide)

end Argmax.Persistence.ChatReferences
