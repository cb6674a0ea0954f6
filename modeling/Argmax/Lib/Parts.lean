import Mathlib.Data.List.Chain
import Mathlib.Data.List.Infix

/-!
# Separated parts and filled places

Where the parts of a text that is split at separators lie in it, and two texts that differ only in
what their places are filled with. What fills a place is inert: no rule about neighbours or single
elements minds it, so the rules hold of one text if they hold of the other.
-/

namespace Argmax.Lib.Parts

variable {α : Type*}

/-! ## Parts -/

section Split

variable {p : α → Bool}

/-- The first part goes up to the first separator, and each other one follows a separator. -/
theorem splitOnP_eq_cons {as part : List α} {parts : List (List α)}
    (h : as.splitOnP p = part :: parts) :
    (∃ after, as = part ++ after ∧ ∀ s ∈ after.head?, p s = true) ∧
      ∀ q ∈ parts, ∃ before s after, as = before ++ s :: (q ++ after) ∧ p s = true ∧
        ∀ s ∈ after.head?, p s = true := by
  induction as generalizing part parts with
  | nil =>
    have ⟨hpart, hparts⟩ := List.cons.inj (List.splitOnP_nil.symm.trans h)
    subst hpart hparts
    exact ⟨⟨[], by simp⟩, by simp⟩
  | cons a as ih =>
    rw [List.splitOnP_cons_eq_if_modifyHead] at h
    obtain ⟨first, rest, hsplit⟩ := List.exists_cons_of_ne_nil (List.splitOnP_ne_nil p as)
    have ⟨hfirst, hrest⟩ := ih hsplit
    have hlater : ∀ q ∈ rest, ∃ before s after, a :: as = before ++ s :: (q ++ after) ∧
        p s = true ∧ ∀ s ∈ after.head?, p s = true := by
      intro q hq
      obtain ⟨before, s, after, has, hs⟩ := hrest q hq
      exact ⟨a :: before, s, after, by simp [has], hs⟩
    by_cases ha : p a = true
    · rw [if_pos ha] at h
      have ⟨hpart, hparts⟩ := List.cons.inj h
      subst hpart hparts
      refine ⟨⟨a :: as, by simp, by simpa using ha⟩, ?_⟩
      intro q hq
      rw [hsplit, List.mem_cons] at hq
      rcases hq with rfl | hq
      · obtain ⟨after, has, hafter⟩ := hfirst
        exact ⟨[], a, after, by simp [has], ha, hafter⟩
      · exact hlater q hq
    · rw [if_neg ha, hsplit] at h
      have ⟨hpart, hparts⟩ := List.cons.inj h
      subst hpart hparts
      obtain ⟨after, has, hafter⟩ := hfirst
      exact ⟨⟨after, by simp [has], hafter⟩, hlater⟩

/-- A part lies between the ends or separators. -/
theorem exists_of_mem_splitOnP {as part : List α} (h : part ∈ as.splitOnP p) :
    ∃ before after, as = before ++ part ++ after ∧ (∀ s ∈ before.getLast?, p s = true) ∧
      ∀ s ∈ after.head?, p s = true := by
  obtain ⟨first, rest, hsplit⟩ := List.exists_cons_of_ne_nil (List.splitOnP_ne_nil p as)
  have ⟨hfirst, hrest⟩ := splitOnP_eq_cons hsplit
  rw [hsplit, List.mem_cons] at h
  rcases h with rfl | h
  · obtain ⟨after, has, hafter⟩ := hfirst
    exact ⟨[], after, by simpa using has, by simp, hafter⟩
  · obtain ⟨before, s, after, has, hs, hafter⟩ := hrest part h
    exact ⟨before ++ [s], after, by simp [has], by simpa using hs, hafter⟩

/-- A part has no separator in it. -/
theorem not_of_mem_splitOnP {as part : List α} (h : part ∈ as.splitOnP p) :
    ∀ a ∈ part, p a = false := by
  induction as generalizing part with
  | nil => simp_all
  | cons b as ih =>
    obtain ⟨first, rest, hsplit⟩ := List.exists_cons_of_ne_nil (List.splitOnP_ne_nil p as)
    rw [List.splitOnP_cons_eq_if_modifyHead] at h
    by_cases hb : p b = true
    · rw [if_pos hb, List.mem_cons] at h
      rcases h with rfl | h
      · simp
      · exact ih h
    · rw [if_neg hb, hsplit, List.modifyHead_cons, List.mem_cons] at h
      rcases h with rfl | h
      · intro a ha
        rcases List.mem_cons.1 ha with rfl | ha
        · simpa using hb
        · exact ih (hsplit ▸ List.mem_cons_self) a ha
      · exact ih (hsplit ▸ List.mem_cons_of_mem first h)

/-- What follows the start or a separator, and is none itself, heads a part. -/
theorem exists_mem_splitOnP_head (before after : List α) {a : α}
    (hbefore : ∀ s ∈ before.getLast?, p s = true) (ha : p a = false) :
    ∃ part ∈ (before ++ a :: after).splitOnP p, part.head? = some a := by
  have hhead : ∃ part ∈ (a :: after).splitOnP p, part.head? = some a := by
    obtain ⟨first, rest, hsplit⟩ := List.exists_cons_of_ne_nil (List.splitOnP_ne_nil p after)
    rw [List.splitOnP_cons_eq_if_modifyHead, if_neg (by simp [ha]), hsplit]
    exact ⟨a :: first, by simp⟩
  cases before using List.reverseRecOn with
  | nil => exact hhead
  | append_singleton before s =>
    obtain ⟨part, hmem, hpart⟩ := hhead
    have hs : p s = true := hbefore s (by simp)
    rw [List.append_assoc, List.singleton_append, List.splitOnP_append_cons _ _ hs]
    exact ⟨part, List.mem_append_right _ hmem, hpart⟩

/-- What stands before and behind the last element of a kind. -/
theorem eq_of_append_cons {front front' back back' : List α} {a a' : α}
    (h : front ++ a :: back = front' ++ a' :: back') (ha : p a = true) (ha' : p a' = true)
    (hback : ∀ b ∈ back, p b = false) (hback' : ∀ b ∈ back', p b = false) :
    front = front' ∧ a = a' ∧ back = back' := by
  have htail : ∀ {front back : List α} {a : α}, p a = true → (∀ b ∈ back, p b = false) →
      (front ++ a :: back).reverse.takeWhile (fun b => !p b) = back.reverse := by
    intro front back a ha hback
    have hall : ∀ b ∈ back.reverse, (!p b) = true := by simpa using hback
    rw [List.reverse_append, List.reverse_cons, List.append_assoc,
      List.takeWhile_append_of_pos hall]
    simp [ha]
  have hreverse := @htail front _ _ ha hback
  rw [h, htail ha' hback', List.reverse_inj] at hreverse
  subst hreverse
  obtain ⟨hfront, hcons⟩ := List.append_inj' h (by simp)
  exact ⟨hfront, (List.cons.inj hcons).1, rfl⟩

end Split

/-- A pair that occurs nowhere is a rule about neighbours. -/
theorem not_pair_infix_iff (as : List α) (a b : α) :
    ¬ [a, b] <:+: as ↔ as.IsChain fun x y => ¬ (x = a ∧ y = b) := by
  rw [List.isChain_iff_forall_rel_of_append_cons_cons]
  constructor
  · rintro h x y front back has ⟨rfl, rfl⟩
    exact h ⟨front, back, by simp [has]⟩
  · rintro h ⟨front, back, has⟩
    exact h (by simpa using has.symm) ⟨rfl, rfl⟩

/-! ## Places -/

/-- The same text, with a value of `Fits` in each place. -/
inductive Alike (Fits : List α → Prop) : List α → List α → Prop
  | nil : Alike Fits [] []
  | keep (a : α) {as bs : List α} : Alike Fits as bs → Alike Fits (a :: as) (a :: bs)
  | fill {value value' as bs : List α} : Fits value → Fits value' → Alike Fits as bs →
      Alike Fits (value ++ as) (value' ++ bs)

namespace Alike

variable {Fits : List α → Prop} {inert : α → Prop} {as bs : List α}

/-- A text begins like the other or with a value. -/
theorem head (hne : ∀ value, Fits value → value ≠ []) (h : Alike Fits as bs) :
    as.head? = bs.head? ∨ ∃ value, Fits value ∧ as.head? = value.head? := by
  cases h with
  | nil => simp
  | keep => simp
  | @fill value _ as _ hvalue =>
    right
    refine ⟨value, hvalue, ?_⟩
    rw [List.head?_append_of_ne_nil _ (hne value hvalue)]

theorem eq_nil_iff (hne : ∀ value, Fits value → value ≠ []) (h : Alike Fits as bs) :
    as = [] ↔ bs = [] := by
  cases h with
  | nil => simp
  | keep => simp
  | fill hvalue hvalue' => simp [hne _ hvalue, hne _ hvalue']

theorem mem (hinert : ∀ value, Fits value → ∀ a ∈ value, inert a) (h : Alike Fits as bs) :
    ∀ a ∈ as, a ∈ bs ∨ inert a := by
  induction h with
  | nil => simp
  | keep a _ ih =>
    intro b hb
    rcases List.mem_cons.1 hb with rfl | hb
    · simp
    · exact (ih b hb).imp_left (List.mem_cons_of_mem a)
  | fill hvalue _ _ ih =>
    intro b hb
    rcases List.mem_append.1 hb with hb | hb
    · exact .inr (hinert _ hvalue b hb)
    · exact (ih b hb).imp_left (List.mem_append_right _)

/-- A text ends like the other or inertly. -/
theorem last (hne : ∀ value, Fits value → value ≠ [])
    (hinert : ∀ value, Fits value → ∀ a ∈ value, inert a) (h : Alike Fits as bs) :
    ∀ a ∈ as.getLast?, a ∈ bs.getLast? ∨ inert a := by
  induction h with
  | nil => simp
  | @keep c as bs h ih =>
    intro a ha
    by_cases has : as = []
    · have hbs := (h.eq_nil_iff hne).1 has
      subst has hbs
      exact .inl ha
    · have hbs : bs ≠ [] := fun hbs => has ((h.eq_nil_iff hne).2 hbs)
      rw [← List.singleton_append, List.getLast?_append_of_ne_nil _ has] at ha
      rw [← List.singleton_append, List.getLast?_append_of_ne_nil _ hbs]
      exact ih a ha
  | @fill value value' as bs hvalue _ h ih =>
    intro a ha
    by_cases has : as = []
    · rw [has, List.append_nil] at ha
      exact .inr (hinert _ hvalue a (List.mem_of_getLast? ha))
    · have hbs : bs ≠ [] := fun hbs => has ((h.eq_nil_iff hne).2 hbs)
      rw [List.getLast?_append_of_ne_nil _ has] at ha
      rw [List.getLast?_append_of_ne_nil _ hbs]
      exact ih a ha

/-- Without anything inert in it a text has no places. -/
theorem eq_of_not_inert (hne : ∀ value, Fits value → value ≠ [])
    (hinert : ∀ value, Fits value → ∀ a ∈ value, inert a) (h : Alike Fits as bs)
    (has : ∀ a ∈ as, ¬ inert a) : as = bs := by
  induction h with
  | nil => rfl
  | keep a _ ih => rw [ih fun b hb => has b (List.mem_cons_of_mem a hb)]
  | @fill value _ _ _ hvalue =>
    obtain ⟨a, ha⟩ := List.exists_mem_of_ne_nil value (hne value hvalue)
    exact absurd (hinert value hvalue a ha) (has a (List.mem_append_left _ ha))

variable {R : α → α → Prop}

/-- A rule about neighbours that what is inert keeps carries over. -/
theorem isChain (hleft : ∀ a b, inert a → R a b) (hright : ∀ a b, inert b → R a b)
    (hne : ∀ value, Fits value → value ≠ [])
    (hinert : ∀ value, Fits value → ∀ a ∈ value, inert a) (h : Alike Fits as bs)
    (hbs : bs.IsChain R) : as.IsChain R := by
  induction h with
  | nil => exact hbs
  | @keep c as bs h ih =>
    rw [List.isChain_cons] at hbs ⊢
    refine ⟨?_, ih hbs.2⟩
    intro a ha
    rcases h.head hne with hsame | ⟨value, hvalue, hhead⟩
    · exact hbs.1 a (hsame ▸ ha)
    · exact hright c a (hinert value hvalue a (List.mem_of_head? (hhead ▸ ha)))
  | @fill value value' as bs hvalue _ _ ih =>
    rw [List.isChain_append] at hbs ⊢
    refine ⟨?_, ih hbs.2.1, ?_⟩
    · rw [List.isChain_iff_forall_rel_of_append_cons_cons]
      intro a b front back hsplit
      exact hleft a b (hinert value hvalue a (by simp [hsplit]))
    · intro a ha b _
      exact hleft a b (hinert value hvalue a (List.mem_of_getLast? ha))

end Alike

end Argmax.Lib.Parts
