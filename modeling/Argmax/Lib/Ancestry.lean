import Mathlib.Data.List.Perm.Subperm

/-!
# Parents

Each of some nodes has a parent, so every node begins a chain of parents. A chain ends, or it
runs into a cycle. Climbing a chain finds out which.

## Main results

* `rootOf_isSome`: where no chain runs into a cycle, as many steps as there are nodes are enough.
* `Trail.onCycle`: what stands between a node and its repetition is on a cycle.
* `Trail.grounded`: without the cycle at its end a climbed chain ends.
-/

namespace Argmax.Lib

open Relation

variable {κ : Type*} (parent parent' : κ → Option κ)

/-- A node and its parent. -/
def Under (a b : κ) : Prop := parent a = some b

/-- The chain of parents of a node ends. -/
def Grounded (a : κ) : Prop := Acc (fun b a => Under parent a b) a

/-- A node that is above itself. -/
def OnCycle (a : κ) : Prop := TransGen (Under parent) a a

variable {parent parent'}

theorem grounded_of_none {a : κ} (h : parent a = none) : Grounded parent a := by
  refine .intro _ fun b hb => ?_
  rw [Under, h] at hb
  cases hb

theorem grounded_of_parent {a b : κ} (h : parent a = some b) (hb : Grounded parent b) :
    Grounded parent a := by
  refine .intro _ fun c hc => ?_
  rw [Under, h] at hc
  cases hc
  exact hb

/-- A chain that ends does so when nodes lose their parents. -/
theorem Grounded.mono {a : κ} (h : Grounded parent a)
    (hsub : ∀ a b, parent' a = some b → parent a = some b) : Grounded parent' a := by
  induction h with
  | intro a _ ih => exact .intro _ fun b hb => ih b (hsub a b hb)

theorem Grounded.not_onCycle {a : κ} (h : Grounded parent a) : ¬OnCycle parent a := by
  induction h with
  | intro a _ ih =>
    intro hcycle
    have ⟨b, hb, hchain⟩ := TransGen.head'_iff.mp hcycle
    exact ih b hb (TransGen.tail' hchain hb)

theorem OnCycle.mono {a : κ} (h : OnCycle parent' a)
    (hsub : ∀ a b, parent' a = some b → parent a = some b) : OnCycle parent a :=
  TransGen.mono hsub _ _ h

/-! ## The end of a chain -/

variable (parent) in
/-- The end of a chain, with a bound on the steps. -/
def rootOf : ℕ → κ → Option κ
  | fuel, a =>
    match parent a with
    | none => some a
    | some b =>
      match fuel with
      | 0 => none
      | fuel + 1 => rootOf fuel b

theorem rootOf_eq_some {fuel : ℕ} {a root : κ} (h : rootOf parent fuel a = some root) :
    ReflTransGen (Under parent) a root ∧ parent root = none := by
  induction fuel generalizing a with
  | zero =>
    rw [rootOf] at h
    split at h
    · rename_i hnone
      cases h
      exact ⟨.refl, hnone⟩
    · cases h
  | succ fuel ih =>
    rw [rootOf] at h
    split at h
    · rename_i hnone
      cases h
      exact ⟨.refl, hnone⟩
    · rename_i b hparent
      have ⟨hchain, hnone⟩ := ih h
      exact ⟨.head hparent hchain, hnone⟩

/-- A chain that has passed distinct nodes below `a` ends in the steps that the others leave. -/
theorem rootOf_isSome_of_trail {keys trail : List κ} (hkeys : ∀ a, parent a ≠ none → a ∈ keys)
    (hacyclic : ∀ a, ¬OnCycle parent a) {fuel : ℕ} {a : κ} (hnodup : trail.Nodup)
    (hsub : trail ⊆ keys) (hbelow : ∀ b ∈ trail, TransGen (Under parent) b a)
    (hfuel : keys.length ≤ fuel + trail.length) : (rootOf parent fuel a).isSome := by
  induction fuel generalizing a trail with
  | zero =>
    rw [rootOf]
    split
    · rfl
    · rename_i b hparent
      have hmem := hkeys a (by simp [hparent])
      have hnot : a ∉ trail := fun ha => hacyclic a (hbelow a ha)
      have hlength := (List.subperm_of_subset (List.nodup_cons.mpr ⟨hnot, hnodup⟩)
        (List.cons_subset.mpr ⟨hmem, hsub⟩)).length_le
      rw [List.length_cons] at hlength
      omega
  | succ fuel ih =>
    rw [rootOf]
    split
    · rfl
    · rename_i b hparent
      have hmem := hkeys a (by simp [hparent])
      have hnot : a ∉ trail := fun ha => hacyclic a (hbelow a ha)
      apply ih (List.nodup_cons.mpr ⟨hnot, hnodup⟩) (List.cons_subset.mpr ⟨hmem, hsub⟩)
      · intro c hc
        rcases List.mem_cons.mp hc with rfl | hc
        · exact .single hparent
        · exact .tail (hbelow c hc) hparent
      · rw [List.length_cons]
        omega

theorem rootOf_isSome {keys : List κ} (hkeys : ∀ a, parent a ≠ none → a ∈ keys)
    (hacyclic : ∀ a, ¬OnCycle parent a) {fuel : ℕ} (hfuel : keys.length ≤ fuel) (a : κ) :
    (rootOf parent fuel a).isSome :=
  rootOf_isSome_of_trail hkeys hacyclic List.nodup_nil (List.nil_subset _) (by simp)
    (by simpa using hfuel)

/-! ## Climbing -/

variable (parent) in
/-- Each node of a path has the next one as its parent, and the last one has `current`. -/
def Trail (path : List κ) (current : Option κ) : Prop :=
  ∀ front a back, path = front ++ a :: back → parent a = (back ++ current.toList).head?

variable {path : List κ} {current : Option κ}

theorem Trail.push {a : κ} (h : Trail parent path (some a)) :
    Trail parent (path ++ [a]) (parent a) := by
  intro front b back hsplit
  rcases List.eq_nil_or_concat' back with rfl | ⟨back, c, rfl⟩
  · obtain ⟨rfl, hb⟩ := List.append_inj' hsplit rfl
    cases hb
    cases parent a <;> rfl
  · rw [← List.cons_append, ← List.append_assoc] at hsplit
    obtain ⟨hpath, hc⟩ := List.append_inj' hsplit rfl
    cases hc
    rw [h front b back hpath]
    cases back <;> rfl

/-- The first nodes of a trail lead to the next one. -/
theorem Trail.take {front back : List κ} {a : κ} (h : Trail parent (front ++ a :: back) current) :
    Trail parent front (some a) := by
  intro front' b back' hsplit
  rw [h front' b (back' ++ a :: back) (by rw [hsplit]; simp)]
  cases back' <;> rfl

/-- Each node of a trail is below what the trail leads to. -/
theorem Trail.under {front back : List κ} {a b : κ}
    (h : Trail parent (front ++ a :: back) (some b)) : TransGen (Under parent) a b := by
  induction back generalizing front a with
  | nil => exact .single (h front a [] rfl)
  | cons c back ih =>
    have hstep : Under parent a c := h front a (c :: back) rfl
    exact .head hstep (@ih (front ++ [a]) c (by simpa using h))

/-- **What stands between a node and its repetition is on a cycle.** -/
theorem Trail.onCycle {front back : List κ} {a b : κ}
    (h : Trail parent (front ++ a :: back) (some a)) (hb : b ∈ a :: back) :
    OnCycle parent b := by
  rcases List.mem_cons.mp hb with rfl | hb
  · exact h.under
  · have ⟨middle, rest, hsplit⟩ := List.append_of_mem hb
    subst hsplit
    have hwhole : Trail parent ((front ++ a :: middle) ++ b :: rest) (some a) := by simpa using h
    have hup : TransGen (Under parent) b a := hwhole.under
    have hdown : TransGen (Under parent) a b := hwhole.take.under
    exact hup.trans hdown

/-- A trail whose nodes keep their parents, or lose them, ends when what it leads to does. -/
theorem Trail.grounded (h : Trail parent path current)
    (hcut : ∀ a ∈ path, parent' a = none ∨ parent' a = parent a)
    (hend : ∀ a ∈ current, Grounded parent' a) : ∀ a ∈ path, Grounded parent' a := by
  have hback : ∀ back front, path = front ++ back → ∀ a ∈ back, Grounded parent' a := by
    intro back
    induction back with
    | nil => simp
    | cons b back ih =>
      intro front hpath
      have hrest := ih (front ++ [b]) (by rw [hpath]; simp)
      refine List.forall_mem_cons.mpr ⟨?_, hrest⟩
      rcases hcut b (by rw [hpath]; simp) with hnone | hkept
      · exact grounded_of_none hnone
      · rw [h front b back hpath] at hkept
        cases back with
        | cons c back => exact grounded_of_parent hkept (hrest c List.mem_cons_self)
        | nil =>
          cases current with
          | none => exact grounded_of_none hkept
          | some c => exact grounded_of_parent hkept (hend c rfl)
  exact hback path [] rfl

variable [DecidableEq κ] {stop : κ → Bool}

variable (parent stop) in
/-- The chain above `path`, and the place where it comes back to. -/
def climb : ℕ → List κ → Option κ → Option (List κ × Option ℕ)
  | _, path, none => some (path, none)
  | fuel, path, some a =>
    if stop a then some (path, none)
    else
      match path.idxOf? a with
      | some start => some (path, some start)
      | none =>
        match fuel with
        | 0 => none
        | fuel + 1 => climb fuel (path ++ [a]) (parent a)

variable (parent stop) in
/-- A climb that is over. -/
structure Climbed (path' : List κ) (cycle : Option ℕ) : Prop where
  fresh : ∀ a ∈ path', stop a = false
  trail : ∃ last, Trail parent path' last ∧
    match cycle with
    | none => ∀ a ∈ last, stop a = true
    | some start => ∃ a, last = some a ∧ path'.idxOf? a = some start

/-- What a climb finds is a trail that leads to a node where it stops, or back into itself. -/
theorem climbed {fuel : ℕ} {path' : List κ} {cycle : Option ℕ}
    (h : climb parent stop fuel path current = some (path', cycle))
    (htrail : Trail parent path current) (hstop : ∀ a ∈ path, stop a = false) :
    Climbed parent stop path' cycle ∧ path ⊆ path' ∧ ∀ a ∈ current, stop a = false → a ∈ path' := by
  fun_induction climb parent stop fuel path current with
  | case1 fuel path =>
    cases h
    exact ⟨⟨hstop, none, htrail, by simp⟩, List.Subset.refl _, by simp⟩
  | case2 fuel path a hstops =>
    cases h
    exact ⟨⟨hstop, some a, htrail, by simpa using hstops⟩, List.Subset.refl _, by simp [hstops]⟩
  | case3 fuel path a hgoes start hstart =>
    cases h
    have ha : a ∈ path' := List.isSome_idxOf?.mp (by rw [hstart]; rfl)
    exact ⟨⟨hstop, some a, htrail, a, rfl, hstart⟩, List.Subset.refl _, by simpa using fun _ => ha⟩
  | case4 path a hgoes hfresh => cases h
  | case5 path a hgoes hfresh fuel ih =>
    have ⟨hclimbed, hsub, _⟩ := ih h htrail.push fun b hb => by
      rcases List.mem_append.mp hb with hb | hb
      · exact hstop b hb
      · rw [List.mem_singleton.mp hb]
        simpa using hgoes
    have hparts := List.append_subset.mp hsub
    exact ⟨hclimbed, hparts.1, by simpa using fun _ => hparts.2 List.mem_cons_self⟩

/-- The nodes between the two visits of a node. -/
def cycleOf (path : List κ) : Option ℕ → List κ
  | none => []
  | some start => path.drop start

/-- **A climb finds a cycle that can be cut**: its nodes are on a cycle, and when they have lost
their parents the chains of all nodes that the climb has seen end. -/
theorem Climbed.cut {path' : List κ} {cycle : Option ℕ} (h : Climbed parent stop path' cycle)
    (hstop : ∀ a b, parent a = some b → stop b = true → Grounded parent b)
    (hcut : ∀ a, parent' a = if a ∈ cycleOf path' cycle then none else parent a) :
    (∀ a ∈ cycleOf path' cycle, OnCycle parent a) ∧ ∀ a ∈ path', Grounded parent' a := by
  obtain ⟨last, htrail, hend⟩ := h.trail
  have hsub : ∀ a b, parent' a = some b → parent a = some b := by
    intro a b hb
    rw [hcut] at hb
    split at hb
    · cases hb
    · exact hb
  have hkept : ∀ a ∈ path', parent' a = none ∨ parent' a = parent a := by
    intro a _
    rw [hcut]
    split
    · exact .inl rfl
    · exact .inr rfl
  cases cycle with
  | none =>
    refine ⟨by simp [cycleOf], ?_⟩
    rcases List.eq_nil_or_concat' path' with rfl | ⟨front, a, rfl⟩
    · simp
    · refine htrail.grounded hkept fun b hb => ?_
      have hparent : parent a = some b := by
        rw [htrail front a [] rfl, Option.mem_def.mp hb]
        rfl
      exact (hstop a b hparent (hend b hb)).mono hsub
  | some start =>
    obtain ⟨a, rfl, hstart⟩ := hend
    have ⟨hlt, ha, _⟩ := List.idxOf?_eq_some_iff.mp hstart
    have hsplit : path' = path'.take start ++ a :: path'.drop (start + 1) := by
      rw [← ha, List.getElem_cons_drop, List.take_append_drop]
    have hdrop : cycleOf path' (some start) = a :: path'.drop (start + 1) := by
      rw [cycleOf, ← ha, List.getElem_cons_drop]
    refine ⟨fun b hb => ?_, htrail.grounded hkept fun b hb => ?_⟩
    · rw [hsplit] at htrail
      exact htrail.onCycle (hdrop ▸ hb)
    · cases hb
      refine grounded_of_none ?_
      rw [hcut, hdrop, if_pos List.mem_cons_self]

/-- A climb ends in one step more than there are nodes with a parent. -/
theorem climb_isSome {keys : List κ} (hkeys : ∀ a, parent a ≠ none → a ∈ keys) {fuel : ℕ}
    (hnodup : path.Nodup) (hsub : current ≠ none → path ⊆ keys)
    (hfuel : keys.length + 1 ≤ fuel + path.length) :
    (climb parent stop fuel path current).isSome := by
  fun_induction climb parent stop fuel path current with
  | case1 | case2 | case3 => rfl
  | case4 path a hgoes hfresh =>
    have hlength := (List.subperm_of_subset hnodup (hsub (by simp))).length_le
    omega
  | case5 path a hgoes hfresh fuel ih =>
    have hnot : a ∉ path := by simpa using hfresh
    apply ih
    · rw [List.nodup_append]
      refine ⟨hnodup, List.pairwise_singleton _ a, fun b hb c hc => ?_⟩
      rw [List.mem_singleton.mp hc]
      exact fun h => hnot (h ▸ hb)
    · intro hparent
      exact List.append_subset.mpr ⟨hsub (by simp), by simpa using hkeys a hparent⟩
    · rw [List.length_append, List.length_singleton]
      omega

end Argmax.Lib
