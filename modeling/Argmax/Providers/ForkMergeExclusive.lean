import Argmax.Providers.ForkMerge
import Mathlib.Order.Interval.Set.Disjoint
import Mathlib.Order.CompletePartialOrder

/-!
# Live merges of a fork are exclusive

A claim is added only by `claimRange`, which first withdraws every claim that no
longer holds and then reserves a range that misses all the others. So the ranges
of all rows of a fork are disjoint at all times, whatever becomes of their
messages, and the live claims are among these rows.
-/

namespace Argmax.Providers.ForkMerge

open Argmax.Lib Argmax.Persistence

/-! ## A free range -/

/-- The place an event name stands for in a fork: no name is the start of a fork that
begins empty. -/
def Place (s : State) (fork : ForkRecord) : Option String → ℕ → Prop
  | none, rowid => fork.childBaseEventId = none ∧ rowid = 0
  | some eventId, rowid => eventRowid s.events eventId = some rowid

/-- What the loop of `pending_range` needs of the claims it meets. -/
structure Placed (s : State) (fork : ForkRecord) (base : ℕ) (claim : LiveClaim) : Prop where
  through : eventRowid s.events claim.merge.throughEventId = some claim.throughRowid
  start : ∀ eventId, claim.merge.fromEventId = some eventId → base < claim.fromRowid →
    eventRowid s.events eventId = some claim.fromRowid
  none_le : claim.merge.fromEventId = none → claim.fromRowid ≤ base

variable {s : State} {fork : ForkRecord} {a b : ℕ} {range : MergeRange}

/-- The end of a claim is a place to go on from. -/
theorem Placed.place_through {base : ℕ} {claim : LiveClaim} (h : Placed s fork base claim) :
    Place s fork (some claim.merge.throughEventId) claim.throughRowid := h.through

/-- Two half-open ranges of rows miss each other. -/
def Apart (a b c d : ℕ) : Prop := b ≤ c ∨ d ≤ a

theorem Apart.disjoint {c d : ℕ} (h : Apart a b c d) : Disjoint (Set.Ioc a b) (Set.Ioc c d) := by
  rw [Set.Ioc_disjoint_Ioc]
  rcases h with h | h
  · exact (min_le_left _ _).trans (h.trans (le_max_right _ _))
  · exact (min_le_right _ _).trans (h.trans (le_max_left _ _))

/-- The loop stops at a hole: it starts at a known place past the base, ends where the
next claim begins, and misses every claim. -/
theorem coverage_hole {base : ℕ} {claims : List LiveClaim}
    (hplaced : ∀ claim ∈ claims, Placed s fork base claim)
    (hsorted : claims.Pairwise fun a b => a.fromRowid ≤ b.fromRowid) {covered : ℕ}
    {coveredEvent : Option String} (hbase : base ≤ covered)
    (hevent : Place s fork coveredEvent covered) {hole : MergeRange}
    (h : coverage covered coveredEvent claims = .inr hole) :
    Place s fork hole.fromEventId hole.fromRowid ∧
      eventRowid s.events hole.throughEventId = some hole.throughRowid ∧
      covered ≤ hole.fromRowid ∧ hole.fromRowid < hole.throughRowid ∧
      ∀ claim ∈ claims,
        Apart claim.fromRowid claim.throughRowid hole.fromRowid hole.throughRowid := by
  induction claims generalizing covered coveredEvent with
  | nil => simp [coverage] at h
  | cons claim claims ih =>
    obtain ⟨hclaim, hrest⟩ := List.forall_mem_cons.mp hplaced
    obtain ⟨hfirst, hsorted⟩ := List.pairwise_cons.mp hsorted
    simp only [coverage] at h
    split at h
    · split at h
      · obtain ⟨h₁, h₂, h₃, h₄, h₅⟩ :=
          ih hrest hsorted (by omega) hclaim.place_through h
        exact ⟨h₁, h₂, by omega, h₄, List.forall_mem_cons.mpr ⟨.inl h₃, h₅⟩⟩
      · obtain ⟨h₁, h₂, h₃, h₄, h₅⟩ := ih hrest hsorted hbase hevent h
        exact ⟨h₁, h₂, h₃, h₄, List.forall_mem_cons.mpr ⟨.inl (by omega), h₅⟩⟩
    · rename_i hpast
      split at h
      · rename_i hnone
        have := hclaim.none_le hnone
        omega
      · rename_i nextFrom hnext
        cases h
        have hplace := hclaim.start nextFrom hnext (by omega)
        have hlt : covered < claim.fromRowid := Nat.lt_of_not_le hpast
        refine ⟨hevent, hplace, le_rfl, hlt, List.forall_mem_cons.mpr ⟨.inr le_rfl, ?_⟩⟩
        exact fun later hlater => .inr (hfirst later hlater)

/-- The loop reaches the end: every claim ends in what is covered. -/
theorem coverage_all {base : ℕ} {claims : List LiveClaim}
    (hplaced : ∀ claim ∈ claims, Placed s fork base claim) {covered : ℕ}
    {coveredEvent : Option String} (hbase : base ≤ covered)
    (hevent : Place s fork coveredEvent covered) {all : ℕ} {allEvent : Option String}
    (h : coverage covered coveredEvent claims = .inl (all, allEvent)) :
    Place s fork allEvent all ∧ covered ≤ all ∧ ∀ claim ∈ claims, claim.throughRowid ≤ all := by
  induction claims generalizing covered coveredEvent with
  | nil =>
    cases h
    exact ⟨hevent, le_rfl, by simp⟩
  | cons claim claims ih =>
    obtain ⟨hclaim, hrest⟩ := List.forall_mem_cons.mp hplaced
    simp only [coverage] at h
    split at h
    · split at h
      · obtain ⟨h₁, h₂, h₃⟩ := ih hrest (by omega) hclaim.place_through h
        exact ⟨h₁, by omega, List.forall_mem_cons.mpr ⟨h₂, h₃⟩⟩
      · obtain ⟨h₁, h₂, h₃⟩ := ih hrest hbase hevent h
        exact ⟨h₁, h₂, List.forall_mem_cons.mpr ⟨by omega, h₃⟩⟩
    · split at h
      · rename_i hnone
        have := hclaim.none_le hnone
        omega
      · cases h

theorem claimLe_total (a b : LiveClaim) : (claimLe a b || claimLe b a) = true := by
  simp only [claimLe, Bool.or_eq_true, decide_eq_true_eq]
  omega

theorem claimLe_trans (a b c : LiveClaim) (hab : claimLe a b = true)
    (hbc : claimLe b c = true) : claimLe a c = true := by
  simp only [claimLe, decide_eq_true_eq] at *
  omega

/-- The claims the loop meets are ordered by their first place. -/
theorem sorted_claims (claims : List LiveClaim) :
    (claims.mergeSort claimLe).Pairwise fun a b => a.fromRowid ≤ b.fromRowid := by
  refine (List.pairwise_mergeSort claimLe_trans claimLe_total claims).imp ?_
  intro a b hab
  simp only [claimLe, decide_eq_true_eq] at hab
  omega

/-- **`pending_range` finds a free range**: non-empty, between known places, and apart
from every claim. -/
theorem pendingRange_spec {claims : List LiveClaim}
    (hplaced : ∀ claim ∈ claims, Placed s fork (baseRowid s fork) claim)
    (h : pendingRange s fork claims = .ok (some range)) :
    Place s fork range.fromEventId range.fromRowid ∧
      eventRowid s.events range.throughEventId = some range.throughRowid ∧
      ∀ claim ∈ claims,
        Apart claim.fromRowid claim.throughRowid range.fromRowid range.throughRowid := by
  have hmap : ∀ {read : ArgmaxResult ℕ} {f : ℕ → Option MergeRange},
      read.map f = .ok (some range) → ∃ base, read = .ok base ∧ f base = some range := by
    intro read f h
    cases read with
    | error error => cases h
    | ok base => exact ⟨base, rfl, Except.ok.inj h⟩
  unfold pendingRange at h
  obtain ⟨base, hread, h⟩ := hmap h
  have hbase : Place s fork fork.childBaseEventId base ∧ base = baseRowid s fork := by
    cases hchild : fork.childBaseEventId with
    | none =>
      simp only [hchild, Except.ok.injEq] at hread
      exact ⟨⟨hchild, hread.symm⟩, by simp [baseRowid, hchild, hread]⟩
    | some eventId =>
      cases hrow : eventRowid s.events eventId with
      | none => simp [hchild, hrow] at hread
      | some rowid =>
        simp only [hchild, hrow, Except.ok.injEq] at hread
        exact ⟨hread ▸ hrow, by simp [baseRowid, hchild, hrow, hread]⟩
  obtain ⟨hplace, rfl⟩ := hbase
  have hplaced' : ∀ claim ∈ claims.mergeSort claimLe, Placed s fork (baseRowid s fork) claim :=
    fun claim hclaim => hplaced claim (List.mem_mergeSort.mp hclaim)
  split at h
  · rename_i hole hcoverage
    cases h
    obtain ⟨h₁, h₂, -, -, h₅⟩ :=
      coverage_hole hplaced' (sorted_claims claims) le_rfl hplace hcoverage
    exact ⟨h₁, h₂, fun claim hclaim => h₅ claim (List.mem_mergeSort.mpr hclaim)⟩
  · rename_i covered coveredEvent hcoverage
    obtain ⟨h₁, -, h₃⟩ := coverage_all hplaced' le_rfl hplace hcoverage
    split at h
    · cases h
    · rename_i newestRowid newestId hnewest
      split at h
      · cases h
      · cases h
        refine ⟨h₁, newestVisibleEvent_eq_some hnewest, fun claim hclaim => .inl ?_⟩
        exact h₃ claim (List.mem_mergeSort.mpr hclaim)

/-! ## The invariant -/

/-- The rows a claim of a fork holds: those after `a`, up to `b`. -/
structure Spans (s : State) (merge : ForkMerge) (a b : ℕ) : Prop where
  start : ∀ fork ∈ s.forks, merge.forkId = fork.id → Place s fork merge.fromEventId a
  through : eventRowid s.events merge.throughEventId = some b

/-- What holds of the ledger in every state. -/
structure Invariant (s : State) : Prop where
  /-- Every claim belongs to a fork and holds a range of known rows. -/
  spans : ∀ merge ∈ s.merges, (∃ fork ∈ s.forks, merge.forkId = fork.id) ∧ ∃ a b, Spans s merge a b
  /-- The ranges of one fork are apart. -/
  apart : ∀ merge ∈ s.merges, ∀ merge' ∈ s.merges, merge.forkId = merge'.forkId →
    merge.id ≠ merge'.id → ∀ a b c d, Spans s merge a b → Spans s merge' c d → Apart a b c d
  /-- A claim carries messages of its own range. -/
  carried : ∀ merge ∈ s.merges, ∀ a b, Spans s merge a b →
    ∀ event ∈ s.carried merge.id, event.rowid ∈ Set.Ioc a b

/-- Two rows stand for the same claim: they differ in the outcome at most. -/
structure SameClaim (merge merge' : ForkMerge) : Prop where
  id : merge'.id = merge.id
  fork : merge'.forkId = merge.forkId
  start : merge'.fromEventId = merge.fromEventId
  through : merge'.throughEventId = merge.throughEventId

theorem SameClaim.refl (merge : ForkMerge) : SameClaim merge merge := ⟨rfl, rfl, rfl, rfl⟩

theorem SameClaim.delivered (merge : ForkMerge) : SameClaim merge merge.delivered :=
  ⟨rfl, rfl, rfl, rfl⟩

/-- A range is determined by the claim, and new events do not move it. -/
theorem Spans.eq {s s' : State} (hforks : s'.forks = s.forks)
    (hevents : ∀ event ∈ s.events, event ∈ s'.events) {merge merge' : ForkMerge}
    (hsame : SameClaim merge merge') (hfork : ∃ fork ∈ s.forks, merge.forkId = fork.id)
    {a b c d : ℕ} (h : Spans s merge a b) (h' : Spans s' merge' c d) : a = c ∧ b = d := by
  constructor
  · obtain ⟨fork, hmem, hid⟩ := hfork
    have hplace := h.start fork hmem hid
    have hplace' := h'.start fork (hforks ▸ hmem) (hsame.fork.trans hid)
    rw [hsame.start] at hplace'
    cases hfrom : merge.fromEventId with
    | none =>
      rw [hfrom] at hplace hplace'
      exact hplace.2.trans hplace'.2.symm
    | some eventId =>
      rw [hfrom] at hplace hplace'
      have hmoved := eventRowid_of_subset hevents hplace
      exact Option.some_inj.mp (hmoved.symm.trans hplace')
  · have hmoved := eventRowid_of_subset hevents h.through
    rw [← hsame.through] at hmoved
    exact Option.some_inj.mp (hmoved.symm.trans h'.through)

/-- A claim keeps its range when events are added. -/
theorem Spans.mono {s' : State} (hforks : s'.forks = s.forks)
    (hevents : ∀ event ∈ s.events, event ∈ s'.events) {merge merge' : ForkMerge}
    (hsame : SameClaim merge merge') (h : Spans s merge a b) : Spans s' merge' a b := by
  refine ⟨fun fork hfork hid => ?_, ?_⟩
  · have hplace := h.start fork (hforks ▸ hfork) (hsame.fork.symm.trans hid)
    rw [hsame.start]
    cases hfrom : merge.fromEventId with
    | none => rwa [hfrom] at hplace
    | some eventId =>
      rw [hfrom] at hplace
      exact eventRowid_of_subset hevents hplace
  · rw [hsame.through]
    exact eventRowid_of_subset hevents h.through

/-- **The frame rule.** A step that adds events and keeps, marks or withdraws claims
keeps the invariant. -/
theorem Invariant.frame {s' : State} (hs : Invariant s) (hforks : s'.forks = s.forks)
    (hevents : ∀ event ∈ s.events, event ∈ s'.events)
    (hmerges : ∀ merge' ∈ s'.merges, ∃ merge ∈ s.merges, SameClaim merge merge')
    (hcarried : s'.carried = s.carried) : Invariant s' := by
  refine ⟨?_, ?_, ?_⟩
  · intro merge' hmerge'
    obtain ⟨merge, hmerge, hsame⟩ := hmerges merge' hmerge'
    obtain ⟨⟨fork, hfork, hid⟩, a, b, hspan⟩ := hs.spans merge hmerge
    exact ⟨⟨fork, hforks ▸ hfork, hsame.fork.trans hid⟩, a, b, hspan.mono hforks hevents hsame⟩
  · intro merge₁' h₁' merge₂' h₂' hfork hne a b c d hspan₁ hspan₂
    obtain ⟨merge₁, h₁, hsame₁⟩ := hmerges merge₁' h₁'
    obtain ⟨merge₂, h₂, hsame₂⟩ := hmerges merge₂' h₂'
    obtain ⟨hfork₁, a', b', hold₁⟩ := hs.spans merge₁ h₁
    obtain ⟨hfork₂, c', d', hold₂⟩ := hs.spans merge₂ h₂
    obtain ⟨rfl, rfl⟩ := hold₁.eq hforks hevents hsame₁ hfork₁ hspan₁
    obtain ⟨rfl, rfl⟩ := hold₂.eq hforks hevents hsame₂ hfork₂ hspan₂
    refine hs.apart merge₁ h₁ merge₂ h₂ ?_ ?_ _ _ _ _ hold₁ hold₂
    · rw [← hsame₁.fork, ← hsame₂.fork, hfork]
    · rwa [← hsame₁.id, ← hsame₂.id]
  · intro merge' hmerge' a b hspan event hevent
    obtain ⟨merge, hmerge, hsame⟩ := hmerges merge' hmerge'
    obtain ⟨hfork, a', b', hold⟩ := hs.spans merge hmerge
    obtain ⟨rfl, rfl⟩ := hold.eq hforks hevents hsame hfork hspan
    rw [hcarried, hsame.id] at hevent
    exact hs.carried merge hmerge _ _ hold event hevent

/-! ## The claims that are live -/

/-- A live claim holds the range of its row. -/
theorem liveClaim_spans (hfork : fork ∈ s.forks) {merge : ForkMerge} (hid : merge.forkId = fork.id)
    (h : Spans s merge a b) (sending : Bool) :
    liveClaim s fork merge sending = some ⟨merge, a, b, sending⟩ := by
  have hplace := h.start fork hfork hid
  simp only [liveClaim, h.through]
  cases hfrom : merge.fromEventId with
  | none =>
    rw [hfrom] at hplace
    simp [baseRowid, hplace.1, hplace.2]
  | some eventId =>
    rw [hfrom] at hplace
    have hrow : eventRowid s.events eventId = some a := hplace
    simp [hrow]

theorem mem_liveClaims (hs : Invariant s) (hfork : fork ∈ s.forks) {claim : LiveClaim}
    (h : claim ∈ liveClaims s fork) :
    claim.merge ∈ s.merges ∧ claim.merge.forkId = fork.id ∧
      Spans s claim.merge claim.fromRowid claim.throughRowid := by
  obtain ⟨merge, hlisted, hclaim⟩ := List.mem_filterMap.mp h
  obtain ⟨hmerge, hid⟩ := mem_listMerges.mp hlisted
  obtain ⟨-, a, b, hspan⟩ := hs.spans merge hmerge
  split at hclaim
  · rw [liveClaim_spans hfork hid hspan] at hclaim
    cases hclaim
    exact ⟨hmerge, hid, hspan⟩
  · rw [liveClaim_spans hfork hid hspan] at hclaim
    cases hclaim
    exact ⟨hmerge, hid, hspan⟩
  · cases hclaim

/-- Every claim that is not withdrawn is live. -/
theorem liveClaims_complete (hfork : fork ∈ s.forks) {merge : ForkMerge} (hmerge : merge ∈ s.merges)
    (hid : merge.forkId = fork.id) (hspan : Spans s merge a b)
    (hkept : verdict s fork merge ≠ .withdrawn) :
    ∃ claim ∈ liveClaims s fork, claim.fromRowid = a ∧ claim.throughRowid = b := by
  have hlisted := mem_listMerges.mpr ⟨hmerge, hid⟩
  cases hverdict : verdict s fork merge with
  | holds sending =>
    refine ⟨⟨merge, a, b, sending⟩, ?_, rfl, rfl⟩
    refine List.mem_filterMap.mpr ⟨merge, hlisted, ?_⟩
    simp [hverdict, liveClaim_spans hfork hid hspan]
  | delivered =>
    refine ⟨⟨merge, a, b, false⟩, List.mem_filterMap.mpr ⟨merge, hlisted, ?_⟩, rfl, rfl⟩
    simp [hverdict, liveClaim_spans hfork hid hspan]
  | withdrawn => exact absurd hverdict hkept

/-- The live claims are what the loop of `pending_range` needs. -/
theorem placed_liveClaims (hs : Invariant s) (hfork : fork ∈ s.forks) :
    ∀ claim ∈ liveClaims s fork, Placed s fork (baseRowid s fork) claim := by
  intro claim hclaim
  obtain ⟨-, hid, hspan⟩ := mem_liveClaims hs hfork hclaim
  have hplace := hspan.start fork hfork hid
  refine ⟨hspan.through, fun eventId hfrom _ => ?_, fun hnone => ?_⟩
  · rw [hfrom] at hplace
    exact hplace
  · rw [hnone] at hplace
    rw [hplace.2]
    exact Nat.zero_le _

theorem mem_settleMerges {merge' : ForkMerge} (h : merge' ∈ settleMerges s fork) :
    ∃ merge ∈ s.merges, SameClaim merge merge' ∧
      (merge.forkId = fork.id → verdict s fork merge ≠ .withdrawn) := by
  simp only [settleMerges, markSentWhere, Table.mem_update] at h
  obtain ⟨merge, hmerge, rfl⟩ := h
  obtain ⟨hold, hkept⟩ := Table.mem_delete.mp hmerge
  refine ⟨merge, hold, ?_, fun hid hverdict => ?_⟩
  · split
    · exact .delivered merge
    · exact .refl merge
  · simp [hid, hverdict] at hkept

/-! ## Every step keeps the invariant -/

/-- A range that misses every claim of its fork. -/
structure Free (s : State) (fork : ForkRecord) (range : MergeRange) : Prop where
  start : Place s fork range.fromEventId range.fromRowid
  through : eventRowid s.events range.throughEventId = some range.throughRowid
  apart : ∀ merge ∈ s.merges, merge.forkId = fork.id → ∀ a b, Spans s merge a b →
    Apart a b range.fromRowid range.throughRowid

/-- A free range that is cut short stays free. -/
theorem Free.upto (h : Free s fork range) {eventId : String} {requested : ℕ}
    (hrow : eventRowid s.events eventId = some requested) :
    Free s fork (range.upto eventId requested) := by
  unfold MergeRange.upto
  split
  · refine ⟨h.start, hrow, fun merge hmerge hid a b hspan => ?_⟩
    rcases h.apart merge hmerge hid a b hspan with hbefore | hafter
    · exact .inl hbefore
    · exact .inr (by change requested ≤ a; omega)
  · exact h

theorem dropOldest_subset (chars : ℕ) (lines : List (EventRow × String)) :
    ∀ line ∈ dropOldest chars lines, line ∈ lines := by
  induction lines generalizing chars with
  | nil => simp [dropOldest]
  | cons line lines ih =>
    cases lines with
    | nil => simp [dropOldest]
    | cons next rest =>
      intro kept hkept
      rw [dropOldest] at hkept
      split at hkept
      · exact List.mem_cons_of_mem _ (ih _ kept hkept)
      · exact hkept

/-- What a merge carries lies in its range. -/
theorem mem_carried_draft {childLabel : String} {event : EventRow}
    (h : event ∈ (draft s fork range childLabel).carried) :
    event.rowid ∈ Set.Ioc range.fromRowid range.throughRowid := by
  obtain ⟨⟨event', line⟩, hline, rfl⟩ := List.mem_map.mp h
  exact (mem_visibleMessagesAfter (dropOldest_subset _ _ _ hline)).2

/-- **Reserving a free range** keeps the invariant. -/
theorem Invariant.reserve {s' : State} (hs : Invariant s) (hfork : fork ∈ s.forks)
    (hfree : Free s fork range) {id now childLabel : String} {claim : ForkMerge}
    (hreserve : reserveMerge s.merges fork.id range.fromEventId range.throughEventId id now =
      (s'.merges, some claim)) (hforks : s'.forks = s.forks) (hevents : s'.events = s.events)
    (hcarried : s'.carried = fun mergeId =>
      if mergeId = claim.id then (draft s fork range childLabel).carried
      else s.carried mergeId) : Invariant s' := by
  obtain ⟨hclaim, hmem⟩ := reserveMerge_eq_some hreserve
  have hsub : ∀ event ∈ s.events, event ∈ s'.events := fun _ h => hevents ▸ h
  have hsub' : ∀ event ∈ s'.events, event ∈ s.events := fun _ h => hevents ▸ h
  have hnew : Spans s' claim range.fromRowid range.throughRowid := by
    refine ⟨fun fork' hfork' hid' => ?_, ?_⟩
    · rw [hforks] at hfork'
      rw [hclaim] at hid' ⊢
      obtain rfl : fork = fork' := Table.eq_of_key hfork hfork' hid'
      simp only [Place, hevents]
      exact hfree.start
    · rw [hclaim, hevents]
      exact hfree.through
  have hclaimFork : ∃ fork ∈ s'.forks, claim.forkId = fork.id :=
    ⟨fork, hforks ▸ hfork, by rw [hclaim]⟩
  have hmemNew : claim ∈ s'.merges := (hmem claim).mpr (.inr rfl)
  -- the ranges of the old claims, in the new state
  have hback : ∀ merge a b, Spans s' merge a b → Spans s merge a b :=
    fun merge a b h => h.mono hforks.symm hsub' (.refl merge)
  have happart : ∀ merge ∈ s.merges, merge.forkId = claim.forkId → ∀ a b c d,
      Spans s' merge a b → Spans s' claim c d → Apart a b c d := by
    intro merge hmerge hid a b c d hspan hspan'
    obtain ⟨rfl, rfl⟩ := hnew.eq rfl (fun _ h => h) (.refl claim) hclaimFork hspan'
    exact hfree.apart merge hmerge (hid.trans (by rw [hclaim])) a b (hback _ _ _ hspan)
  refine ⟨?_, ?_, ?_⟩
  · intro merge hmerge
    rcases (hmem merge).mp hmerge with hold | rfl
    · obtain ⟨⟨fork', hfork', hid⟩, a, b, hspan⟩ := hs.spans merge hold
      exact ⟨⟨fork', hforks ▸ hfork', hid⟩, a, b, hspan.mono hforks hsub (.refl merge)⟩
    · exact ⟨hclaimFork, _, _, hnew⟩
  · intro merge₁ h₁ merge₂ h₂ hid hne a b c d hspan₁ hspan₂
    rcases (hmem merge₁).mp h₁ with hold₁ | rfl
    · rcases (hmem merge₂).mp h₂ with hold₂ | rfl
      · exact hs.apart merge₁ hold₁ merge₂ hold₂ hid hne a b c d (hback _ _ _ hspan₁)
          (hback _ _ _ hspan₂)
      · exact happart merge₁ hold₁ hid a b c d hspan₁ hspan₂
    · rcases (hmem merge₂).mp h₂ with hold₂ | rfl
      · exact (happart merge₂ hold₂ hid.symm c d a b hspan₂ hspan₁).symm
      · exact absurd rfl hne
  · intro merge hmerge a b hspan event hevent
    rw [hcarried] at hevent
    dsimp only at hevent
    split at hevent
    · rename_i hid
      obtain rfl : merge = claim := Table.eq_of_key hmerge hmemNew hid
      obtain ⟨rfl, rfl⟩ := hnew.eq rfl (fun _ h => h) (.refl merge) hclaimFork hspan
      exact mem_carried_draft hevent
    · rename_i hid
      rcases (hmem merge).mp hmerge with hold | rfl
      · exact hs.carried merge hold a b (hback _ _ _ hspan) event hevent
      · exact absurd rfl hid

/-- After the claims are settled, the range `pending_range` finds is free. -/
theorem Invariant.free (hs : Invariant s) (hfork : fork ∈ s.forks)
    (h : pendingRange { s with merges := settleMerges s fork } fork (liveClaims s fork) =
      .ok (some range)) : Free { s with merges := settleMerges s fork } fork range := by
  have hplaced : ∀ claim ∈ liveClaims s fork,
      Placed { s with merges := settleMerges s fork } fork (baseRowid s fork) claim := by
    intro claim hclaim
    have hold := placed_liveClaims hs hfork claim hclaim
    exact ⟨hold.through, hold.start, hold.none_le⟩
  obtain ⟨hstart, hthrough, hapart⟩ := pendingRange_spec hplaced h
  refine ⟨hstart, hthrough, fun merge' hmerge' hid a b hspan => ?_⟩
  obtain ⟨merge, hmerge, hsame, hkept⟩ := mem_settleMerges hmerge'
  have hid' : merge.forkId = fork.id := hsame.fork.symm.trans hid
  obtain ⟨hown, a', b', hold⟩ := hs.spans merge hmerge
  obtain ⟨rfl, rfl⟩ := @Spans.eq s { s with merges := settleMerges s fork } rfl
    (fun _ h => h) merge merge' hsame hown a' b' a b hold hspan
  obtain ⟨claim, hclaim, rfl, rfl⟩ :=
    liveClaims_complete hfork hmerge hid' hold (hkept hid')
  exact hapart claim hclaim

theorem Invariant.claimRange (hs : Invariant s) (childSessionId throughEventId : String)
    (options : ClaimOptions) (id now : String) :
    Invariant (claimRange s childSessionId throughEventId options id now).1 := by
  unfold ForkMerge.claimRange
  split
  · exact hs
  · rename_i fork hfind
    have hfork : fork ∈ s.forks := List.mem_of_find?_eq_some hfind
    split
    · exact hs
    · rename_i source hsource
      split
      · exact hs
      · split
        · exact hs
        · have hsettled : Invariant { s with merges := settleMerges s fork } := by
            refine hs.frame rfl (fun _ h => h) (fun merge' hmerge' => ?_) rfl
            obtain ⟨merge, hmerge, hsame, -⟩ := mem_settleMerges hmerge'
            exact ⟨merge, hmerge, hsame⟩
          dsimp only
          split
          · exact hsettled
          · exact hsettled
          · rename_i range hrange
            have hfree := hs.free hfork hrange
            unfold claimOpen
            split
            · exact hsettled
            · rename_i requested hrow
              dsimp only
              split
              · exact hsettled
              · split
                · exact hsettled
                · split
                  · rename_i merges hreserve
                    rw [reserveMerge_eq_none hreserve]
                    exact hsettled
                  · rename_i merges claim hreserve
                    exact hsettled.reserve hfork (hfree.upto hrow) hreserve rfl rfl rfl

/-- What `settle_claim` does to the state: a claim is marked or withdrawn. -/
theorem settleClaim_state (s : State) (mergeId : String) (sent : ArgmaxResult Bool) :
    let s' := (settleClaim s mergeId sent).1
    s'.forks = s.forks ∧ s'.events = s.events ∧ s'.carried = s.carried ∧
      ∀ merge' ∈ s'.merges, ∃ merge ∈ s.merges, SameClaim merge merge' := by
  have hsame : ∀ merge ∈ s.merges, ∃ merge₀ ∈ s.merges, SameClaim merge₀ merge :=
    fun merge h => ⟨merge, h, .refl merge⟩
  have hmark : ∀ merge' ∈ markMergeSent s.merges mergeId,
      ∃ merge ∈ s.merges, SameClaim merge merge' := by
    intro merge' hmerge'
    simp only [markMergeSent, markSentWhere, Table.mem_update] at hmerge'
    obtain ⟨merge, hmerge, rfl⟩ := hmerge'
    refine ⟨merge, hmerge, ?_⟩
    split
    · exact .delivered merge
    · exact .refl merge
  unfold settleClaim
  split
  · exact ⟨rfl, rfl, rfl, hmark⟩
  · exact ⟨rfl, rfl, rfl, hsame⟩
  · dsimp only
    split
    · exact ⟨rfl, rfl, rfl, hmark⟩
    · exact ⟨rfl, rfl, rfl, hsame⟩
    · split
      · rename_i merges hrelease
        refine ⟨rfl, rfl, rfl, fun merge hmerge => ⟨merge, ?_, .refl merge⟩⟩
        simp only [releaseMerge] at hrelease
        split at hrelease
        · cases hrelease
          exact (Table.mem_delete.mp hmerge).1
        · cases hrelease
      · exact ⟨rfl, rfl, rfl, hsame⟩

theorem Invariant.settleClaim (hs : Invariant s) (mergeId : String) (sent : ArgmaxResult Bool) :
    Invariant (settleClaim s mergeId sent).1 := by
  obtain ⟨hforks, hevents, hcarried, hrows⟩ := settleClaim_state s mergeId sent
  exact hs.frame hforks (fun event hevent => hevents ▸ hevent) hrows hcarried

/-- **The step lemma.** -/
theorem Invariant.step (hs : Invariant s) (a : Action) : Invariant (step s a) := by
  have hsame : ∀ merge ∈ s.merges, ∃ merge₀ ∈ s.merges, SameClaim merge₀ merge :=
    fun merge h => ⟨merge, h, .refl merge⟩
  cases a with
  | claim childSessionId throughEventId options id now =>
    exact hs.claimRange childSessionId throughEventId options id now
  | settle mergeId sent => exact hs.settleClaim mergeId sent
  | event id sessionId type message payload =>
    refine hs.frame rfl (fun event hevent => ?_) hsame rfl
    change event ∈ Option.getD _ _
    cases h : persistTimelineEvent s.events id sessionId type message payload with
    | none => exact hevent
    | some events' => exact mem_persistTimelineEvent h event hevent
  | dropInFlight | pending | sessionState | restart =>
    exact hs.frame rfl (fun _ h => h) hsame rfl

theorem Invariant.start (forks : ForkTable) (sessions : Table SessionRow.id)
    (events : EventTable) (pending : PendingMessages.State) :
    Invariant (start forks sessions events pending) := by
  have hnone : ∀ merge, ¬ merge ∈ (ForkMerge.start forks sessions events pending).merges :=
    Table.not_mem_empty
  exact ⟨fun merge h => absurd h (hnone merge), fun merge h => absurd h (hnone merge),
    fun merge h => absurd h (hnone merge)⟩

/-! ## Exclusivity -/

/-- Two live claims: their ranges are disjoint, and no event is carried by both. -/
structure Exclusive (s : State) (claim claim' : LiveClaim) : Prop where
  ranges : Disjoint (Set.Ioc claim.fromRowid claim.throughRowid)
    (Set.Ioc claim'.fromRowid claim'.throughRowid)
  carried : ∀ event ∈ s.carried claim.merge.id, event ∉ s.carried claim'.merge.id

/-- The merges of a listed fork are different rows. -/
theorem nodup_listMerges (merges : MergeTable) (forkId : String) :
    (listMerges merges forkId).Pairwise fun a b => a.id ≠ b.id := by
  have hnodup : (merges.rows.filter fun merge => merge.forkId == forkId).Pairwise
      fun a b => a.id ≠ b.id :=
    (List.pairwise_map.mp merges.unique).filter _
  exact (List.mergeSort_perm _ _).symm.pairwise hnodup fun h => h.symm

theorem Invariant.exclusive (hs : Invariant s) (hfork : fork ∈ s.forks) :
    (liveClaims s fork).Pairwise (Exclusive s) := by
  have hids : (liveClaims s fork).Pairwise fun a b => a.merge.id ≠ b.merge.id := by
    refine (nodup_listMerges s.merges fork.id).filterMap _ ?_
    intro a b hne claim hclaim claim' hclaim'
    have hmerge : claim.merge = a := by
      split at hclaim <;> first
        | (obtain ⟨rowid, -, rfl⟩ := Option.map_eq_some_iff.mp hclaim; rfl)
        | cases hclaim
    have hmerge' : claim'.merge = b := by
      split at hclaim' <;> first
        | (obtain ⟨rowid, -, rfl⟩ := Option.map_eq_some_iff.mp hclaim'; rfl)
        | cases hclaim'
    rw [hmerge, hmerge']
    exact hne
  refine hids.imp_of_mem ?_
  intro claim claim' hclaim hclaim' hne
  obtain ⟨hmerge, hid, hspan⟩ := mem_liveClaims hs hfork hclaim
  obtain ⟨hmerge', hid', hspan'⟩ := mem_liveClaims hs hfork hclaim'
  have hdisjoint := (hs.apart _ hmerge _ hmerge' (hid.trans hid'.symm) hne _ _ _ _ hspan
    hspan').disjoint
  refine ⟨hdisjoint, fun event hevent hevent' => ?_⟩
  exact Set.disjoint_left.mp hdisjoint
    (hs.carried _ hmerge _ _ hspan event hevent) (hs.carried _ hmerge' _ _ hspan' event hevent')

/-- Exclusivity in a state: whatever a reader is told, for each fork. -/
structure MergesExclusive (s : State) : Prop where
  pairwise : ∀ fork ∈ s.forks, (liveClaims s fork).Pairwise (Exclusive s)

/-- **Live merges of a fork are exclusive**, in every state of every run. -/
theorem live_merges_exclusive (forks : ForkTable) (sessions : Table SessionRow.id)
    (events : EventTable) (pending : PendingMessages.State) (as : List Action) :
    MergesExclusive (run step (start forks sessions events pending) as) := by
  have hinv : Invariant (run step (start forks sessions events pending) as) :=
    run_invariant (fun _ a hs => hs.step a) (Invariant.start forks sessions events pending) as
  exact ⟨fun fork hfork => hinv.exclusive hfork⟩

end Argmax.Providers.ForkMerge
