import Argmax.Providers.ForkMergeExclusive

/-!
# The first gap of a fork

The range that `pending_range` offers is the first gap between the live claims, or what
follows them up to the newest visible event. A gap between claims is offered whatever is in
it: the event that it ends in was visible when the next claim began there, but a clear may
have hidden that event and all the others of the gap since. A range that follows the claims
ends in a visible event.
-/

namespace Argmax.Providers.ForkMerge

open Argmax.Lib Argmax.Persistence

/-! ## Gaps -/

/-- Some live claim covers the row. -/
def Covered (claims : List LiveClaim) (rowid : ℕ) : Prop :=
  ∃ claim ∈ claims, claim.fromRowid < rowid ∧ rowid ≤ claim.throughRowid

/-- A message of the fork that its transcript shows. -/
def Visible (s : State) (fork : ForkRecord) (event : EventRow) : Prop :=
  event ∈ s.events ∧ eligible s.events fork.childSessionId 0 maxRowid event = true

/-- The earliest rows past the base that no live claim covers: the rows before are covered,
and the range ends where the next claim begins, or with the newest message. -/
structure FirstGap (s : State) (fork : ForkRecord) (claims : List LiveClaim) (base : ℕ)
    (range : MergeRange) : Prop where
  start : Place s fork range.fromEventId range.fromRowid
  through : eventRowid s.events range.throughEventId = some range.throughRowid
  from_le : base ≤ range.fromRowid
  nonempty : range.fromRowid < range.throughRowid
  before : ∀ rowid, base < rowid → rowid ≤ range.fromRowid → Covered claims rowid
  apart : ∀ claim ∈ claims, Disjoint (Set.Ioc claim.fromRowid claim.throughRowid)
    (Set.Ioc range.fromRowid range.throughRowid)
  begins : ∀ claim ∈ claims, claim.fromRowid ≤ range.fromRowid ∨
    range.throughRowid ≤ claim.fromRowid
  ends : (∃ claim ∈ claims, claim.fromRowid = range.throughRowid ∧
      claim.merge.fromEventId = some range.throughEventId) ∨
    (∀ claim ∈ claims, claim.fromRowid ≤ range.fromRowid) ∧
      ∃ event, Visible s fork event ∧ event.rowid = range.throughRowid ∧
        event.id = range.throughEventId ∧
        ∀ other, Visible s fork other → other.rowid ≤ range.throughRowid

variable {s : State} {fork : ForkRecord} {claims : List LiveClaim} {base : ℕ}

/-- No row of the gap is covered. -/
theorem FirstGap.not_covered {range : MergeRange} (h : FirstGap s fork claims base range)
    {rowid : ℕ} (hfrom : range.fromRowid < rowid) (hthrough : rowid ≤ range.throughRowid) :
    ¬ Covered claims rowid := by
  rintro ⟨claim, hclaim, hlt, hle⟩
  exact Set.disjoint_left.mp (h.apart claim hclaim) ⟨hlt, hle⟩ ⟨hfrom, hthrough⟩

/-- Below the start of every live claim that stands past an uncovered row, some message is
not covered. -/
def GapsVisible (s : State) (fork : ForkRecord) (claims : List LiveClaim) (base : ℕ) : Prop :=
  ∀ claim ∈ claims,
    (∃ rowid, base < rowid ∧ rowid ≤ claim.fromRowid ∧ ¬ Covered claims rowid) →
    ∃ event, Visible s fork event ∧ base < event.rowid ∧ event.rowid ≤ claim.fromRowid ∧
      ¬ Covered claims event.rowid

theorem Covered.cons {claim : LiveClaim} {rowid : ℕ} (h : Covered claims rowid) :
    Covered (claim :: claims) rowid := by
  obtain ⟨other, hother, hrow⟩ := h
  exact ⟨other, List.mem_cons_of_mem _ hother, hrow⟩

/-! ## The loop -/

/-- The loop stops at a hole: a claim begins where it ends, no claim begins inside, and what
it has passed over is covered. -/
theorem coverage_hole_gap (hplaced : ∀ claim ∈ claims, Placed s fork base claim)
    (hsorted : claims.Pairwise fun a b => a.fromRowid ≤ b.fromRowid) {covered : ℕ}
    {coveredEvent : Option String} (hbase : base ≤ covered) {hole : MergeRange}
    (h : coverage covered coveredEvent claims = .inr hole) :
    (∃ claim ∈ claims, claim.fromRowid = hole.throughRowid ∧
        claim.merge.fromEventId = some hole.throughEventId) ∧
      (∀ rowid, covered < rowid → rowid ≤ hole.fromRowid → Covered claims rowid) ∧
      covered ≤ hole.fromRowid ∧
      ∀ claim ∈ claims, claim.fromRowid ≤ hole.fromRowid ∨ hole.throughRowid ≤ claim.fromRowid := by
  induction claims generalizing covered coveredEvent with
  | nil => simp [coverage] at h
  | cons claim claims ih =>
    obtain ⟨hclaim, hrest⟩ := List.forall_mem_cons.mp hplaced
    obtain ⟨hfirst, hsorted⟩ := List.pairwise_cons.mp hsorted
    rw [coverage] at h
    split at h
    · rename_i hfrom
      split at h
      · obtain ⟨⟨next, hnext, heq⟩, hcovered, hle, hbegins⟩ := ih hrest hsorted (by omega) h
        refine ⟨⟨next, List.mem_cons_of_mem _ hnext, heq⟩, fun rowid hlt hle' => ?_, by omega,
          List.forall_mem_cons.mpr ⟨.inl (by omega), hbegins⟩⟩
        by_cases hthrough : rowid ≤ claim.throughRowid
        · exact ⟨claim, List.mem_cons_self, by omega, hthrough⟩
        · exact Covered.cons (hcovered rowid (by omega) hle')
      · obtain ⟨⟨next, hnext, heq⟩, hcovered, hle, hbegins⟩ := ih hrest hsorted hbase h
        exact ⟨⟨next, List.mem_cons_of_mem _ hnext, heq⟩,
          fun rowid hlt hle' => Covered.cons (hcovered rowid hlt hle'), hle,
          List.forall_mem_cons.mpr ⟨.inl (by omega), hbegins⟩⟩
    · rename_i hpast
      split at h
      · rename_i hnone
        have hle := hclaim.none_le hnone
        omega
      · rename_i nextFrom hnext
        cases h
        refine ⟨⟨claim, List.mem_cons_self, rfl, hnext⟩,
          fun rowid hlt hle => absurd hle (Nat.not_le_of_lt hlt), le_rfl, ?_⟩
        exact List.forall_mem_cons.mpr ⟨.inr le_rfl, fun later hlater => .inr (hfirst later hlater)⟩

/-- The loop reaches the end: what it covers is covered, and no claim begins past it. -/
theorem coverage_all_covered (hplaced : ∀ claim ∈ claims, Placed s fork base claim) {covered : ℕ}
    {coveredEvent : Option String} (hbase : base ≤ covered) {all : ℕ} {allEvent : Option String}
    (h : coverage covered coveredEvent claims = .inl (all, allEvent)) :
    covered ≤ all ∧ (∀ rowid, covered < rowid → rowid ≤ all → Covered claims rowid) ∧
      ∀ claim ∈ claims, claim.fromRowid ≤ all := by
  induction claims generalizing covered coveredEvent with
  | nil =>
    cases h
    exact ⟨le_rfl, fun rowid hlt hle => by omega, by simp⟩
  | cons claim claims ih =>
    obtain ⟨hclaim, hrest⟩ := List.forall_mem_cons.mp hplaced
    rw [coverage] at h
    split at h
    · rename_i hfrom
      split at h
      · obtain ⟨hle, hcovered, hstarts⟩ := ih hrest (by omega) h
        refine ⟨by omega, fun rowid hlt hle' => ?_, List.forall_mem_cons.mpr ⟨by omega, hstarts⟩⟩
        by_cases hthrough : rowid ≤ claim.throughRowid
        · exact ⟨claim, List.mem_cons_self, by omega, hthrough⟩
        · exact Covered.cons (hcovered rowid (by omega) hle')
      · obtain ⟨hle, hcovered, hstarts⟩ := ih hrest hbase h
        exact ⟨hle, fun rowid hlt hle' => Covered.cons (hcovered rowid hlt hle'),
          List.forall_mem_cons.mpr ⟨by omega, hstarts⟩⟩
    · split at h
      · rename_i hnone
        have hle := hclaim.none_le hnone
        omega
      · cases h

/-! ## The newest message -/

/-- The newest visible event is one, and none is newer. -/
theorem newestVisibleEvent_newest {rowid : ℕ} {eventId : String}
    (h : newestVisibleEvent s.events fork.childSessionId = some (rowid, eventId)) :
    (∃ event, Visible s fork event ∧ event.rowid = rowid ∧ event.id = eventId) ∧
      ∀ event, Visible s fork event → event.rowid ≤ rowid := by
  obtain ⟨event, hhead, heq⟩ := Option.map_eq_some_iff.mp h
  obtain ⟨rfl, rfl⟩ := Prod.mk.inj heq
  have hmem := mem_eligibleNewestFirst.mp (List.mem_of_head? hhead)
  refine ⟨⟨event, hmem, rfl, rfl⟩, fun other hother => ?_⟩
  have hsorted : (eligibleNewestFirst s.events fork.childSessionId 0 maxRowid).Pairwise
      fun a b => b.rowid ≤ a.rowid := by
    refine (List.pairwise_mergeSort ?_ ?_ _).imp ?_ <;> simp <;> omega
  obtain ⟨rest, hrest⟩ := List.head?_eq_some_iff.mp hhead
  have hlisted := mem_eligibleNewestFirst.mpr hother
  rw [hrest] at hsorted hlisted
  rcases List.mem_cons.mp hlisted with rfl | hlater
  · exact le_rfl
  · exact (List.pairwise_cons.mp hsorted).1 other hlater

theorem newestVisibleEvent_eq_none (h : newestVisibleEvent s.events fork.childSessionId = none)
    (event : EventRow) : ¬ Visible s fork event := by
  intro hevent
  have hempty := List.head?_eq_none_iff.mp (Option.map_eq_none_iff.mp h)
  exact List.ne_nil_of_mem (mem_eligibleNewestFirst.mpr hevent) hempty

/-! ## The range that is found -/

/-- The live claims are as the loop needs them, in every state. -/
theorem placed_of_mem_liveClaims {claim : LiveClaim} (h : claim ∈ liveClaims s fork) :
    Placed s fork (baseRowid s fork) claim := by
  obtain ⟨merge, -, hmerge⟩ := List.mem_filterMap.mp h
  have hlive : ∀ sending, liveClaim s fork merge sending = some claim →
      Placed s fork (baseRowid s fork) claim := by
    intro sending hclaim
    obtain ⟨rowid, hrowid, rfl⟩ := Option.map_eq_some_iff.mp hclaim
    refine ⟨hrowid, fun eventId hfrom hlt => ?_, fun hnone => ?_⟩
    · dsimp only at hfrom hlt ⊢
      rw [hfrom] at hlt ⊢
      cases hrow : eventRowid s.events eventId with
      | none => simp [hrow] at hlt
      | some start => simp [hrow]
    · dsimp only at hnone ⊢
      rw [hnone]
  split at hmerge
  · exact hlive _ hmerge
  · exact hlive _ hmerge
  · cases hmerge

theorem baseRowid_of_place (h : Place s fork fork.childBaseEventId base) :
    baseRowid s fork = base := by
  cases hbase : fork.childBaseEventId with
  | none =>
    rw [hbase] at h
    simp [baseRowid, hbase, h.2]
  | some eventId =>
    rw [hbase] at h
    have hrow : eventRowid s.events eventId = some base := h
    simp [baseRowid, hbase, hrow]

/-- `pending_range` when the base is known. -/
theorem pendingRange_of_place (h : Place s fork fork.childBaseEventId base)
    (claims : List LiveClaim) :
    pendingRange s fork claims = .ok
      (match coverage base fork.childBaseEventId (claims.mergeSort claimLe) with
      | .inr hole => some hole
      | .inl (covered, coveredEvent) =>
        match newestVisibleEvent s.events fork.childSessionId with
        | none => none
        | some (newestRowid, newestId) =>
          if newestRowid ≤ covered then none
          else some ⟨coveredEvent, covered, newestId, newestRowid⟩) := by
  rw [pendingRange]
  cases hbase : fork.childBaseEventId with
  | none =>
    rw [hbase] at h
    rw [h.2]
    rfl
  | some eventId =>
    rw [hbase] at h
    have hrow : eventRowid s.events eventId = some base := h
    simp only [hrow]
    rfl

theorem covered_mergeSort {rowid : ℕ} :
    Covered (claims.mergeSort claimLe) rowid ↔ Covered claims rowid := by
  simp [Covered, List.mem_mergeSort]

/-- **What `pending_range` finds**: the first gap, for a message or below a claim; and
nothing only when every message is covered and every claim begins in what is covered. -/
theorem pendingRange_gap (hplaced : ∀ claim ∈ claims, Placed s fork (baseRowid s fork) claim)
    (hbase : Place s fork fork.childBaseEventId base) :
    (∃ range, pendingRange s fork claims = .ok (some range) ∧ FirstGap s fork claims base range) ∨
    pendingRange s fork claims = .ok none ∧
      (∀ event, Visible s fork event → base < event.rowid → Covered claims event.rowid) ∧
      ∀ claim ∈ claims, ∀ rowid, base < rowid → rowid ≤ claim.fromRowid → Covered claims rowid := by
  rw [baseRowid_of_place hbase] at hplaced
  have hplaced' : ∀ claim ∈ claims.mergeSort claimLe, Placed s fork base claim :=
    fun claim hclaim => hplaced claim (List.mem_mergeSort.mp hclaim)
  rw [pendingRange_of_place hbase]
  cases hcoverage : coverage base fork.childBaseEventId (claims.mergeSort claimLe) with
  | inr hole =>
    obtain ⟨hstart, hthrough, hle, hlt, hapart⟩ :=
      coverage_hole hplaced' (sorted_claims claims) le_rfl hbase hcoverage
    obtain ⟨⟨claim, hclaim, hnext⟩, hcovered, -, hbegins⟩ :=
      coverage_hole_gap hplaced' (sorted_claims claims) le_rfl hcoverage
    rw [List.mem_mergeSort] at hclaim
    refine .inl ⟨hole, rfl, hstart, hthrough, hle, hlt, ?_, ?_, ?_, .inl ⟨claim, hclaim, hnext⟩⟩
    · exact fun rowid hrow hrow' => covered_mergeSort.mp (hcovered rowid hrow hrow')
    · exact fun claim hclaim => (hapart claim (List.mem_mergeSort.mpr hclaim)).disjoint
    · exact fun claim hclaim => hbegins claim (List.mem_mergeSort.mpr hclaim)
  | inl reached =>
    obtain ⟨covered, coveredEvent⟩ := reached
    obtain ⟨hplace, hle, hends⟩ := coverage_all hplaced' le_rfl hbase hcoverage
    obtain ⟨-, hcovered, hstarts⟩ := coverage_all_covered hplaced' le_rfl hcoverage
    have hcovered' : ∀ rowid, base < rowid → rowid ≤ covered → Covered claims rowid :=
      fun rowid hrow hrow' => covered_mergeSort.mp (hcovered rowid hrow hrow')
    have hstarts' : ∀ claim ∈ claims, claim.fromRowid ≤ covered :=
      fun claim hclaim => hstarts claim (List.mem_mergeSort.mpr hclaim)
    cases hnewest : newestVisibleEvent s.events fork.childSessionId with
    | none =>
      refine .inr ⟨rfl, fun event hevent => absurd hevent (newestVisibleEvent_eq_none hnewest _),
        fun claim hclaim rowid hrow hrow' => ?_⟩
      exact hcovered' rowid hrow (hrow'.trans (hstarts' claim hclaim))
    | some newest =>
      obtain ⟨newestRowid, newestId⟩ := newest
      obtain ⟨⟨event, hevent, hrowid, hid⟩, hnewer⟩ := newestVisibleEvent_newest hnewest
      dsimp only
      by_cases hreached : newestRowid ≤ covered
      · rw [if_pos hreached]
        refine .inr ⟨rfl, fun other hother hrow => ?_, fun claim hclaim rowid hrow hrow' => ?_⟩
        · exact hcovered' _ hrow ((hnewer other hother).trans hreached)
        · exact hcovered' rowid hrow (hrow'.trans (hstarts' claim hclaim))
      · rw [if_neg hreached]
        refine .inl ⟨_, rfl, hplace, newestVisibleEvent_eq_some hnewest, hle, ?_, hcovered', ?_,
          fun claim hclaim => .inl (hstarts' claim hclaim),
          .inr ⟨hstarts', event, hevent, hrowid, hid, hnewer⟩⟩
        · exact Nat.lt_of_not_le hreached
        · intro claim hclaim
          exact Apart.disjoint (.inl (hends claim (List.mem_mergeSort.mpr hclaim)))

/-! ## Completeness -/

/-- What is said of `pending_range` where the base of the fork is known: nothing is found
just when every message past the base is covered, and what is found is the first gap and has
a message that is not covered. -/
def PendingCorrect (s : State) (fork : ForkRecord) (claims : List LiveClaim) : Prop :=
  ∀ base, Place s fork fork.childBaseEventId base →
    (pendingRange s fork claims = .ok none ↔
      ∀ event, Visible s fork event → base < event.rowid → Covered claims event.rowid) ∧
    ∀ result, pendingRange s fork claims = result → result ≠ .ok none →
      ∃ range, result = .ok (some range) ∧ FirstGap s fork claims base range ∧
        ∃ event, Visible s fork event ∧ range.fromRowid < event.rowid ∧
          event.rowid ≤ range.throughRowid ∧ ¬ Covered claims event.rowid

/-- **`pending_range` is complete just when the gaps are visible**, whatever the events and
the claims are and in whichever order the claims come. -/
theorem pendingCorrect_iff (s : State) (fork : ForkRecord) (claims : List LiveClaim)
    (h : claims.Perm (liveClaims s fork)) :
    PendingCorrect s fork claims ↔
      ∀ base, Place s fork fork.childBaseEventId base → GapsVisible s fork claims base := by
  have hplaced : ∀ claim ∈ claims, Placed s fork (baseRowid s fork) claim :=
    fun claim hclaim => placed_of_mem_liveClaims (h.mem_iff.mp hclaim)
  refine forall_congr' fun base => forall_congr' fun hbase => ?_
  rcases pendingRange_gap hplaced hbase with ⟨range, hrange, hgap⟩ | ⟨hnone, hall, hstarts⟩
  · constructor
    · rintro ⟨-, hfound⟩ claim hclaim ⟨rowid, hlt, hle, huncovered⟩
      obtain ⟨range', hrange', -, event, hevent, hfrom, hthrough, hnot⟩ :=
        hfound _ hrange (by simp)
      obtain rfl : range = range' := by simpa using hrange'
      have hpast : range.fromRowid < rowid :=
        Nat.lt_of_not_le fun hle' => huncovered (hgap.before rowid hlt hle')
      have hbegins := hgap.begins claim hclaim
      exact ⟨event, hevent, hgap.from_le.trans_lt hfrom, by omega, hnot⟩
    · intro hvisible
      have hmessage : ∃ event, Visible s fork event ∧ range.fromRowid < event.rowid ∧
          event.rowid ≤ range.throughRowid := by
        rcases hgap.ends with ⟨claim, hclaim, hbegins, -⟩ | ⟨-, event, hevent, hrowid, -⟩
        · have hnonempty := hgap.nonempty
          have hfrom := hgap.from_le
          obtain ⟨event, hevent, hlt, hle, hnot⟩ := hvisible claim hclaim
            ⟨range.throughRowid, by omega, hbegins.ge, hgap.not_covered hnonempty le_rfl⟩
          refine ⟨event, hevent, ?_, hbegins ▸ hle⟩
          exact Nat.lt_of_not_le fun hbefore => hnot (hgap.before _ hlt hbefore)
        · exact ⟨event, hevent, hrowid ▸ hgap.nonempty, hrowid.le⟩
      obtain ⟨event, hevent, hfrom, hthrough⟩ := hmessage
      have hnot := hgap.not_covered hfrom hthrough
      refine ⟨⟨fun hnone => ?_, fun hall => ?_⟩, ?_⟩
      · simp [hrange] at hnone
      · exact absurd (hall event hevent (hgap.from_le.trans_lt hfrom)) hnot
      · rintro result rfl -
        exact ⟨range, hrange, hgap, event, hevent, hfrom, hthrough, hnot⟩
  · constructor
    · intro _ claim hclaim ⟨rowid, hlt, hle, huncovered⟩
      exact absurd (hstarts claim hclaim rowid hlt hle) huncovered
    · intro _
      refine ⟨⟨fun _ => hall, fun _ => hnone⟩, ?_⟩
      rintro result rfl hne
      exact absurd hnone hne

/-! ## A gap without a message -/

/-- A fork of a whole chat. -/
def emptyFork : ForkRecord := ⟨"f", some "source", "child", none, none⟩

theorem nodup_emptyFork : ([emptyFork].map ForkRecord.id).Nodup := by simp

/-- A message, another, and a clear. -/
def clearedEvents : EventTable :=
  ⟨[⟨1, "first", "child", "message.completed", "one", .object []⟩,
    ⟨2, "second", "child", "message.completed", "two", .object []⟩,
    ⟨3, "clear", "child", "session.cleared", "", .object []⟩], by simp⟩

/-- The second message was merged, the claim on the first was withdrawn, and the fork was
cleared. -/
def clearedState : State :=
  { start ⟨[emptyFork], nodup_emptyFork⟩ .empty clearedEvents PendingMessages.init with
    merges := ⟨[⟨"m", "m", "f", some "first", "second", .sent, "t"⟩], by simp⟩ }

/-- Nothing is visible, and yet the gap below the claim is found. -/
theorem gap_without_message :
    ¬ PendingCorrect clearedState emptyFork (liveClaims clearedState emptyFork) := by
  intro h
  have hfound : pendingRange clearedState emptyFork (liveClaims clearedState emptyFork) =
      .ok (some ⟨none, 0, "first", 1⟩) := by decide +kernel
  obtain ⟨range, -, -, event, ⟨hevent, hvisible⟩, -⟩ := (h 0 ⟨rfl, rfl⟩).2 _ hfound (by simp)
  have hnone : ∀ event ∈ clearedEvents.rows,
      eligible clearedEvents "child" 0 maxRowid event = false := by decide
  exact Bool.false_ne_true ((hnone event hevent).symm.trans hvisible)

/-- The condition in the cleared fork, the claims the other way round. -/
theorem pendingCorrect_iff_cleared :
    PendingCorrect clearedState emptyFork (liveClaims clearedState emptyFork).reverse ↔
      ∀ base, Place clearedState emptyFork none base →
        GapsVisible clearedState emptyFork (liveClaims clearedState emptyFork).reverse base :=
  pendingCorrect_iff clearedState emptyFork _ (List.reverse_perm _)

end Argmax.Providers.ForkMerge
