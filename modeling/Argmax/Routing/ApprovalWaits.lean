import Argmax.Lib.Overlap
import Argmax.Lib.Rfc3339
import Argmax.Routing.Turns
import Mathlib.Order.Interval.Finset.Nat
import Mathlib.Tactic.NormNum

/-!
# Time spent waiting on the user

`routing/cost.rs`. The time of a turn is the time from its start to its end, less the time an
approval waited on the user. The intervals of the approvals are clipped to the turn and added up
one by one, so a moment in which several approvals were pending is taken off several times.
-/

namespace Argmax.Routing

open Argmax.Lib

/-- A row of `approvals`. -/
structure ApprovalRow where
  sessionId : String
  createdAt : String
  resolvedAt : Option String

/-- The milliseconds of a stored timestamp. -/
def parseTimestamp (stored : String) : Option ℕ := Rfc3339.parse stored.toList

def secondsBetween (start stop : String) : Option ℚ :=
  (parseTimestamp start).bind fun start =>
    (parseTimestamp stop).map fun stop => (((stop : ℤ) - start : ℤ) : ℚ) / 1000

/-- `created_at < ?3 AND COALESCE(resolved_at, ?3) > ?2`. -/
def ApprovalRow.reaches (row : ApprovalRow) (start stop : String) : Bool :=
  row.createdAt < stop && start < row.resolvedAt.getD stop

/-- The row, clipped to the turn. -/
def ApprovalRow.clip (row : ApprovalRow) (start stop : String) : String × String :=
  (max row.createdAt start, min (row.resolvedAt.getD stop) stop)

/-- The rows that `approval_wait_seconds` reads. -/
def clippedWaits (approvals : List ApprovalRow) (sessionId start stop : String) :
    List (String × String) :=
  (approvals.filter fun row => row.sessionId == sessionId && row.reaches start stop).map
    fun row => row.clip start stop

def approvalWaitSeconds (approvals : List ApprovalRow) (sessionId start stop : String) : ℚ :=
  ((clippedWaits approvals sessionId start stop).filterMap fun wait =>
    secondsBetween wait.1 wait.2).sum

structure TurnTiming where
  turnSeconds : ℚ
  firstAnswerSeconds : ℚ
  outputTokens : ℕ

/-- The timing of one turn, if it has ended and was answered before. -/
def turnTiming (approvals : List ApprovalRow) (route : RouteRow) (turn : RouteTurn) :
    Option TurnTiming :=
  match turn.endedAt, turn.firstAnswerAt with
  | some stop, some firstAnswer =>
    if stop < firstAnswer then none
    else
      let waited := approvalWaitSeconds approvals route.sessionId turn.startAt stop
      match secondsBetween turn.startAt stop, secondsBetween turn.startAt firstAnswer with
      | some total, some first => some ⟨max (total - waited) 0, first, turn.outputTokens⟩
      | _, _ => none
  | _, _ => none

def turnTimings (approvals : List ApprovalRow) (route : RouteRow) (turns : List RouteTurn) :
    List TurnTiming :=
  turns.filterMap (turnTiming approvals route)

/-! ## Approvals and turns in time -/

/-- An instant that a timestamp of four-digit years can hold. -/
abbrev Instant := { instant : ℕ // instant < Rfc3339.fourDigitEnd }

/-- How it is stored. -/
def Instant.stored (instant : Instant) : String := String.ofList (Rfc3339.text instant.1)

/-- An approval that was asked for at one time and resolved no earlier, if it was. -/
structure Approval where
  sessionId : String
  opened : Instant
  resolved : Option Instant
  ordered : ∀ instant ∈ resolved, opened ≤ instant

def Approval.row (approval : Approval) : ApprovalRow :=
  ⟨approval.sessionId, approval.opened.stored, approval.resolved.map Instant.stored⟩

/-- The user was waited for at a moment. -/
def Approval.PendingAt (approval : Approval) (moment : ℕ) : Prop :=
  approval.opened.1 ≤ moment ∧ ∀ instant ∈ approval.resolved, moment < instant.1

instance (approval : Approval) (moment : ℕ) : Decidable (approval.PendingAt moment) :=
  inferInstanceAs (Decidable (_ ∧ _))

/-- The time of a turn. -/
structure Span where
  start : Instant
  stop : Instant
  ordered : start ≤ stop

/-- The moments of a turn. -/
def Span.moments (turn : Span) : Finset ℕ := Finset.Ico turn.start.1 turn.stop.1

/-- The moments of a turn in which an approval was pending. -/
def waitedMoments (approvals : List Approval) (turn : Span) : Finset ℕ :=
  turn.moments.filter fun moment => ∃ approval ∈ approvals, approval.PendingAt moment

/-- What is taken off a turn is the time in which the user was waited for. -/
structure WaitsOnce (approvals : List Approval) (sessionId : String) (turn : Span) : Prop where
  union : approvalWaitSeconds (approvals.map Approval.row) sessionId turn.start.stored
      turn.stop.stored =
    (waitedMoments (approvals.filter (·.sessionId = sessionId)) turn).card / 1000
  /-- It is no longer than the turn. -/
  within : ∀ total ∈ secondsBetween turn.start.stored turn.stop.stored,
    approvalWaitSeconds (approvals.map Approval.row) sessionId turn.start.stored
      turn.stop.stored ≤ total
  /-- What is left of the turn is not negative. -/
  working : ∀ total ∈ secondsBetween turn.start.stored turn.stop.stored,
    0 ≤ total - approvalWaitSeconds (approvals.map Approval.row) sessionId turn.start.stored
      turn.stop.stored

/-! ## The stored texts -/

@[simp] theorem stored_lt_iff {a b : Instant} : a.stored < b.stored ↔ a < b := by
  rw [String.lt_iff_toList_lt, Instant.stored, Instant.stored, String.toList_ofList,
    String.toList_ofList, Rfc3339.text_lt_iff a.2 b.2]
  rfl

theorem stored_strictMono : StrictMono Instant.stored := fun _ _ => stored_lt_iff.mpr

@[simp] theorem parseTimestamp_stored (instant : Instant) :
    parseTimestamp instant.stored = some instant.1 := by
  rw [parseTimestamp, Instant.stored, String.toList_ofList, Rfc3339.parse_text instant.2]

theorem secondsBetween_stored (start stop : Instant) :
    secondsBetween start.stored stop.stored = some ((((stop.1 : ℤ) - start.1 : ℤ) : ℚ) / 1000) := by
  simp [secondsBetween]

/-! ## One approval -/

/-- The moments of a turn in which one approval was pending. -/
def Approval.moments (approval : Approval) (turn : Span) : Finset ℕ :=
  turn.moments.filter approval.PendingAt

theorem coe_max (a b : Instant) : (max a b).1 = max a.1 b.1 := rfl

theorem coe_min (a b : Instant) : (min a b).1 = min a.1 b.1 := rfl

/-- The approval, clipped to the turn. -/
theorem Approval.moments_eq (approval : Approval) (turn : Span) :
    approval.moments turn = Finset.Ico (max approval.opened turn.start).1
      (min (approval.resolved.getD turn.stop) turn.stop).1 := by
  ext moment
  rw [Approval.moments, Span.moments, Finset.mem_filter, Approval.PendingAt, coe_max, coe_min]
  cases approval.resolved with
  | none => simp; omega
  | some instant => simp; omega

/-- What is taken off for one approval. -/
def Approval.waited (approval : Approval) (turn : Span) : ℚ := (approval.moments turn).card / 1000

/-- An approval that is not read was not pending in the turn. -/
theorem Approval.moments_eq_empty {approval : Approval} {turn : Span}
    (h : ¬ (approval.opened < turn.stop ∧ turn.start < approval.resolved.getD turn.stop)) :
    approval.moments turn = ∅ := by
  have hordered := turn.ordered
  rw [moments_eq, Finset.Ico_eq_empty_iff, coe_max, coe_min]
  simp only [← Subtype.coe_lt_coe] at h hordered
  omega

@[simp] theorem Approval.row_createdAt (approval : Approval) :
    approval.row.createdAt = approval.opened.stored := rfl

@[simp] theorem Approval.row_resolvedAt_getD (approval : Approval) (stop : Instant) :
    approval.row.resolvedAt.getD stop.stored = (approval.resolved.getD stop).stored := by
  cases h : approval.resolved <;> simp [row, h]

theorem Approval.row_reaches (approval : Approval) (turn : Span) :
    approval.row.reaches turn.start.stored turn.stop.stored = true ↔
      approval.opened < turn.stop ∧ turn.start < approval.resolved.getD turn.stop := by
  rw [ApprovalRow.reaches, Bool.and_eq_true, decide_eq_true_iff, decide_eq_true_iff, row_createdAt,
    row_resolvedAt_getD, stored_lt_iff, stored_lt_iff]

theorem Approval.secondsBetween_clipped {approval : Approval} {turn : Span}
    (hopened : approval.opened < turn.stop)
    (hresolved : turn.start < approval.resolved.getD turn.stop) :
    secondsBetween (approval.row.clip turn.start.stored turn.stop.stored).1
      (approval.row.clip turn.start.stored turn.stop.stored).2 = some (approval.waited turn) := by
  have hle : max approval.opened.1 turn.start.1 ≤
      min (approval.resolved.getD turn.stop).1 turn.stop.1 := by
    have hturn := turn.ordered
    have hordered : approval.opened.1 ≤ (approval.resolved.getD turn.stop).1 := by
      cases h : approval.resolved with
      | none => exact hopened.le
      | some instant => exact approval.ordered instant h
    simp only [← Subtype.coe_lt_coe, ← Subtype.coe_le_coe] at hopened hresolved hturn
    omega
  rw [ApprovalRow.clip, row_resolvedAt_getD, row_createdAt, ← stored_strictMono.monotone.map_max, ← stored_strictMono.monotone.map_min,
    secondsBetween_stored, waited, moments_eq, Nat.card_Ico, coe_max, coe_min,
    Nat.cast_sub hle]
  simp

/-! ## All of them -/

/-- What a sum does not read is zero. -/
theorem sum_filterMap_filter {α : Type*} {p q : α → Bool} {g : α → Option ℚ} {f : α → ℚ}
    (hread : ∀ a, p a = true → q a = true ∧ g a = some (f a))
    (hrest : ∀ a, q a = true → p a = false → f a = 0) (xs : List α) :
    ((xs.filter p).filterMap g).sum = ((xs.filter q).map f).sum := by
  induction xs with
  | nil => rfl
  | cons a xs ih =>
    by_cases hp : p a = true
    · have ⟨hq, hg⟩ := hread a hp
      rw [List.filter_cons_of_pos hp, List.filterMap_cons_some hg, List.sum_cons, ih,
        List.filter_cons_of_pos hq, List.map_cons, List.sum_cons]
    · rw [List.filter_cons_of_neg hp, ih]
      by_cases hq : q a = true
      · rw [List.filter_cons_of_pos hq, List.map_cons, List.sum_cons,
          hrest a hq (by simpa using hp), zero_add]
      · rw [List.filter_cons_of_neg hq]

/-- The approvals of the session are added up one by one. -/
theorem approvalWaitSeconds_eq (approvals : List Approval) (sessionId : String) (turn : Span) :
    approvalWaitSeconds (approvals.map Approval.row) sessionId turn.start.stored turn.stop.stored =
    ((approvals.filter (·.sessionId = sessionId)).map (·.waited turn)).sum := by
  rw [approvalWaitSeconds, clippedWaits, List.filter_map, List.map_map, List.filterMap_map]
  apply sum_filterMap_filter
  · intro approval hread
    simp only [Function.comp_apply, Bool.and_eq_true, beq_iff_eq, Approval.row_reaches] at hread ⊢
    exact ⟨decide_eq_true hread.1, Approval.secondsBetween_clipped hread.2.1 hread.2.2⟩
  · intro approval hsession hskip
    have hrow : approval.row.sessionId = sessionId := of_decide_eq_true hsession
    rw [Function.comp_apply, hrow, beq_self_eq_true, Bool.true_and] at hskip
    have hout := mt (approval.row_reaches turn).mpr (by simp [hskip])
    simp [Approval.waited, Approval.moments_eq_empty hout]

theorem waitedMoments_eq (approvals : List Approval) (turn : Span) :
    waitedMoments approvals turn = unionAll (approvals.map (·.moments turn)) := by
  ext moment
  simp only [waitedMoments, mem_unionAll, List.mem_map, Finset.mem_filter]
  constructor
  · rintro ⟨hmoment, approval, hmem, hpending⟩
    exact ⟨_, ⟨approval, hmem, rfl⟩, Finset.mem_filter.mpr ⟨hmoment, hpending⟩⟩
  · rintro ⟨_, ⟨approval, hmem, rfl⟩, hin⟩
    have hin := Finset.mem_filter.mp hin
    exact ⟨hin.1, approval, hmem, hin.2⟩

theorem sum_waited (approvals : List Approval) (turn : Span) :
    (approvals.map (·.waited turn)).sum =
      (((approvals.map (·.moments turn)).map Finset.card).sum : ℕ) / 1000 := by
  induction approvals with
  | nil => simp
  | cons approval approvals ih =>
    rw [List.map_cons, List.sum_cons, ih, Approval.waited, List.map_cons, List.map_cons,
      List.sum_cons, Nat.cast_add, add_div]

/-- No two approvals are pending at the same moment of a turn. -/
def OneAtATime (approvals : List Approval) (turn : Span) : Prop :=
  approvals.Pairwise fun a b => ∀ moment ∈ turn.moments, ¬ (a.PendingAt moment ∧ b.PendingAt moment)

theorem pairwise_disjoint_iff (approvals : List Approval) (turn : Span) :
    (approvals.map (·.moments turn)).Pairwise Disjoint ↔ OneAtATime approvals turn := by
  rw [List.pairwise_map, OneAtATime]
  have hdisjoint : ∀ a b : Approval, Disjoint (a.moments turn) (b.moments turn) ↔
      ∀ moment ∈ turn.moments, ¬ (a.PendingAt moment ∧ b.PendingAt moment) := by
    intro a b
    rw [Finset.disjoint_left]
    simp only [Approval.moments, Finset.mem_filter]
    grind
  simp [hdisjoint]

theorem union_iff (approvals : List Approval) (sessionId : String) (turn : Span) :
    approvalWaitSeconds (approvals.map Approval.row) sessionId turn.start.stored
        turn.stop.stored =
      (waitedMoments (approvals.filter (·.sessionId = sessionId)) turn).card / 1000 ↔
    OneAtATime (approvals.filter (·.sessionId = sessionId)) turn := by
  rw [approvalWaitSeconds_eq, sum_waited, waitedMoments_eq, ← pairwise_disjoint_iff,
    ← sum_card_eq_card_union_iff, div_left_inj' (by norm_num), Nat.cast_inj]

/-- **What is taken off a turn is the time in which the user was waited for, just when no two
approvals were pending at the same moment of it.** -/
theorem waits_once_iff (approvals : List Approval) (sessionId : String) (turn : Span) :
    WaitsOnce approvals sessionId turn ↔
      OneAtATime (approvals.filter (·.sessionId = sessionId)) turn := by
  constructor
  · intro h
    exact (union_iff approvals sessionId turn).mp h.union
  · intro h
    have hunion := (union_iff approvals sessionId turn).mpr h
    have hwithin : ∀ total ∈ secondsBetween turn.start.stored turn.stop.stored,
        approvalWaitSeconds (approvals.map Approval.row) sessionId turn.start.stored
          turn.stop.stored ≤ total := by
      intro total htotal
      have hcard : (waitedMoments (approvals.filter (·.sessionId = sessionId)) turn).card ≤
          turn.stop.1 - turn.start.1 := by
        rw [← Nat.card_Ico]
        exact Finset.card_le_card (Finset.filter_subset _ _)
      have hle : turn.start.1 ≤ turn.stop.1 := turn.ordered
      simp only [secondsBetween_stored, Option.mem_def, Option.some.injEq] at htotal
      rw [hunion, ← htotal]
      gcongr
      exact_mod_cast hcard
    exact ⟨hunion, hwithin, fun total htotal => sub_nonneg.mpr (hwithin total htotal)⟩

/-- Two approvals that are pending for a whole turn of 10 s take 20 s off it. -/
theorem shared_wait : ¬ ∀ approvals sessionId turn, WaitsOnce approvals sessionId turn := by
  intro h
  let start : Instant := ⟨63900000000000, by decide⟩
  let stop : Instant := ⟨63900000010000, by decide⟩
  let pending : Approval := ⟨"s", start, none, by simp⟩
  have hworking := (h [pending, pending] "s" ⟨start, stop, by decide⟩).working 10
  revert hworking
  decide +kernel

end Argmax.Routing
