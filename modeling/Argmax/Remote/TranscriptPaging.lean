import Argmax.Remote.TranscriptTrim

/-!
# A backfill loses no row

A page that is cut moves its cursors to the last row it carries, so the pages of a
backfill cover the rows between their cursors (`Covers`) and every page that owes more
gets further.

What is left out are superseded deltas. Judging them on a page or on the whole session
makes a difference in one direction only: the rows after a page can supersede more, not
less (`supersededBy_of_page`).
-/

namespace Argmax.Remote.TranscriptTrim

open Argmax.Lib Argmax.Lib.Paging Argmax.Providers

/-! ## The sweep, row by row -/

/-- The boundaries after an event is swept. -/
def advance (event : TimelineEvent) (boundaries : String → Option TurnBoundary) :
    String → Option TurnBoundary :=
  if !isObject event.payload || isSubAgentProse event || event.type == "message.delta" then
    boundaries
  else
    match advanceTurnBoundary (boundaries event.sessionId) event with
    | some advanced => fun session =>
        if session = event.sessionId then some advanced else boundaries session
    | none => boundaries

/-- The closest boundaries after a position. -/
def boundaries (later : List TimelineEvent) : String → Option TurnBoundary :=
  later.foldr advance fun _ => none

/-- The event is a delta that the ones after it supersede. -/
def supersededBy (later : List TimelineEvent) (event : TimelineEvent) : Bool :=
  isObject event.payload && !isSubAgentProse event && event.type == "message.delta" &&
    isSupersededAnswerDelta event (boundaries later event.sessionId)

/-- The events without the superseded ones. -/
def kept : List TimelineEvent → List TimelineEvent
  | [] => []
  | event :: later => if supersededBy later event then kept later else event :: kept later

theorem kept_sublist (events : List TimelineEvent) : (kept events).Sublist events := by
  induction events with
  | nil => exact List.Sublist.slnil
  | cons event later ih =>
    rw [kept]
    split
    · exact ih.cons _
    · exact ih.cons_cons _

variable {event : TimelineEvent}

/-- An event that is not kept is superseded by the events after it. -/
theorem supersededBy_of_not_mem_kept {events : List TimelineEvent} (hmem : event ∈ events)
    (hkept : event ∉ kept events) :
    ∃ before later, events = before ++ event :: later ∧ supersededBy later event = true := by
  induction events with
  | nil => cases hmem
  | cons first later ih =>
    rw [kept] at hkept
    by_cases hfirst : supersededBy later first = true
    · rw [if_pos hfirst] at hkept
      rcases List.mem_cons.mp hmem with rfl | hmem
      · exact ⟨[], later, rfl, hfirst⟩
      · obtain ⟨before, later', rfl, hsuper⟩ := ih hmem hkept
        exact ⟨first :: before, later', rfl, hsuper⟩
    · rw [if_neg hfirst, List.mem_cons, not_or] at hkept
      rcases List.mem_cons.mp hmem with rfl | hmem
      · exact absurd rfl hkept.1
      · obtain ⟨before, later', rfl, hsuper⟩ := ih hmem hkept.2
        exact ⟨first :: before, later', rfl, hsuper⟩

/-- A superseded event is not kept, if it occurs once. -/
theorem not_mem_kept {before later : List TimelineEvent} (hnodup : (before ++ event :: later).Nodup)
    (h : supersededBy later event = true) : event ∉ kept (before ++ event :: later) := by
  induction before with
  | nil =>
    rw [List.nil_append, kept, if_pos h]
    intro hmem
    exact (List.nodup_cons.mp hnodup).1 ((kept_sublist later).subset hmem)
  | cons first before ih =>
    rw [List.cons_append, List.nodup_cons] at hnodup
    rw [List.cons_append, kept]
    have hne : event ≠ first := by
      rintro rfl
      exact hnodup.1 (by simp)
    split
    · exact ih hnodup.2
    · simpa [hne] using ih hnodup.2

/-- One step of the sweep, in terms of the two judgements. -/
theorem visit_eq (event : TimelineEvent) (index : ℕ) (sweep : Sweep) :
    sweep.visit (event, index) =
      ⟨advance event sweep.nextBoundary,
        if isObject event.payload && !isSubAgentProse event && event.type == "message.delta" &&
            isSupersededAnswerDelta event (sweep.nextBoundary event.sessionId) then
          index :: sweep.superseded
        else sweep.superseded⟩ := by
  unfold Sweep.visit advance
  by_cases hskip : (!isObject event.payload || isSubAgentProse event) = true
  · have hnot : (isObject event.payload && !isSubAgentProse event) = false := by
      cases h : isObject event.payload <;> cases h' : isSubAgentProse event <;> simp_all
    simp [hskip, hnot]
  · simp only [Bool.not_eq_true, Bool.or_eq_false_iff, Bool.not_eq_false'] at hskip
    by_cases hdelta : event.type = "message.delta"
    · cases hsuper : isSupersededAnswerDelta event (sweep.nextBoundary event.sessionId) <;>
        simp [hskip, hdelta, hsuper]
    · cases hadvanced : advanceTurnBoundary (sweep.nextBoundary event.sessionId) event <;>
        simp [hskip, hdelta, hadvanced]

/-- The sweep of a page: its boundaries, and its superseded places. -/
theorem foldr_visit (events : List TimelineEvent) (start : ℕ) :
    ((events.zipIdx start).foldr Sweep.visit ⟨fun _ => none, []⟩).nextBoundary =
        boundaries events ∧
      (∀ index ∈ ((events.zipIdx start).foldr Sweep.visit ⟨fun _ => none, []⟩).superseded,
        start ≤ index) ∧
      ((events.zipIdx start).filter fun row =>
        !((events.zipIdx start).foldr Sweep.visit ⟨fun _ => none, []⟩).superseded.contains
          row.2).map (·.1) = kept events := by
  induction events generalizing start with
  | nil => exact ⟨rfl, by simp, rfl⟩
  | cons event later ih =>
    obtain ⟨hboundaries, hplaces, hkept⟩ := ih (start + 1)
    set swept := (later.zipIdx (start + 1)).foldr Sweep.visit ⟨fun _ => none, []⟩ with hswept
    have hbounds : swept.superseded.contains start = false := by
      by_contra hmem
      have := hplaces start (by simpa using hmem)
      omega
    rw [List.zipIdx_cons, List.foldr_cons, ← hswept, visit_eq, hboundaries]
    refine ⟨rfl, ?_, ?_⟩
    · intro index hindex
      split at hindex
      · rcases List.mem_cons.mp hindex with rfl | hindex
        · exact le_rfl
        · have := hplaces index hindex
          omega
      · have := hplaces index hindex
        omega
    · -- The places after this one are not this one.
      have hlater : ∀ row ∈ later.zipIdx (start + 1), row.2 ≠ start := by
        intro row hrow
        have := (List.mem_zipIdx (x := row.1) (i := row.2) hrow).1
        omega
      rw [kept]
      by_cases hsuper : supersededBy later event = true
      · rw [if_pos hsuper, ← hkept]
        rw [supersededBy] at hsuper
        rw [if_pos hsuper, List.filter_cons]
        simp only [List.contains_cons, beq_self_eq_true]
        refine congrArg _ (List.filter_congr fun row hrow => ?_)
        simp [hlater row hrow]
      · rw [if_neg hsuper, ← hkept]
        rw [supersededBy] at hsuper
        rw [if_neg hsuper, List.filter_cons, hbounds]
        rfl

/-- The places of a page are in the order of the sweep. -/
theorem pairwise_sweepOrder {events : List TimelineEvent}
    (hplaced : ∀ event ∈ events, event.rowCursor.isSome) (h : Ascending eventPlace events)
    (start : ℕ) : (events.zipIdx start).Pairwise fun left right => sweepOrder left right = true := by
  induction events generalizing start with
  | nil => exact List.Pairwise.nil
  | cons event later ih =>
    obtain ⟨hfirst, hlater⟩ := List.pairwise_cons.mp h
    obtain ⟨hevent, hplaced⟩ := List.forall_mem_cons.mp hplaced
    refine List.pairwise_cons.mpr ⟨fun row hrow => ?_, ih hplaced hlater (start + 1)⟩
    have hmem : row.1 ∈ later := List.fst_mem_of_mem_zipIdx hrow
    have hlt := hfirst row.1 hmem
    obtain ⟨place, hplace⟩ := Option.isSome_iff_exists.mp hevent
    obtain ⟨place', hplace'⟩ := Option.isSome_iff_exists.mp (hplaced row.1 hmem)
    rw [eventPlace, eventPlace, hplace, hplace'] at hlt
    have hcompare : compare (some place) (some place') = Ordering.lt :=
      compare_lt_iff_lt.mpr (by simpa using hlt)
    rw [sweepOrder, hplace, hplace', hcompare]
    rfl

/-- **`drop_superseded_deltas` keeps the events that no later event supersedes.** -/
theorem dropSupersededDeltas_eq {events : List TimelineEvent}
    (hplaced : ∀ event ∈ events, event.rowCursor.isSome) (h : Ascending eventPlace events) :
    dropSupersededDeltas events = kept events := by
  have hsorted : ascending events = events.zipIdx :=
    List.mergeSort_of_pairwise (pairwise_sweepOrder hplaced h 0)
  rw [dropSupersededDeltas, hsorted]
  exact (foldr_visit events 0).2.2

/-! ## A page against the session -/

/-- Where one side knows a boundary, so does the other. -/
def Agrees (known all : String → Option TurnBoundary) : Prop :=
  ∀ session, known session = none ∨ known session = all session

/-- Without a boundary a tool makes none; the other events do not look at it. -/
theorem advanceTurnBoundary_none (previous : Option TurnBoundary) (event : TimelineEvent) :
    advanceTurnBoundary none event = none ∨
      advanceTurnBoundary none event = advanceTurnBoundary previous event := by
  unfold advanceTurnBoundary
  split <;> simp

theorem Agrees.advance {known all : String → Option TurnBoundary} (h : Agrees known all)
    (event : TimelineEvent) :
    Agrees (TranscriptTrim.advance event known) (TranscriptTrim.advance event all) := by
  unfold TranscriptTrim.advance
  split
  · exact h
  · rcases h event.sessionId with hnone | heq
    · rcases advanceTurnBoundary_none (all event.sessionId) event with hadvance | hadvance
      · rw [hnone, hadvance]
        intro session
        by_cases hsession : session = event.sessionId
        · exact .inl (hsession ▸ hnone)
        · cases hall : advanceTurnBoundary (all event.sessionId) event <;>
            simpa [hsession] using h session
      · rw [hnone, hadvance]
        cases hall : advanceTurnBoundary (all event.sessionId) event with
        | none => exact h
        | some advanced =>
          intro session
          by_cases hsession : session = event.sessionId
          · simp [hsession]
          · simpa [hsession] using h session
    · rw [heq]
      cases hall : advanceTurnBoundary (all event.sessionId) event with
      | none => exact h
      | some advanced =>
        intro session
        by_cases hsession : session = event.sessionId
        · simp [hsession]
        · simpa [hsession] using h session

/-- Rows behind a page do not change a boundary that the page knows. -/
theorem agrees_boundaries (page after : List TimelineEvent) :
    Agrees (boundaries page) (boundaries (page ++ after)) := by
  induction page with
  | nil => exact fun _ => .inl rfl
  | cons event page ih => exact ih.advance event

/-- **What a page supersedes, the session supersedes.** -/
theorem supersededBy_of_page {later : List TimelineEvent} (h : supersededBy later event = true)
    (after : List TimelineEvent) : supersededBy (later ++ after) event = true := by
  rw [supersededBy, Bool.and_eq_true] at h ⊢
  refine ⟨h.1, ?_⟩
  rcases agrees_boundaries later after event.sessionId with hnone | heq
  · rw [hnone] at h
    have hfalse : isSupersededAnswerDelta event none = false := by
      unfold isSupersededAnswerDelta
      split <;> rfl
    rw [hfalse] at h
    cases h.2
  · rw [← heq]
    exact h.2

/-- The event is superseded by the rows of the session after it. -/
def SupersededIn (events : List TimelineEvent) (event : TimelineEvent) : Prop :=
  ∃ before later, events = before ++ event :: later ∧ supersededBy later event = true

theorem supersededIn_of_page {before page after : List TimelineEvent} (hmem : event ∈ page)
    (hkept : event ∉ kept page) : SupersededIn (before ++ (page ++ after)) event := by
  obtain ⟨before', later, rfl, hsuper⟩ := supersededBy_of_not_mem_kept hmem hkept
  exact ⟨before ++ before', later ++ after, by simp, supersededBy_of_page hsuper after⟩

/-! ## Places -/

@[simp] theorem rowCursor_trimPayload (event : TimelineEvent) :
    (trimPayload event).rowCursor = event.rowCursor := by
  unfold trimPayload
  split <;> rfl

@[simp] theorem type_trimPayload (event : TimelineEvent) :
    (trimPayload event).type = event.type := by
  unfold trimPayload
  split <;> rfl

@[simp] theorem eventPlace_trimPayload (event : TimelineEvent) :
    eventPlace (trimPayload event) = eventPlace event := by
  rw [eventPlace, rowCursor_trimPayload, eventPlace]

/-- The cursor of rows is the place of one of them, and of none behind it. -/
theorem maxRowCursor_spec {R : Type*} {rowCursor : R → Option ℤ} {rows : List R}
    (hplaced : ∀ row ∈ rows, (rowCursor row).isSome) (fallback : ℤ) :
    (rows = [] ∧ maxRowCursor rowCursor rows fallback = fallback) ∨
      ∃ last ∈ rows, maxRowCursor rowCursor rows fallback = (rowCursor last).getD 0 ∧
        ∀ row ∈ rows, (rowCursor row).getD 0 ≤ maxRowCursor rowCursor rows fallback := by
  cases hmax : (rows.filterMap rowCursor).max? with
  | none =>
    left
    have hnil : rows.filterMap rowCursor = [] := List.max?_eq_none_iff.mp hmax
    refine ⟨List.eq_nil_iff_forall_not_mem.mpr fun row hrow => ?_, by simp [maxRowCursor, hmax]⟩
    have hsome := hplaced row hrow
    rw [List.filterMap_eq_nil_iff.mp hnil row hrow] at hsome
    cases hsome
  | some place =>
    right
    obtain ⟨hmem, hle⟩ := List.max?_eq_some_iff.mp hmax
    obtain ⟨last, hlast, hplace⟩ := List.mem_filterMap.mp hmem
    have heq : maxRowCursor rowCursor rows fallback = place := by simp [maxRowCursor, hmax]
    refine ⟨last, hlast, by simp [heq, hplace], fun row hrow => ?_⟩
    obtain ⟨place', hplace'⟩ := Option.isSome_iff_exists.mp (hplaced row hrow)
    rw [heq, hplace']
    exact hle place' (List.mem_filterMap.mpr ⟨row, hrow, hplace'⟩)

/-! ## The budget -/

/-- What a page spends is within the budget, or it is one row. -/
def Fits (budget count spent : ℕ) : Prop := spent ≤ budget ∨ count = 1

/-- The rows that are kept, and what they take. -/
theorem keepWithin_spec {R : Type*} (size : R → ℕ) (budget count spent : ℕ) (rows : List R)
    (h : Fits budget count spent) :
    (keepWithin size budget count spent rows).1 ≤ rows.length ∧
      (keepWithin size budget count spent rows).2 = spent +
        ((rows.take (keepWithin size budget count spent rows).1).map size).sum ∧
      Fits budget (count + (keepWithin size budget count spent rows).1)
        (keepWithin size budget count spent rows).2 ∧
      (rows ≠ [] → 0 < count + (keepWithin size budget count spent rows).1) := by
  induction rows generalizing count spent with
  | nil => exact ⟨le_rfl, rfl, h, fun hne => absurd rfl hne⟩
  | cons row rows ih =>
    rw [keepWithin]
    by_cases hstop : 0 < count ∧ budget < spent + size row
    · rw [if_pos hstop]
      exact ⟨by simp, by simp, h, fun _ => hstop.1⟩
    · rw [if_neg hstop]
      have hfits : Fits budget (count + 1) (spent + size row) := by
        unfold Fits
        omega
      obtain ⟨hle, htotal, hfit, -⟩ := ih (count + 1) (spent + size row) hfits
      refine ⟨by simpa using hle, ?_, ?_, fun _ => Nat.add_pos_right count (Nat.succ_pos _)⟩
      · rw [htotal, List.take_succ_cons, List.map_cons, List.sum_cons]
        omega
      · rwa [show count + ((keepWithin size budget (count + 1) (spent + size row) rows).1 + 1) =
          count + 1 + (keepWithin size budget (count + 1) (spent + size row) rows).1 by omega]

variable {sizes : RowSizes} {budget : ℕ}

/-- The bytes of the rows of a page. -/
def rowBytes (sizes : RowSizes) (page : SessionEventsSinceResult) : ℕ :=
  (page.events.map sizes.event).sum + (page.rawOutputs.map sizes.rawOutput).sum

/-- The number of the rows of a page. -/
def rowCount (page : SessionEventsSinceResult) : ℕ :=
  page.events.length + page.rawOutputs.length

/-- **What `fit_to_budget` does to a page**: nothing, or its events are cut and its raw
outputs wait, or its raw outputs are cut. -/
inductive Cut (result : SessionEventsSinceResult) : SessionEventsSinceResult → Prop where
  | whole : Cut result result
  | events (k : ℕ) (hpos : 0 < k) (hlt : k < result.events.length)
      (hempty : result.rawOutputs = []) :
      Cut result { result with
        events := result.events.take k
        eventCursor :=
          maxRowCursor TimelineEvent.rowCursor (result.events.take k) result.eventCursor
        changeCursor := none
        hasMore := true }
  | both (k : ℕ) (hpos : 0 < k) (hlt : k < result.events.length)
      (first : RawProviderOutput) (rest : List RawProviderOutput)
      (hfirst : result.rawOutputs = first :: rest) :
      Cut result { result with
        events := result.events.take k
        eventCursor :=
          maxRowCursor TimelineEvent.rowCursor (result.events.take k) result.eventCursor
        rawOutputs := []
        rawOutputCursor := outputPlace first - 1
        changeCursor := none
        hasMore := true }
  | outputs (k : ℕ) (output : RawProviderOutput) (hget : result.rawOutputs[k]? = some output)
      (hpos : 0 < result.events.length + k) :
      Cut result { result with
        rawOutputs := result.rawOutputs.take k
        rawOutputCursor := maxRowCursor RawProviderOutput.rowCursor (result.rawOutputs.take k)
          (outputPlace output - 1)
        changeCursor := none
        hasMore := true }

theorem fitToBudget_spec (result : SessionEventsSinceResult)
    (hplaced : ∀ output ∈ result.rawOutputs, output.rowCursor.isSome) :
    Cut result (fitToBudget sizes result budget) ∧
      Fits budget (rowCount (fitToBudget sizes result budget))
        (rowBytes sizes (fitToBudget sizes result budget)) := by
  obtain ⟨events, rawOutputs, eventCursor, outputCursor, change, deleted, deletedOutputs, reset,
    more⟩ := result
  have hevents := keepWithin_spec sizes.event budget 0 0 events (.inl (Nat.zero_le _))
  unfold fitToBudget
  rcases hkeep : keepWithin sizes.event budget 0 0 events with ⟨k, spent⟩
  rw [hkeep] at hevents
  obtain ⟨hle, hspent, hfits, hpos⟩ := hevents
  simp only [Nat.zero_add] at hle hspent hfits hpos
  dsimp only
  by_cases hcut : k < events.length
  · rw [List.map_take] at hspent
    have hne : events ≠ [] := by
      intro hnil
      simp [hnil] at hcut
    have hcount : (events.take k).length = k := by
      rw [List.length_take]
      omega
    simp only [hcut, if_true]
    cases rawOutputs with
    | nil =>
      refine ⟨Cut.events k (hpos hne) hcut rfl, ?_⟩
      simpa [rowCount, rowBytes, hcount, ← hspent] using hfits
    | cons first rest =>
      obtain ⟨place, hplace⟩ := Option.isSome_iff_exists.mp (hplaced first (by simp))
      have hboth : Cut ⟨events, first :: rest, eventCursor, outputCursor, change, deleted,
          deletedOutputs, reset, more⟩ _ :=
        Cut.both k (hpos hne) hcut first rest rfl
      rw [outputPlace, hplace] at hboth
      simp only [List.getElem?_cons_zero, Option.bind_some, hplace]
      refine ⟨hboth, ?_⟩
      simpa [rowCount, rowBytes, hcount, ← hspent] using hfits
  · have hall : k = events.length := by omega
    subst hall
    rw [List.take_length] at hspent
    have houtputs := keepWithin_spec sizes.rawOutput budget events.length spent rawOutputs hfits
    rcases hkeep' : keepWithin sizes.rawOutput budget events.length spent rawOutputs with ⟨j, total⟩
    rw [hkeep'] at houtputs
    obtain ⟨hle', htotal, hfits', hpos'⟩ := houtputs
    simp only [lt_irrefl, if_false]
    by_cases hcut' : j < rawOutputs.length
    · rw [List.map_take] at htotal
      obtain ⟨output, hget⟩ : ∃ output, rawOutputs[j]? = some output :=
        ⟨_, List.getElem?_eq_getElem hcut'⟩
      obtain ⟨place, hplace⟩ := Option.isSome_iff_exists.mp
        (hplaced output (List.mem_of_getElem? hget))
      have hne : rawOutputs ≠ [] := by
        intro hnil
        simp [hnil] at hcut'
      have hcount : (rawOutputs.take j).length = j := by
        rw [List.length_take]
        omega
      have hcutOutputs : Cut ⟨events, rawOutputs, eventCursor, outputCursor, change, deleted,
          deletedOutputs, reset, more⟩ _ :=
        Cut.outputs j output hget (hpos' hne)
      rw [outputPlace, hplace] at hcutOutputs
      simp only [hcut', hget, Option.bind_some, hplace]
      refine ⟨hcutOutputs, ?_⟩
      simpa [rowCount, rowBytes, hcount, ← hspent, ← htotal] using hfits'
    · have hall : j = rawOutputs.length := by omega
      subst hall
      rw [List.take_length] at htotal
      simp only [lt_irrefl]
      refine ⟨Cut.whole, ?_⟩
      simpa [rowCount, rowBytes, ← hspent, ← htotal] using hfits'

/-! ## Coverage of a cut page -/

section Coverage

variable {result page : SessionEventsSinceResult} {events : List TimelineEvent}
  {rawOutputs : List RawProviderOutput} {skip : TimelineEvent → Prop}
  {skipOutput : RawProviderOutput → Prop} {start stop outputStart outputStop : ℤ}

/-- The first rows of a page, up to the cursor they give. -/
theorem covers_take {R : Type*} {rowCursor : R → Option ℤ} {rows items : List R} {left : R → Prop}
    (h : Covers (fun row => (rowCursor row).getD 0) rows left start stop items)
    (hplaced : ∀ row ∈ items, (rowCursor row).isSome) {k : ℕ} (hne : items.take k ≠ [])
    (fallback : ℤ) :
    Covers (fun row => (rowCursor row).getD 0) rows left start
      (maxRowCursor rowCursor (items.take k) fallback) (items.take k) := by
  rcases maxRowCursor_spec (fun row hrow => hplaced row (List.mem_of_mem_take hrow)) fallback with
    ⟨hnil, -⟩ | ⟨last, hlast, heq, hmax⟩
  · exact absurd hnil hne
  · rw [heq] at hmax ⊢
    exact h.take hlast hmax

/-- **A cut page covers the rows up to its cursors.** -/
theorem Cut.covers (h : Cut result page)
    (hevents : Covers eventPlace events skip start result.eventCursor result.events)
    (houtputs : Covers outputPlace rawOutputs skipOutput outputStart result.rawOutputCursor
      result.rawOutputs)
    (hplaced : ∀ event ∈ result.events, event.rowCursor.isSome)
    (houtputPlaced : ∀ output ∈ result.rawOutputs, output.rowCursor.isSome) :
    Covers eventPlace events skip start page.eventCursor page.events ∧
      Covers outputPlace rawOutputs skipOutput outputStart page.rawOutputCursor
        page.rawOutputs := by
  have htake : ∀ k, 0 < k → k < result.events.length → result.events.take k ≠ [] := by
    intro k hpos hlt hnil
    have := congrArg List.length hnil
    rw [List.length_take, List.length_nil] at this
    omega
  cases h with
  | whole => exact ⟨hevents, houtputs⟩
  | events k hpos hlt hempty =>
    exact ⟨covers_take hevents hplaced (htake k hpos hlt) _, houtputs⟩
  | both k hpos hlt first rest hfirst =>
    refine ⟨covers_take hevents hplaced (htake k hpos hlt) _, ?_⟩
    rw [hfirst] at houtputs
    exact houtputs.cut
  | outputs k output hget hpos =>
    refine ⟨hevents, ?_⟩
    cases k with
    | zero =>
      obtain ⟨rest, hrest⟩ : ∃ rest, result.rawOutputs = output :: rest := by
        cases hraw : result.rawOutputs with
        | nil => simp [hraw] at hget
        | cons first rest => exact ⟨rest, by simpa [hraw] using hget⟩
      rw [hrest] at houtputs
      exact houtputs.cut
    | succ k =>
      refine covers_take houtputs houtputPlaced (fun hnil => ?_) _
      have := (List.getElem?_eq_some_iff.mp hget).1
      have := congrArg List.length hnil
      rw [List.length_take, List.length_nil] at this
      omega

/-- A page that was cut carries a row. -/
theorem Cut.carries (h : Cut result page) (hmore : page.hasMore = true) :
    (page = result ∧ result.hasMore = true) ∨ page.events ≠ [] ∨ page.rawOutputs ≠ [] := by
  cases h with
  | whole => exact .inl ⟨rfl, hmore⟩
  | events k hpos hlt hempty =>
    refine .inr (.inl fun hnil => ?_)
    have := congrArg List.length hnil
    simp only [List.length_take, List.length_nil] at this
    omega
  | both k hpos hlt first rest hfirst =>
    refine .inr (.inl fun hnil => ?_)
    have := congrArg List.length hnil
    simp only [List.length_take, List.length_nil] at this
    omega
  | outputs k output hget hpos =>
    right
    by_contra hnone
    simp only [not_or, not_not] at hnone
    have hevents := congrArg List.length hnone.1
    have houtputs := congrArg List.length hnone.2
    have := (List.getElem?_eq_some_iff.mp hget).1
    simp only [List.length_take, List.length_nil] at hevents houtputs
    omega

/-- A page without more is the one that was read. -/
theorem Cut.eq_of_not_hasMore (h : Cut result page) (hmore : page.hasMore = false) :
    page = result := by
  cases h with
  | whole => rfl
  | _ => cases hmore

end Coverage

/-! ## The pages of a session -/

section Session

variable (transcript : Transcript) (head : ℤ)

/-- The events of a session as the bridge sends them. -/
def slimEvents : List TimelineEvent := transcript.events.map trimPayload

theorem slimEvents_ascending : Ascending eventPlace (slimEvents transcript) :=
  transcript.ordered.map eventPlace_trimPayload

theorem slimEvents_placed : ∀ event ∈ slimEvents transcript, event.rowCursor.isSome := by
  intro event hevent
  obtain ⟨row, hrow, rfl⟩ := List.mem_map.mp hevent
  rw [rowCursor_trimPayload]
  exact transcript.placed row hrow

theorem maxRowCursor_map_trimPayload (rows : List TimelineEvent) (fallback : ℤ) :
    maxRowCursor TimelineEvent.rowCursor (rows.map trimPayload) fallback =
      maxRowCursor TimelineEvent.rowCursor rows fallback := by
  rw [maxRowCursor, List.filterMap_map]
  congr 3
  funext event
  exact rowCursor_trimPayload event

variable (start outputStart : ℤ)

/-- The page a request with two cursors reads. -/
abbrev readPage : SessionEventsSinceResult :=
  trimForRemote (listSessionEventsSince transcript head start outputStart)

/-- The events of that request. -/
abbrev readEvents : List TimelineEvent :=
  rowsAfter eventPlace sessionEventPageLimit (slimEvents transcript) start

theorem readEvents_eq :
    (rowsAfter eventPlace sessionEventPageLimit transcript.events start).map trimPayload =
      readEvents transcript start :=
  (rowsAfter_map eventPlace_trimPayload _ _).symm

theorem readEvents_placed : ∀ event ∈ readEvents transcript start, event.rowCursor.isSome :=
  fun event hevent => slimEvents_placed transcript event ((rowsAfter_sublist _ _).subset hevent)

theorem events_readPage :
    (readPage transcript head start outputStart).events = kept (readEvents transcript start) := by
  have hasc : Ascending eventPlace (readEvents transcript start) :=
    (slimEvents_ascending transcript).sublist (rowsAfter_sublist _ _)
  rw [readPage, trimForRemote, listSessionEventsSince]
  rw [readEvents_eq, dropSupersededDeltas_eq (readEvents_placed transcript start) hasc]

theorem eventCursor_readPage :
    (readPage transcript head start outputStart).eventCursor =
      maxRowCursor TimelineEvent.rowCursor (readEvents transcript start) start := by
  rw [← readEvents_eq, maxRowCursor_map_trimPayload]
  rfl

/-- **A read covers the events up to its cursor**, up to superseded deltas. -/
theorem covers_readPage :
    Covers eventPlace (slimEvents transcript) (SupersededIn (slimEvents transcript)) start
      (readPage transcript head start outputStart).eventCursor
      (readPage transcript head start outputStart).events := by
  have hasc := slimEvents_ascending transcript
  rw [events_readPage, eventCursor_readPage]
  refine (Covers.read hasc ?_).sublist (kept_sublist _) ?_
  · exact maxRowCursor_spec (readEvents_placed transcript start) start
  · intro event hevent hkept
    obtain ⟨before, after, hwithin⟩ := rowsAfter_contiguous hasc sessionEventPageLimit start
    rw [hwithin]
    exact supersededIn_of_page hevent hkept

theorem covers_readPage_outputs :
    Covers outputPlace transcript.rawOutputs (fun _ => False) outputStart
      (readPage transcript head start outputStart).rawOutputCursor
      (readPage transcript head start outputStart).rawOutputs :=
  Covers.read transcript.outputsOrdered
    (maxRowCursor_spec (fun output houtput => transcript.outputsPlaced output
      ((rowsAfter_sublist _ _).subset houtput)) outputStart)

/-- How many rows lie after two cursors. -/
def pending : ℕ :=
  ((slimEvents transcript).filter fun event => decide (start < eventPlace event)).length +
    (transcript.rawOutputs.filter fun output => decide (outputStart < outputPlace output)).length

variable (sizes : RowSizes) (budget : ℕ)

/-- The read after a page, cut to the budget. -/
theorem cut_nextPage (page : SessionEventsSinceResult) :
    Cut (readPage transcript head page.eventCursor page.rawOutputCursor)
        (nextPage sizes budget transcript head page) ∧
      Fits budget (rowCount (nextPage sizes budget transcript head page))
        (rowBytes sizes (nextPage sizes budget transcript head page)) :=
  fitToBudget_spec _ fun output houtput =>
    transcript.outputsPlaced output ((rowsAfter_sublist _ _).subset houtput)

/-- **The next page covers what lies between its cursors and the ones before.** -/
theorem covers_nextPage (page : SessionEventsSinceResult) :
    Covers eventPlace (slimEvents transcript) (SupersededIn (slimEvents transcript))
        page.eventCursor (nextPage sizes budget transcript head page).eventCursor
        (nextPage sizes budget transcript head page).events ∧
      Covers outputPlace transcript.rawOutputs (fun _ => False) page.rawOutputCursor
        (nextPage sizes budget transcript head page).rawOutputCursor
        (nextPage sizes budget transcript head page).rawOutputs := by
  refine (cut_nextPage transcript head sizes budget page).1.covers
    (covers_readPage transcript head _ _) (covers_readPage_outputs transcript head _ _) ?_ ?_
  · intro event hevent
    rw [events_readPage] at hevent
    exact readEvents_placed transcript _ event ((kept_sublist _).subset hevent)
  · intro output houtput
    exact transcript.outputsPlaced output ((rowsAfter_sublist _ _).subset houtput)

/-- **A page that owes more gets further.** -/
theorem pending_nextPage (page : SessionEventsSinceResult)
    (hmore : (nextPage sizes budget transcript head page).hasMore = true) :
    pending transcript (nextPage sizes budget transcript head page).eventCursor
        (nextPage sizes budget transcript head page).rawOutputCursor <
      pending transcript page.eventCursor page.rawOutputCursor := by
  obtain ⟨hevents, houtputs⟩ := covers_nextPage transcript head sizes budget page
  have hcut := (cut_nextPage transcript head sizes budget page).1
  set next := nextPage sizes budget transcript head page
  have hle := @length_after_le _ eventPlace (slimEvents transcript) _ _ hevents.le
  have hleOutputs := @length_after_le _ outputPlace transcript.rawOutputs _ _ houtputs.le
  -- A row between the cursors before and after is passed.
  have hevent : (∃ event ∈ slimEvents transcript, page.eventCursor < eventPlace event ∧
      eventPlace event ≤ next.eventCursor) →
      pending transcript next.eventCursor next.rawOutputCursor <
        pending transcript page.eventCursor page.rawOutputCursor := by
    rintro ⟨event, hmem, hlt, hstop⟩
    have := length_after_lt hmem hlt hstop
    unfold pending
    omega
  have houtput : (∃ output ∈ transcript.rawOutputs, page.rawOutputCursor < outputPlace output ∧
      outputPlace output ≤ next.rawOutputCursor) →
      pending transcript next.eventCursor next.rawOutputCursor <
        pending transcript page.eventCursor page.rawOutputCursor := by
    rintro ⟨output, hmem, hlt, hstop⟩
    have := length_after_lt hmem hlt hstop
    unfold pending
    omega
  rcases hcut.carries hmore with ⟨heq, hread⟩ | hne | hne
  · -- The read was not cut, so it came back full.
    have hfull : sessionEventPageLimit ≤ (rowsAfter eventPlace sessionEventPageLimit
          transcript.events page.eventCursor).length ∨
        sessionRawOutputPageLimit ≤ (rowsAfter outputPlace sessionRawOutputPageLimit
          transcript.rawOutputs page.rawOutputCursor).length := by
      simpa [readPage, trimForRemote, listSessionEventsSince] using hread
    rcases hfull with hfull | hfull
    · refine hevent ?_
      have hlength : (readEvents transcript page.eventCursor).length ≠ 0 := by
        rw [← readEvents_eq, List.length_map]
        simp only [sessionEventPageLimit] at hfull ⊢
        omega
      rw [heq, eventCursor_readPage]
      rcases maxRowCursor_spec (readEvents_placed transcript page.eventCursor)
        page.eventCursor with ⟨hnil, -⟩ | ⟨last, hlast, hcursor, -⟩
      · exact absurd (congrArg List.length hnil) hlength
      · exact ⟨last, (rowsAfter_sublist _ _).subset hlast, lt_of_mem_rowsAfter hlast,
          le_of_eq hcursor.symm⟩
    · refine houtput ?_
      rw [heq]
      rcases @maxRowCursor_spec _ RawProviderOutput.rowCursor _
        (fun output houtput => transcript.outputsPlaced output
          ((rowsAfter_sublist sessionRawOutputPageLimit page.rawOutputCursor).subset houtput))
        page.rawOutputCursor with ⟨hnil, -⟩ | ⟨last, hlast, hcursor, -⟩
      · rw [hnil] at hfull
        simp [sessionRawOutputPageLimit] at hfull
      · exact ⟨last, (rowsAfter_sublist _ _).subset hlast, lt_of_mem_rowsAfter hlast,
          le_of_eq hcursor.symm⟩
  · obtain ⟨event, hmem⟩ := List.exists_mem_of_ne_nil _ hne
    exact hevent ⟨event, hevents.mem event hmem⟩
  · obtain ⟨output, hmem⟩ := List.exists_mem_of_ne_nil _ hne
    exact houtput ⟨output, houtputs.mem output hmem⟩

/-- A page without more leaves nothing behind its cursors. -/
theorem nextPage_last (page : SessionEventsSinceResult)
    (hmore : (nextPage sizes budget transcript head page).hasMore = false) :
    (∀ event ∈ slimEvents transcript,
        eventPlace event ≤ (nextPage sizes budget transcript head page).eventCursor) ∧
      ∀ output ∈ transcript.rawOutputs,
        outputPlace output ≤ (nextPage sizes budget transcript head page).rawOutputCursor := by
  have heq := (cut_nextPage transcript head sizes budget page).1.eq_of_not_hasMore hmore
  rw [heq] at hmore ⊢
  have hshort : ((rowsAfter eventPlace sessionEventPageLimit transcript.events
        page.eventCursor).length < sessionEventPageLimit) ∧
      (rowsAfter outputPlace sessionRawOutputPageLimit transcript.rawOutputs
        page.rawOutputCursor).length < sessionRawOutputPageLimit := by
    simpa [readPage, trimForRemote, listSessionEventsSince] using hmore
  constructor
  · intro event hevent
    have hlength : (readEvents transcript page.eventCursor).length < sessionEventPageLimit := by
      rw [← readEvents_eq, List.length_map]
      exact hshort.1
    rw [eventCursor_readPage]
    by_contra hlt
    rcases maxRowCursor_spec (readEvents_placed transcript page.eventCursor)
      page.eventCursor with ⟨hnil, hcursor⟩ | ⟨last, hlast, hcursor, hmax⟩
    · have hmem := mem_rowsAfter_of_short hlength hevent (by omega)
      rw [show rowsAfter _ _ _ _ = [] from hnil] at hmem
      cases hmem
    · have hstart := lt_of_mem_rowsAfter hlast
      have hplace : eventPlace last = last.rowCursor.getD 0 := rfl
      have := hmax event (mem_rowsAfter_of_short hlength hevent (by omega))
      exact hlt this
  · intro output houtput
    by_contra hlt
    rcases @maxRowCursor_spec _ RawProviderOutput.rowCursor _
      (fun output houtput => transcript.outputsPlaced output
        ((rowsAfter_sublist sessionRawOutputPageLimit page.rawOutputCursor).subset houtput))
      page.rawOutputCursor with ⟨hnil, hcursor⟩ | ⟨last, hlast, hcursor, hmax⟩
    · have hlt' : page.rawOutputCursor < outputPlace output := by
        simp only [trimForRemote, listSessionEventsSince] at hlt
        rw [hcursor] at hlt
        omega
      have hmem := mem_rowsAfter_of_short hshort.2 houtput hlt'
      rw [hnil] at hmem
      cases hmem
    · have hstart := lt_of_mem_rowsAfter hlast
      have hplace : outputPlace last = last.rowCursor.getD 0 := rfl
      simp only [trimForRemote, listSessionEventsSince] at hlt
      have := hmax output (mem_rowsAfter_of_short hshort.2 houtput (by omega))
      exact hlt this

/-! ## The tail -/

/-- The events of the tail as the bridge sends them, superseded deltas included. -/
def slimTail : List TimelineEvent := (eventTail transcript.events).map trimPayload

/-- The raw outputs of the tail. -/
def outputTail : List RawProviderOutput :=
  (newest sessionRawOutputPageLimit transcript.rawOutputs).reverse

theorem eventTail_sublist (events : List TimelineEvent) : (eventTail events).Sublist events :=
  List.filter_sublist

theorem slimTail_sublist : (slimTail transcript).Sublist (slimEvents transcript) :=
  (eventTail_sublist _).map _

theorem outputTail_sublist : (outputTail transcript).Sublist transcript.rawOutputs := by
  have h := (List.take_sublist sessionRawOutputPageLimit transcript.rawOutputs.reverse).reverse
  rwa [List.reverse_reverse] at h

theorem slimTail_placed : ∀ event ∈ slimTail transcript, event.rowCursor.isSome :=
  fun event hevent => slimEvents_placed transcript event
    ((slimTail_sublist transcript).subset hevent)

theorem outputTail_placed : ∀ output ∈ outputTail transcript, output.rowCursor.isSome :=
  fun output houtput => transcript.outputsPlaced output
    ((outputTail_sublist transcript).subset houtput)

/-- A delta is in the tail for the run it is in, so the rows after it are, too. -/
theorem eventTail_after_delta {before later : List TimelineEvent}
    (hasc : Ascending eventPlace (before ++ event :: later))
    (hmem : event ∈ eventTail (before ++ event :: later)) (hdelta : event.type = "message.delta") :
    ∃ before', eventTail (before ++ event :: later) = before' ++ event :: later := by
  unfold eventTail at hmem ⊢
  dsimp only at hmem ⊢
  generalize hfloor : (max _ _ : ℤ) = floor at hmem ⊢
  obtain ⟨hevent, hpart⟩ := List.mem_filter.mp hmem
  have hlater := (List.pairwise_append.mp hasc).2.1
  rw [Bool.or_eq_true, decide_eq_true_eq] at hpart
  have habove : floor < eventPlace event := by
    rcases hpart with hlt | hdurable
    · exact hlt
    · -- A durable row in the place of the delta would be the delta.
      obtain ⟨durable, hnewest, hplace⟩ := List.mem_map.mp (List.contains_iff_mem.mp hdurable)
      obtain ⟨hrow, htype⟩ := List.mem_filter.mp
        (List.mem_reverse.mp (List.mem_of_mem_take hnewest))
      have := hasc.eq_of_place hrow hevent hplace
      subst this
      simp [hdelta] at htype
  rw [List.filter_append]
  refine ⟨_, congrArg₂ (· ++ ·) rfl ?_⟩
  rw [List.filter_eq_self]
  intro row hrow
  rw [Bool.or_eq_true, decide_eq_true_eq]
  left
  rcases List.mem_cons.mp hrow with rfl | hrow
  · exact habove
  · have := (List.pairwise_cons.mp hlater).1 row hrow
    omega

/-- **A row the tail keeps is not superseded in the session.** -/
theorem not_mem_kept_slimTail (h : SupersededIn (slimEvents transcript) event) :
    event ∉ kept (slimTail transcript) := by
  intro hkept
  have hasc := slimEvents_ascending transcript
  have hmem := (kept_sublist _).subset hkept
  obtain ⟨before, later, heq, hsuper⟩ := h
  have hnodup := (hasc.sublist (slimTail_sublist transcript)).nodup
  obtain ⟨rows, rest, hrows, hbefore, hrest⟩ := List.map_eq_append_iff.mp heq
  obtain ⟨row, after, rfl, hrow, hafter⟩ := List.map_eq_cons_iff.mp hrest
  have hdelta : row.type = "message.delta" := by
    rw [supersededBy, Bool.and_eq_true, Bool.and_eq_true, beq_iff_eq] at hsuper
    rw [← type_trimPayload, hrow]
    exact hsuper.1.2
  have hordered := transcript.ordered
  obtain ⟨row', hrow', htrim⟩ := List.mem_map.mp hmem
  have hplace : eventPlace row' = eventPlace row := by
    rw [← eventPlace_trimPayload, htrim, ← hrow, eventPlace_trimPayload]
  have hsame : row' = row := hordered.eq_of_place ((eventTail_sublist _).subset hrow')
    (by simp [hrows]) hplace
  subst hsame
  rw [hrows] at hordered hrow'
  obtain ⟨before', htail⟩ := eventTail_after_delta hordered hrow' hdelta
  have hslim : slimTail transcript = before'.map trimPayload ++ event :: later := by
    rw [slimTail, hrows, htail, List.map_append, List.map_cons, hrow, hafter]
  rw [hslim] at hkept hnodup
  exact not_mem_kept hnodup hsuper hkept

theorem events_trimForRemote_tail :
    (trimForRemote (listAuthoritativeTail transcript head)).events = kept (slimTail transcript) :=
  dropSupersededDeltas_eq (slimTail_placed transcript)
    ((slimEvents_ascending transcript).sublist (slimTail_sublist transcript))

theorem eventCursor_trimForRemote_tail :
    (trimForRemote (listAuthoritativeTail transcript head)).eventCursor =
      maxRowCursor TimelineEvent.rowCursor (slimTail transcript) 0 :=
  (maxRowCursor_map_trimPayload (eventTail transcript.events) 0).symm

/-- All of the rows, up to the cursor they give. -/
theorem covers_tail {R : Type*} {rowCursor : R → Option ℤ} {rows : List R} {left : R → Prop}
    (hasc : Ascending (fun row => (rowCursor row).getD 0) rows)
    (hplaced : ∀ row ∈ rows, (rowCursor row).isSome) {start : ℤ} (hle : start ≤ 0)
    (hstart : ∀ row ∈ rows, start < (rowCursor row).getD 0) :
    Covers (fun row => (rowCursor row).getD 0) rows left start (maxRowCursor rowCursor rows 0)
      rows := by
  rcases maxRowCursor_spec hplaced 0 with ⟨hnil, hcursor⟩ | ⟨last, hlast, hcursor, hmax⟩
  · rw [hcursor]
    exact .all hasc hle hstart (by simp [hnil])
  · refine .all hasc ?_ hstart hmax
    have := hstart last hlast
    omega

/-- The tail, cut to the budget. -/
theorem cut_firstPage :
    Cut (trimForRemote (listAuthoritativeTail transcript head))
        (firstPage sizes budget transcript head) ∧
      Fits budget (rowCount (firstPage sizes budget transcript head))
        (rowBytes sizes (firstPage sizes budget transcript head)) :=
  fitToBudget_spec _ (outputTail_placed transcript)

/-- **The first page covers the tail up to its cursors.** -/
theorem covers_firstPage {start outputStart : ℤ} (hle : start ≤ 0) (houtputLe : outputStart ≤ 0)
    (hstart : ∀ event ∈ slimTail transcript, start < eventPlace event)
    (houtputStart : ∀ output ∈ outputTail transcript, outputStart < outputPlace output) :
    Covers eventPlace (slimTail transcript) (· ∉ kept (slimTail transcript)) start
        (firstPage sizes budget transcript head).eventCursor
        (firstPage sizes budget transcript head).events ∧
      Covers outputPlace (outputTail transcript) (fun _ => False) outputStart
        (firstPage sizes budget transcript head).rawOutputCursor
        (firstPage sizes budget transcript head).rawOutputs := by
  refine (cut_firstPage transcript head sizes budget).1.covers ?_ ?_ ?_ (outputTail_placed transcript)
  · rw [events_trimForRemote_tail, eventCursor_trimForRemote_tail]
    refine Covers.sublist ?_ (kept_sublist _) fun event _ hkept => hkept
    exact covers_tail ((slimEvents_ascending transcript).sublist (slimTail_sublist transcript))
      (slimTail_placed transcript) hle hstart
  · exact covers_tail (transcript.outputsOrdered.sublist (outputTail_sublist transcript))
      (outputTail_placed transcript) houtputLe houtputStart
  · intro event hevent
    rw [events_trimForRemote_tail] at hevent
    exact slimTail_placed transcript event ((kept_sublist _).subset hevent)

end Session

/-! ## The backfill -/

section Backfill

variable (sizes : RowSizes) (budget : ℕ) (transcript : Transcript) (head : ℤ)

/-- **The pages after a page.** They cover what lies behind its cursors, and there are no
more of them than there are rows. -/
theorem pagesFrom_spec (fuel : ℕ) (page : SessionEventsSinceResult)
    (hfuel : page.hasMore = true → pending transcript page.eventCursor page.rawOutputCursor < fuel)
    (hlast : page.hasMore = false →
      (∀ event ∈ slimTail transcript, eventPlace event ≤ page.eventCursor) ∧
        ∀ output ∈ outputTail transcript, outputPlace output ≤ page.rawOutputCursor) :
    ∃ pages stop outputStop,
      pagesFrom sizes budget transcript head fuel page = some (page :: pages) ∧
      Covers eventPlace (slimEvents transcript) (SupersededIn (slimEvents transcript))
        page.eventCursor stop (pages.flatMap (·.events)) ∧
      Covers outputPlace transcript.rawOutputs (fun _ => False) page.rawOutputCursor outputStop
        (pages.flatMap (·.rawOutputs)) ∧
      (∀ page ∈ pages, Fits budget (rowCount page) (rowBytes sizes page)) ∧
      (∀ event ∈ slimTail transcript, eventPlace event ≤ stop) ∧
      ∀ output ∈ outputTail transcript, outputPlace output ≤ outputStop := by
  induction fuel generalizing page with
  | zero =>
    have hmore : page.hasMore = false := by
      by_contra hmore
      exact absurd (hfuel (by simpa using hmore)) (Nat.not_lt_zero _)
    refine ⟨[], _, _, by simp [pagesFrom, hmore], .nil _ _ _ _, .nil _ _ _ _, by simp, ?_⟩
    exact hlast hmore
  | succ fuel ih =>
    cases hmore : page.hasMore with
    | false =>
      refine ⟨[], _, _, by simp [pagesFrom, hmore], .nil _ _ _ _, .nil _ _ _ _, by simp, ?_⟩
      exact hlast hmore
    | true =>
      obtain ⟨hevents, houtputs⟩ := covers_nextPage transcript head sizes budget page
      have hfits := (cut_nextPage transcript head sizes budget page).2
      have hnext := ih (nextPage sizes budget transcript head page)
        (fun hmore' => by
          have := pending_nextPage transcript head sizes budget page hmore'
          have := hfuel hmore
          omega)
        (fun hmore' => by
          have h := nextPage_last transcript head sizes budget page hmore'
          exact ⟨fun event hevent => h.1 event ((slimTail_sublist transcript).subset hevent),
            fun output houtput => h.2 output ((outputTail_sublist transcript).subset houtput)⟩)
      obtain ⟨pages, stop, outputStop, hpages, hcovers, hcoversOutputs, hfit, hstop⟩ := hnext
      refine ⟨nextPage sizes budget transcript head page :: pages, stop, outputStop,
        by simp [pagesFrom, hmore, hpages], ?_, ?_, ?_, hstop⟩
      · exact hevents.append hcovers
      · exact houtputs.append hcoversOutputs
      · exact List.forall_mem_cons.mpr ⟨hfits, hfit⟩

/-- **A backfill loses nothing.** The client's loop ends. What it has received then is in
order, without a repetition, from the session's rows as the bridge slims them; each row of
the tail is among it that is no superseded delta; and the rows of each page fit the budget
or there is one. -/
theorem backfill_complete :
    ∃ fuel pages, backfill sizes budget transcript head fuel = some pages ∧
      Ascending eventPlace (pages.flatMap (·.events)) ∧
      Ascending outputPlace (pages.flatMap (·.rawOutputs)) ∧
      (∀ event ∈ pages.flatMap (·.events), ∃ row ∈ transcript.events, event = trimPayload row) ∧
      (∀ output ∈ pages.flatMap (·.rawOutputs), output ∈ transcript.rawOutputs) ∧
      (∀ event ∈ (trimForRemote (listAuthoritativeTail transcript head)).events,
        event ∈ pages.flatMap (·.events)) ∧
      (∀ output ∈ (listAuthoritativeTail transcript head).rawOutputs,
        output ∈ pages.flatMap (·.rawOutputs)) ∧
      ∀ page ∈ pages, rowBytes sizes page ≤ budget ∨ rowCount page = 1 := by
  obtain ⟨start, hle, hstart⟩ := exists_cursor_before eventPlace (slimEvents transcript) 0
  obtain ⟨outputStart, houtputLe, houtputStart⟩ :=
    exists_cursor_before outputPlace transcript.rawOutputs 0
  have htailStart : ∀ event ∈ slimTail transcript, start < eventPlace event :=
    fun event hevent => hstart event ((slimTail_sublist transcript).subset hevent)
  have houtputTailStart : ∀ output ∈ outputTail transcript, outputStart < outputPlace output :=
    fun output houtput => houtputStart output ((outputTail_sublist transcript).subset houtput)
  obtain ⟨hfirst, hfirstOutputs⟩ := covers_firstPage transcript head sizes budget hle houtputLe
    htailStart houtputTailStart
  have hspec := cut_firstPage transcript head sizes budget
  set first := firstPage sizes budget transcript head
  -- If the first page is the whole tail, its cursors are behind the tail.
  have hlast : first.hasMore = false →
      (∀ event ∈ slimTail transcript, eventPlace event ≤ first.eventCursor) ∧
        ∀ output ∈ outputTail transcript, outputPlace output ≤ first.rawOutputCursor := by
    intro hmore
    rw [hspec.1.eq_of_not_hasMore hmore, eventCursor_trimForRemote_tail]
    constructor
    · intro event hevent
      rcases maxRowCursor_spec (slimTail_placed transcript) 0 with ⟨hnil, -⟩ | ⟨-, -, -, hmax⟩
      · simp [hnil] at hevent
      · exact hmax event hevent
    · intro output houtput
      rcases maxRowCursor_spec (outputTail_placed transcript) 0 with ⟨hnil, -⟩ | ⟨-, -, -, hmax⟩
      · simp [hnil] at houtput
      · exact hmax output houtput
  obtain ⟨pages, stop, outputStop, hpages, hrest, hrestOutputs, hfits, hstop, houtputStop⟩ :=
    pagesFrom_spec sizes budget transcript head _ first (fun _ => Nat.lt_succ_self _) hlast
  have hevents := (hfirst.widen (fun event hevent => (slimTail_sublist transcript).subset hevent)
    fun event _ htail hkept => htail ((kept_sublist _).subset hkept)).append
    (hrest.mono fun event hsuper => not_mem_kept_slimTail transcript hsuper)
  have hfirstOutputs' : Covers outputPlace (outputTail transcript)
      (· ∉ outputTail transcript) outputStart first.rawOutputCursor first.rawOutputs :=
    hfirstOutputs.mono fun _ hfalse => hfalse.elim
  have houtputs := (hfirstOutputs'.widen
    (fun output houtput => (outputTail_sublist transcript).subset houtput)
    fun _ _ htail => htail).append (hrestOutputs.mono fun _ hfalse => hfalse.elim)
  refine ⟨_, first :: pages, hpages, hevents.ascending, houtputs.ascending, ?_, ?_, ?_, ?_, ?_⟩
  · intro event hevent
    obtain ⟨row, hrow, heq⟩ := List.mem_map.mp (hevents.mem event hevent).1
    exact ⟨row, hrow, heq.symm⟩
  · exact fun output houtput => (houtputs.mem output houtput).1
  · intro event hevent
    rw [events_trimForRemote_tail] at hevent
    have htail := (kept_sublist _).subset hevent
    exact hevents.complete event ((slimTail_sublist transcript).subset htail)
      (htailStart event htail) (hstop event htail) (not_not.mpr hevent)
  · intro output houtput
    exact houtputs.complete output ((outputTail_sublist transcript).subset houtput)
      (houtputTailStart output houtput) (houtputStop output houtput) (not_not.mpr houtput)
  · exact List.forall_mem_cons.mpr ⟨hspec.2, hfits⟩

/-- The text around the rows of a page that reads rows. -/
def envelope (page : SessionEventsSinceResult) : String :=
  "\x7b\"events\":[],\"rawOutputs\":[],\"eventCursor\":" ++ toString page.eventCursor ++
    ",\"rawOutputCursor\":" ++ toString page.rawOutputCursor ++ ",\"changeCursor\":" ++
    ((page.changeCursor.map toString).getD "null") ++
    ",\"deletedEventIds\":[],\"deletedRawOutputIds\":[],\"resetRequired\":" ++
    toString page.resetRequired ++ ",\"hasMore\":" ++ toString page.hasMore ++ "\x7d"

/-- How many bytes such a page takes as JSON. -/
def serializedSize (page : SessionEventsSinceResult) : ℕ :=
  (envelope page).utf8ByteSize + (page.events.length - 1) + (page.rawOutputs.length - 1) +
    rowBytes sizes page

/-- A page takes more than its rows. -/
theorem rowBytes_lt_serializedSize (page : SessionEventsSinceResult) :
    rowBytes sizes page < serializedSize sizes page := by
  obtain ⟨text, htext⟩ : ∃ text, envelope page = text ++ "\x7d" := ⟨_, rfl⟩
  have hbrace : 0 < "\x7d".utf8ByteSize := by decide
  have hpos : 0 < (envelope page).utf8ByteSize := by
    rw [htext, String.utf8ByteSize_append]
    exact Nat.add_pos_right _ hbrace
  unfold serializedSize
  omega

end Backfill

/-- A line of output of which the row takes 121 bytes. -/
def outputLine (id : String) (place : ℤ) : RawProviderOutput :=
  ⟨id, "session-1", "a", "2026-10-04T00:00:00Z", some place⟩

/-- A session with two lines of output. -/
def twoLines : Transcript where
  events := []
  rawOutputs := [outputLine "raw-10" 10, outputLine "raw-11" 11]
  placed := by simp
  outputsPlaced := by simp [outputLine]
  ordered := List.Pairwise.nil
  outputsOrdered := by simp [Ascending, outputPlace, outputLine]

/-- **The budget is for the rows.** Two rows that fill it go on one page, which takes more
bytes than the budget. -/
theorem page_exceeds_budget :
    ∃ page, backfill ⟨fun _ => 0, fun _ => 121⟩ 242 twoLines 99 0 = some [page] ∧
      rowCount page = 2 ∧ 242 < serializedSize ⟨fun _ => 0, fun _ => 121⟩ page := by
  have hpage : firstPage ⟨fun _ => 0, fun _ => 121⟩ 242 twoLines 99 =
      ⟨[], twoLines.rawOutputs, 0, 11, some 99, [], [], true, false⟩ := by
    decide
  refine ⟨_, by rw [backfill]; rfl, rfl, ?_⟩
  exact rowBytes_lt_serializedSize ⟨fun _ => 0, fun _ => 121⟩
    ⟨[], twoLines.rawOutputs, 0, 11, some 99, [], [], true, false⟩

end Argmax.Remote.TranscriptTrim
