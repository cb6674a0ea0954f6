import Argmax.Renderer.Slices

/-!
# Dropping sessions from events that nothing is dropped of

Budgets and sweep only ever drop events, and treat each session by itself but for the
budgets that sessions share. So events that lose nothing lose nothing either once the
events of some sessions are gone.
-/

namespace Argmax.Renderer

open Argmax.Providers

variable (decode : Decoder)

/-- The events within their budgets that no answer supersedes. -/
def bounded (events : List TimelineEvent) : List TimelineEvent :=
  pruneSupersededDeltas decode (cap decode ⟨fun _ => 0, 0, 0, 0⟩ events)

/-! ## Budgets -/

theorem cap_sublist (kept : Kept) (events : List TimelineEvent) :
    (cap decode kept events).Sublist events := by
  induction events generalizing kept with
  | nil => exact List.Sublist.refl _
  | cons event events ih =>
    rw [cap]
    split
    · exact (ih _).cons_cons event
    · exact (ih _).cons event

/-- Less has been counted. -/
structure Kept.Le (kept kept' : Kept) : Prop where
  deltas : ∀ sessionId, kept.deltas sessionId ≤ kept'.deltas sessionId
  thinking : kept.thinking ≤ kept'.thinking
  trace : kept.trace ≤ kept'.trace
  durable : kept.durable ≤ kept'.durable

theorem Kept.Le.count {kept kept' : Kept} (h : kept.Le kept') (event : TimelineEvent) :
    (kept.count decode event).1.Le (kept'.count decode event).1 ∧
      ((kept'.count decode event).2 = true → (kept.count decode event).2 = true) := by
  obtain ⟨hdeltas, hthinking, htrace, hdurable⟩ := h
  have hsession := hdeltas event.sessionId
  rw [Kept.count, Kept.count]
  split
  · refine ⟨⟨hdeltas, hthinking, ?_, hdurable⟩, ?_⟩
    · dsimp only
      omega
    · simp only [decide_eq_true_eq]
      omega
  · split
    · refine ⟨⟨hdeltas, ?_, htrace, hdurable⟩, ?_⟩
      · dsimp only
        omega
      · simp only [decide_eq_true_eq]
        omega
    · refine ⟨⟨?_, hthinking, htrace, hdurable⟩, ?_⟩
      · intro sessionId
        dsimp only
        have hle := hdeltas sessionId
        split <;> omega
      · simp only [decide_eq_true_eq]
        omega
    · refine ⟨⟨hdeltas, hthinking, htrace, ?_⟩, ?_⟩
      · dsimp only
        omega
      · simp only [decide_eq_true_eq]
        omega

theorem Kept.le_count (kept : Kept) (event : TimelineEvent) :
    kept.Le (kept.count decode event).1 := by
  rw [Kept.count]
  split
  · exact ⟨fun _ => le_refl _, le_refl _, Nat.le_succ _, le_refl _⟩
  · split
    · exact ⟨fun _ => le_refl _, Nat.le_succ _, le_refl _, le_refl _⟩
    · refine ⟨?_, le_refl _, le_refl _, le_refl _⟩
      intro sessionId
      dsimp only
      split <;> omega
    · exact ⟨fun _ => le_refl _, le_refl _, le_refl _, Nat.le_succ _⟩

theorem Kept.Le.trans {kept kept' kept'' : Kept} (h : kept.Le kept') (h' : kept'.Le kept'') :
    kept.Le kept'' where
  deltas := fun sessionId => (h.deltas sessionId).trans (h'.deltas sessionId)
  thinking := h.thinking.trans h'.thinking
  trace := h.trace.trans h'.trace
  durable := h.durable.trans h'.durable

variable {events : List TimelineEvent} {event : TimelineEvent}

/-- Events within their budgets stay so when some of them are gone. -/
theorem cap_filter (keep : TimelineEvent → Bool) {kept kept' : Kept} (h : kept.Le kept')
    (hall : cap decode kept' events = events) :
    cap decode kept (events.filter keep) = events.filter keep := by
  induction events generalizing kept kept' with
  | nil => rfl
  | cons event events ih =>
    rw [cap] at hall
    have hfits : (kept'.count decode event).2 = true := by
      by_contra hnot
      rw [if_neg hnot] at hall
      have hlength := (cap_sublist decode (kept'.count decode event).1 events).length_le
      rw [hall, List.length_cons] at hlength
      omega
    rw [if_pos hfits] at hall
    have hrest := (List.cons.inj hall).2
    by_cases hkeep : keep event = true
    · rw [List.filter_cons_of_pos hkeep, cap, if_pos ((h.count decode event).2 hfits),
        ih (h.count decode event).1 hrest]
    · rw [List.filter_cons_of_neg hkeep]
      exact ih (h.trans (kept'.le_count decode event)) hrest

/-! ## The sweep -/

/-- A sweep over the kept sessions follows one over all: it knows the same of the
sessions, and has superseded nothing else. -/
structure Follows (keep : String → Bool) (all some : Sweep) : Prop where
  nextBoundary : ∀ sessionId, keep sessionId = true →
    some.nextBoundary sessionId = all.nextBoundary sessionId
  runs : ∀ sessionId, keep sessionId = true → some.runs sessionId = all.runs sessionId
  closed : ∀ sessionId, keep sessionId = false → some.runs sessionId = none
  superseded : ∀ id ∈ some.superseded, id ∈ all.superseded

theorem superseded_settleRun (sweep : Sweep) (sessionId : String) :
    ∀ id ∈ sweep.superseded, id ∈ (sweep.settleRun sessionId).superseded := by
  intro id hid
  rw [Sweep.settleRun]
  split
  · exact hid
  · dsimp only
    split
    · exact List.mem_append_left _ hid
    · exact hid

theorem nextBoundary_settleRun (sweep : Sweep) (sessionId : String) :
    (sweep.settleRun sessionId).nextBoundary = sweep.nextBoundary := by
  rw [Sweep.settleRun]
  split <;> rfl

theorem runs_settleRun (sweep : Sweep) (sessionId other : String) :
    (sweep.settleRun sessionId).runs other =
      if other = sessionId then none else sweep.runs other := by
  rw [Sweep.settleRun]
  split
  · rename_i hnone
    split
    · rename_i heq
      rw [heq]
      exact hnone
    · rfl
  · rfl

variable {keep : String → Bool} {all some : Sweep}

section

variable (h : Follows keep all some)
include h

theorem Follows.settleRun {sessionId : String}
    (hkeep : keep sessionId = true) :
    Follows keep (all.settleRun sessionId) (some.settleRun sessionId) where
  nextBoundary := by
    rw [nextBoundary_settleRun, nextBoundary_settleRun]
    exact h.nextBoundary
  runs := by
    intro other hother
    rw [runs_settleRun, runs_settleRun, h.runs other hother]
  closed := by
    intro other hother
    rw [runs_settleRun, h.closed other hother]
    split <;> rfl
  superseded := by
    have hrun := h.runs sessionId hkeep
    rw [Sweep.settleRun, Sweep.settleRun, hrun]
    cases all.runs sessionId with
    | none => exact h.superseded
    | some run =>
      dsimp only
      split
      · intro id hid
        rcases List.mem_append.mp hid with hold | hnew
        · exact List.mem_append_left _ (h.superseded id hold)
        · exact List.mem_append_right _ hnew
      · exact h.superseded

/-- The sweep over all settles a run of a session that is gone. -/
theorem Follows.settleGone {sessionId : String}
    (hgone : keep sessionId = false) : Follows keep (all.settleRun sessionId) some where
  nextBoundary := by
    rw [nextBoundary_settleRun]
    exact h.nextBoundary
  runs := by
    intro other hother
    have hne : other ≠ sessionId := by
      intro heq
      rw [heq, hgone] at hother
      cases hother
    rw [runs_settleRun, if_neg hne]
    exact h.runs other hother
  closed := h.closed
  superseded := fun id hid => superseded_settleRun all sessionId id (h.superseded id hid)

theorem Follows.collect (hkeep : keep event.sessionId = true) :
    Follows keep (all.collect event) (some.collect event) := by
  rw [Sweep.collect, Sweep.collect, h.nextBoundary _ hkeep, h.runs _ hkeep]
  cases all.nextBoundary event.sessionId with
  | none => exact h
  | some boundary =>
    cases boundary with
    | user => exact h
    | completed _ =>
      refine ⟨h.nextBoundary, h.runs, h.closed, ?_⟩
      intro id hid
      rcases List.mem_append.mp hid with hold | hnew
      · exact List.mem_append_left _ (h.superseded id hold)
      · exact List.mem_append_right _ hnew
    | tool completedText =>
      cases completedText with
      | none => exact h
      | some completedText =>
        refine ⟨h.nextBoundary, ?_, ?_, h.superseded⟩
        · intro other hother
          dsimp only
          split
          · rfl
          · exact h.runs other hother
        · intro other hother
          dsimp only
          have hne : other ≠ event.sessionId := by
            intro heq
            rw [heq, hkeep] at hother
            cases hother
          rw [if_neg hne]
          exact h.closed other hother

theorem Follows.collectGone (hgone : keep event.sessionId = false) :
    Follows keep (all.collect event) some := by
  have hne : ∀ other, keep other = true → other ≠ event.sessionId := by
    intro other hother heq
    rw [heq, hgone] at hother
    cases hother
  rw [Sweep.collect]
  split
  · refine ⟨h.nextBoundary, h.runs, h.closed, ?_⟩
    intro id hid
    exact List.mem_append_left _ (h.superseded id hid)
  · refine ⟨h.nextBoundary, ?_, h.closed, h.superseded⟩
    intro other hother
    dsimp only
    rw [if_neg (hne other hother)]
    exact h.runs other hother
  · exact h

theorem Follows.advance (hkeep : keep event.sessionId = true) :
    Follows keep (all.advance decode event) (some.advance decode event) := by
  rw [Sweep.advance, Sweep.advance, h.nextBoundary _ hkeep]
  split
  · exact h
  · obtain ⟨hboundary, hruns, hclosed, hsuperseded⟩ := h.settleRun hkeep
    refine ⟨?_, hruns, hclosed, hsuperseded⟩
    intro other hother
    dsimp only
    split
    · rfl
    · exact hboundary other hother

theorem Follows.advanceGone (hgone : keep event.sessionId = false) :
    Follows keep (all.advance decode event) some := by
  rw [Sweep.advance]
  split
  · exact h
  · obtain ⟨hboundary, hruns, hclosed, hsuperseded⟩ := h.settleGone hgone
    refine ⟨?_, hruns, hclosed, hsuperseded⟩
    intro other hother
    dsimp only
    have hne : other ≠ event.sessionId := by
      intro heq
      rw [heq, hgone] at hother
      cases hother
    rw [if_neg hne]
    exact hboundary other hother

theorem Follows.visit (hkeep : keep event.sessionId = true) :
    Follows keep (all.visit decode event) (some.visit decode event) := by
  rw [Sweep.visit, Sweep.visit]
  split
  · exact h
  · split
    · split
      · exact h.collect hkeep
      · exact h
    · exact h.advance decode hkeep

theorem Follows.visitGone (hgone : keep event.sessionId = false) :
    Follows keep (all.visit decode event) some := by
  rw [Sweep.visit]
  split
  · exact h
  · split
    · split
      · exact h.collectGone hgone
      · exact h
    · exact h.advanceGone decode hgone

end

/-- **The sweep treats each session by itself.** -/
theorem superseded_filter (keep : String → Bool) (ascending : List TimelineEvent) :
    ∀ id ∈ supersededAnswerDeltaIds decode (ascending.filter fun event => keep event.sessionId),
      id ∈ supersededAnswerDeltaIds decode ascending := by
  have hswept : Follows keep (ascending.foldr (Sweep.visit decode) .start)
      ((ascending.filter fun event => keep event.sessionId).foldr (Sweep.visit decode) .start) := by
    induction ascending with
    | nil => exact ⟨fun _ _ => rfl, fun _ _ => rfl, fun _ _ => rfl, fun _ hid => hid⟩
    | cons event events ih =>
      by_cases hkeep : keep event.sessionId = true
      · rw [List.filter_cons, if_pos hkeep]
        exact ih.visit decode hkeep
      · rw [List.filter_cons, if_neg hkeep]
        rw [Bool.not_eq_true] at hkeep
        exact ih.visitGone decode hkeep
  have hsettled : ∀ {all some : Sweep}, Follows keep all some → Follows keep
      (ascending.foldl (fun sweep event => sweep.settleRun event.sessionId) all)
      ((ascending.filter fun event => keep event.sessionId).foldl
        (fun sweep event => sweep.settleRun event.sessionId) some) := by
    clear hswept
    induction ascending with
    | nil => exact fun h => h
    | cons event events ih =>
      intro all some h
      by_cases hkeep : keep event.sessionId = true
      · rw [List.filter_cons, if_pos hkeep]
        exact ih (h.settleRun hkeep)
      · rw [List.filter_cons, if_neg hkeep]
        rw [Bool.not_eq_true] at hkeep
        exact ih (h.settleGone hkeep)
  exact (hsettled hswept).superseded

/-! ## Events that lose nothing -/

theorem pruneSupersededDeltas_of_short (h : events.length < 2) :
    pruneSupersededDeltas decode events = events := by
  rw [pruneSupersededDeltas]
  split
  · rw [if_pos h]
  · rfl

theorem pruneSupersededDeltas_of_descending (h : 2 ≤ events.length)
    (hcursor : ∀ event ∈ events, event.rowCursor.isSome)
    (hdescending : Descending (·.rowCursor) events) :
    pruneSupersededDeltas decode events =
      events.filter fun event =>
        !(supersededAnswerDeltaIds decode events.reverse).contains event.id := by
  have hne : events ≠ [] := by
    intro hnil
    rw [hnil] at h
    simp at h
  have hlt : (events.getLast hne).rowCursor.getD 0 < (events.head hne).rowCursor.getD 0 := by
    cases events with
    | nil => exact absurd rfl hne
    | cons event events =>
      have hrest : events ≠ [] := by
        intro hnil
        rw [hnil] at h
        simp at h
      rw [List.getLast_cons hrest]
      exact (List.pairwise_cons.mp hdescending).1 _ (List.getLast_mem hrest)
  have hafter : isAfter (events.head hne) (events.getLast hne) = true := by
    have hhead := Option.isSome_iff_exists.mp (hcursor _ (List.head_mem hne))
    have hlast := Option.isSome_iff_exists.mp (hcursor _ (List.getLast_mem hne))
    obtain ⟨cursor, hcursor⟩ := hhead
    obtain ⟨cursor', hcursor'⟩ := hlast
    rw [hcursor, hcursor'] at hlt
    rw [isAfter, hcursor, hcursor']
    exact decide_eq_true hlt
  rw [pruneSupersededDeltas, List.head?_eq_some_head hne, List.getLast?_eq_some_getLast hne]
  dsimp only
  rw [if_neg (by omega), hafter, if_pos rfl, if_pos rfl, List.filter_reverse, List.reverse_reverse]

theorem pruneSupersededDeltas_sublist (hcursor : ∀ event ∈ events, event.rowCursor.isSome)
    (hdescending : Descending (·.rowCursor) events) :
    (pruneSupersededDeltas decode events).Sublist events := by
  by_cases hshort : events.length < 2
  · rw [pruneSupersededDeltas_of_short decode hshort]
  · rw [pruneSupersededDeltas_of_descending decode (by omega) hcursor hdescending]
    exact List.filter_sublist

/-- **Events that lose nothing lose nothing once some sessions are gone.** -/
theorem bounded_filter (keep : String → Bool) (hcursor : ∀ event ∈ events, event.rowCursor.isSome)
    (hdescending : Descending (·.rowCursor) events)
    (hall : (bounded decode events).length = events.length) :
    bounded decode (events.filter fun event => keep event.sessionId) =
      events.filter fun event => keep event.sessionId := by
  have hcap := cap_sublist decode ⟨fun _ => 0, 0, 0, 0⟩ events
  have hprune := pruneSupersededDeltas_sublist decode
    (fun event hevent => hcursor event (hcap.subset hevent)) (hdescending.sublist hcap)
  have hcapAll : cap decode ⟨fun _ => 0, 0, 0, 0⟩ events = events := by
    apply hcap.eq_of_length
    have hle := hprune.length_le
    have hle' := hcap.length_le
    rw [bounded] at hall
    omega
  have hpruneAll : pruneSupersededDeltas decode events = events := by
    rw [bounded, hcapAll] at hall
    rw [hcapAll] at hprune
    exact hprune.eq_of_length hall
  rw [bounded, cap_filter decode _ ⟨fun _ => le_refl _, le_refl _, le_refl _, le_refl _⟩ hcapAll]
  by_cases hshort : (events.filter fun event => keep event.sessionId).length < 2
  · exact pruneSupersededDeltas_of_short decode hshort
  have hsublist : (events.filter fun event => keep event.sessionId).Sublist events :=
    List.filter_sublist
  have hlong : 2 ≤ events.length := by
    have hle := hsublist.length_le
    omega
  rw [pruneSupersededDeltas_of_descending decode hlong hcursor hdescending,
    List.filter_eq_self] at hpruneAll
  rw [pruneSupersededDeltas_of_descending decode (by omega)
    (fun event hevent => hcursor event (hsublist.subset hevent))
    (hdescending.sublist hsublist), List.filter_eq_self]
  intro event hevent
  have hkept := hpruneAll event (hsublist.subset hevent)
  rw [Bool.not_eq_true', List.contains_eq_mem, decide_eq_false_iff_not] at hkept ⊢
  intro hsuperseded
  rw [← List.filter_reverse] at hsuperseded
  exact hkept (superseded_filter decode keep _ _ hsuperseded)

end Argmax.Renderer
