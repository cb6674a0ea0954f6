import Argmax.Lib.StableSort
import Argmax.Renderer.Conflation
import Argmax.Renderer.SemanticsAgreement
import Argmax.Renderer.SessionConversation
import Mathlib.Algebra.Order.Ring.Int

/-!
# Tools and their completions

Rows are compared by cursor where both have one and by the clock otherwise. That is an order if and
only if no row without a cursor stands, by the clock, between two stored rows whose clocks do not
follow their cursors. Where it is one, a completion finds a start of its own tool and invocation
that stands before it.

## Main results

* `consistent_iff`: when the comparison is an order.
* `Joined.sweep`: what one turn of the sweep keeps.
* `tools_correlate_iff`: the join is sound if and only if the clocks agree.
-/

namespace Argmax.Renderer.SessionConversation

open Argmax.CanonicalTimeline Argmax.Lib

/-! ## The order -/

section Order

variable (collation : Collation) {a b c : RawTimelineEvent}

/-- A row does not come after another one. -/
def NotAfter (left right : RawTimelineEvent) : Prop := eventIsAfter collation left right = false

instance : DecidableRel (NotAfter collation) := fun _ _ => inferInstanceAs (Decidable (_ = _))

theorem localeCompare_ne_gt {left right : String} :
    localeCompare collation left right ≠ .gt ↔ collation.le left right = true := by
  rw [localeCompare]
  split
  · rename_i h
    split <;> simp [h]
  · rename_i h
    simp [h]

theorem notAfter_of_cursors {l r : ℤ} (ha : a.rowCursor = some l) (hb : b.rowCursor = some r) :
    NotAfter collation a b ↔ l < r ∨ l = r ∧ collation.le a.createdAt b.createdAt = true := by
  rw [NotAfter, eventIsAfter, compareEventOrder, ha, hb]
  by_cases h : l = r
  · subst h
    simpa using localeCompare_ne_gt collation
  · have hcompare : compare l r ≠ .gt ↔ l < r := by
      rw [Ne, compare_gt_iff_gt]
      omega
    simpa [h] using hcompare

theorem notAfter_of_live (h : a.rowCursor = none ∨ b.rowCursor = none) :
    NotAfter collation a b ↔ collation.le a.createdAt b.createdAt = true := by
  rw [NotAfter, eventIsAfter, compareEventOrder]
  have hclock := @localeCompare_ne_gt collation a.createdAt b.createdAt
  cases ha : a.rowCursor <;> cases hb : b.rowCursor <;> simp_all

theorem notAfter_total (a b : RawTimelineEvent) : NotAfter collation a b ∨ NotAfter collation b a := by
  have htotal := collation.total a.createdAt b.createdAt
  rw [Bool.or_eq_true] at htotal
  cases ha : a.rowCursor with
  | none =>
    rw [notAfter_of_live collation (.inl ha), notAfter_of_live collation (.inr ha)]
    exact htotal
  | some l =>
    cases hb : b.rowCursor with
    | none =>
      rw [notAfter_of_live collation (.inr hb), notAfter_of_live collation (.inl hb)]
      exact htotal
    | some r =>
      rw [notAfter_of_cursors collation ha hb, notAfter_of_cursors collation hb ha]
      rcases lt_trichotomy l r with hlt | heq | hlt
      · exact .inl (.inl hlt)
      · exact htotal.imp (fun h => .inr ⟨heq, h⟩) fun h => .inr ⟨heq.symm, h⟩
      · exact .inr (.inl hlt)

/-- **The clocks agree with the cursors**, as far as rows without a cursor can tell: none of these
stands between two stored rows that the clock has the other way round. -/
def ClocksAgree (events : List RawTimelineEvent) : Prop :=
  ∀ early ∈ events, ∀ late ∈ events, ∀ live ∈ events, ∀ l r, early.rowCursor = some l →
    late.rowCursor = some r → l < r → live.rowCursor = none →
      ¬(collation.le late.createdAt live.createdAt = true ∧
        collation.le live.createdAt early.createdAt = true)

/-- The comparison goes round in no circle. -/
def Consistent (events : List RawTimelineEvent) : Prop :=
  ∀ a ∈ events, ∀ b ∈ events, ∀ c ∈ events,
    NotAfter collation a b → NotAfter collation b c → NotAfter collation a c

/-- **The comparison is an order of the rows if and only if the clocks agree.** -/
theorem consistent_iff (events : List RawTimelineEvent) :
    Consistent collation events ↔ ClocksAgree collation events := by
  constructor
  · rintro h early hearly late hlate live hlive l r hl hr hlt hnone ⟨hlow, hhigh⟩
    have hback := h late hlate live hlive early hearly
      ((notAfter_of_live collation (.inr hnone)).mpr hlow)
      ((notAfter_of_live collation (.inl hnone)).mpr hhigh)
    rw [notAfter_of_cursors collation hr hl] at hback
    omega
  · intro h a ha b hb c hc hab hbc
    have htrans := collation.trans a.createdAt b.createdAt c.createdAt
    have htotal := collation.total a.createdAt c.createdAt
    rw [Bool.or_eq_true] at htotal
    cases hca : a.rowCursor with
    | none =>
      rw [notAfter_of_live collation (.inl hca)] at hab ⊢
      cases hcb : b.rowCursor with
      | none =>
        rw [notAfter_of_live collation (.inl hcb)] at hbc
        exact htrans hab hbc
      | some q =>
        cases hcc : c.rowCursor with
        | none =>
          rw [notAfter_of_live collation (.inr hcc)] at hbc
          exact htrans hab hbc
        | some r =>
          rw [notAfter_of_cursors collation hcb hcc] at hbc
          rcases hbc with hlt | ⟨_, hbc⟩
          · -- `a` is behind `c`, which the clock has before `b`, or it is not behind it
            refine htotal.resolve_right fun hca' => h b hb c hc a ha q r hcb hcc hlt hca ⟨hca', hab⟩
          · exact htrans hab hbc
    | some p =>
      cases hcb : b.rowCursor with
      | none =>
        rw [notAfter_of_live collation (.inr hcb)] at hab
        rw [notAfter_of_live collation (.inl hcb)] at hbc
        cases hcc : c.rowCursor with
        | none =>
          rw [notAfter_of_live collation (.inr hcc)]
          exact htrans hab hbc
        | some r =>
          rw [notAfter_of_cursors collation hca hcc]
          rcases lt_trichotomy p r with hlt | heq | hlt
          · exact .inl hlt
          · exact .inr ⟨heq, htrans hab hbc⟩
          · exact absurd ⟨hab, hbc⟩ (h c hc a ha b hb r p hcc hca hlt hcb)
      | some q =>
        rw [notAfter_of_cursors collation hca hcb] at hab
        cases hcc : c.rowCursor with
        | none =>
          rw [notAfter_of_live collation (.inr hcc)] at hbc ⊢
          rcases hab with hlt | ⟨_, hab⟩
          · refine htotal.resolve_right fun hca' => h a ha b hb c hc p q hca hcb hlt hcc ⟨hbc, hca'⟩
          · exact htrans hab hbc
        | some r =>
          rw [notAfter_of_cursors collation hcb hcc] at hbc
          rw [notAfter_of_cursors collation hca hcc]
          rcases hab with hlt | ⟨rfl, hab⟩
          · rcases hbc with hlt' | ⟨rfl, _⟩
            · exact .inl (hlt.trans hlt')
            · exact .inl hlt
          · exact hbc.imp_right fun ⟨heq, hbc⟩ => ⟨heq, htrans hab hbc⟩

end Order

/-! ## The sweep -/

section Sweep

variable (js : Runtime) {rows : List RawTimelineEvent} {correlation : Correlation}
  {event : RawTimelineEvent}

/-- A tool as it was when it started. -/
def StartedTool.opened (tool : StartedTool) : StartedTool := { tool with completion := none }

/-- **What the sweep keeps**: a tool for every start, and no completion twice, before its start or
with another tool's identity. The starts that wait are there, and nothing has completed them. -/
structure Joined (rows : List RawTimelineEvent) (correlation : Correlation) : Prop where
  starts : correlation.started.map StartedTool.opened = rows.filterMap (startOf js)
  completions : (correlation.started.filterMap (·.completion)).Subperm
    (rows.filter fun row => (completionOf js row).isSome)
  waiting : ∀ toolUseId pending, correlation.pendingByToolUseId toolUseId = some pending →
    pending.Nodup ∧ ∀ place ∈ pending, ∃ start, correlation.started[place]? = some start ∧
      start.toolUseId = toolUseId ∧ start.completion = none
  paired : ∀ tool ∈ correlation.started, ∀ completion, tool.completion = some completion →
    completionOf js completion = some (tool.toolUseId, tool.invocationId) ∧
      [tool.event, completion].Sublist rows

theorem findJoinIndex_eq_some {started : List StartedTool} {pending : List ℕ}
    {invocationId : Option String} {index : ℕ}
    (h : findJoinIndex started pending invocationId = some index) :
    ∃ place start, pending[index]? = some place ∧ started[place]? = some start ∧
      start.invocationId = invocationId := by
  rw [findJoinIndex, Option.map_eq_some_iff] at h
  obtain ⟨⟨place, position⟩, hfind, rfl⟩ := h
  have hmem := List.mem_of_find?_eq_some hfind
  rw [List.mem_reverse, List.mem_zipIdx_iff_getElem?] at hmem
  have hinvocation := List.find?_some hfind
  rw [beq_iff_eq, Option.map_eq_some_iff] at hinvocation
  obtain ⟨start, hstart, hinvocation⟩ := hinvocation
  exact ⟨place, start, hmem, hstart, hinvocation⟩

/-- A completion is left alone, or a start that waits for it takes it. -/
theorem join_cases (correlation : Correlation) (event : RawTimelineEvent) (toolUseId : String)
    (invocationId : Option String) :
    correlation.join event toolUseId invocationId = correlation ∨
    ∃ pending index place start, correlation.pendingByToolUseId toolUseId = some pending ∧
      pending[index]? = some place ∧ correlation.started[place]? = some start ∧
      start.invocationId = invocationId ∧
      correlation.join event toolUseId invocationId =
        { started := correlation.started.modify place fun start =>
            { start with completion := some event }
          pendingByToolUseId := Function.update correlation.pendingByToolUseId toolUseId
            (some (pending.eraseIdx index)) } := by
  cases hpending : correlation.pendingByToolUseId toolUseId with
  | none => exact .inl (by simp [Correlation.join, hpending])
  | some pending =>
    cases hindex : findJoinIndex correlation.started pending invocationId with
    | none => exact .inl (by simp [Correlation.join, hpending, hindex])
    | some index =>
      obtain ⟨place, start, hplace, hstart, hinvocation⟩ := findJoinIndex_eq_some hindex
      refine .inr ⟨pending, index, place, start, rfl, hplace, hstart, hinvocation, ?_⟩
      simp [Correlation.join, hpending, hindex, hplace]

theorem startOf_opened {start : StartedTool} (h : startOf js event = some start) :
    start.event = event ∧ start.completion = none := by
  rw [startOf, Option.bind_eq_some_iff] at h
  obtain ⟨tool, -, h⟩ := h
  split at h
  · cases h
    exact ⟨rfl, rfl⟩
  · cases h

/-- A row that starts a tool completes none. -/
theorem completionOf_eq_none {start : StartedTool} (h : startOf js event = some start) :
    completionOf js event = none := by
  rw [startOf, Option.bind_eq_some_iff] at h
  obtain ⟨tool, htool, h⟩ := h
  split at h
  · rename_i hphase
    simp [completionOf, htool, hphase]
  · cases h

namespace Joined

variable {js}

theorem nil : Joined js [] ⟨[], fun _ => none⟩ := ⟨rfl, by simp, by simp, by simp⟩

theorem skip (h : Joined js rows correlation) (hstart : startOf js event = none) :
    Joined js (rows ++ [event]) correlation where
  starts := by simp [h.starts, hstart]
  completions :=
    h.completions.trans ((List.sublist_append_left rows [event]).filter _).subperm
  waiting := h.waiting
  paired tool htool completion hcompletion :=
    (h.paired tool htool completion hcompletion).imp_right
      (·.trans (List.sublist_append_left rows [event]))

theorem push (h : Joined js rows correlation) {start : StartedTool}
    (hstart : startOf js event = some start) :
    Joined js (rows ++ [event]) (correlation.push start) := by
  obtain ⟨rfl, hopen⟩ := startOf_opened js hstart
  refine ⟨?_, ?_, ?_, ?_⟩
  · have hopened : start.opened = start := by rw [StartedTool.opened, ← hopen]
    simp [Correlation.push, h.starts, hstart, hopened]
  · simpa [Correlation.push, hopen, completionOf_eq_none js hstart] using h.completions
  · intro toolUseId pending hpending
    have hold : ∀ (place : ℕ) start', correlation.started[place]? = some start' →
        (correlation.started ++ [start])[place]? = some start' := by
      intro place start' hplace
      rw [List.getElem?_append_left (List.getElem?_eq_some_iff.mp hplace).1, hplace]
    by_cases heq : toolUseId = start.toolUseId
    · subst heq
      simp only [Correlation.push, Function.update_self, Option.some.injEq] at hpending
      subst hpending
      cases hbefore : correlation.pendingByToolUseId start.toolUseId with
      | none => simp [Correlation.push, hopen]
      | some waiting =>
        obtain ⟨hnodup, hwaiting⟩ := h.waiting _ _ hbefore
        have hrange : ∀ place ∈ waiting, place < correlation.started.length := by
          intro place hplace
          obtain ⟨_, hget, -⟩ := hwaiting place hplace
          exact (List.getElem?_eq_some_iff.mp hget).1
        refine ⟨?_, fun place hplace => ?_⟩
        · simp only [List.nodup_append]
          refine ⟨hnodup, by simp, fun place hplace last hlast => ?_⟩
          have := hrange place hplace
          simp only [List.mem_singleton] at hlast
          omega
        · simp only [List.mem_append, List.mem_singleton] at hplace
          rcases hplace with hplace | rfl
          · obtain ⟨start', hget, hstart'⟩ := hwaiting place hplace
            exact ⟨start', hold place start' hget, hstart'⟩
          · exact ⟨start, by simp [Correlation.push], rfl, hopen⟩
    · simp only [Correlation.push, Function.update_of_ne heq] at hpending
      obtain ⟨hnodup, hwaiting⟩ := h.waiting _ _ hpending
      refine ⟨hnodup, fun place hplace => ?_⟩
      obtain ⟨start', hget, hstart'⟩ := hwaiting place hplace
      exact ⟨start', hold place start' hget, hstart'⟩
  · intro tool htool completion hcompletion
    rw [Correlation.push, List.mem_append, List.mem_singleton] at htool
    rcases htool with htool | rfl
    · exact (h.paired tool htool completion hcompletion).imp_right
        (·.trans (List.sublist_append_left _ _))
    · simp [hopen] at hcompletion

theorem join (h : Joined js rows correlation) {toolUseId : String} {invocationId : Option String}
    (hstart : startOf js event = none)
    (hcompletion : completionOf js event = some (toolUseId, invocationId)) :
    Joined js (rows ++ [event]) (correlation.join event toolUseId invocationId) := by
  rcases join_cases correlation event toolUseId invocationId with hsame | hjoin
  · rw [hsame]
    exact h.skip hstart
  obtain ⟨pending, index, place, held, hpending, hplace, hget, hinvocation, hjoin⟩ := hjoin
  obtain ⟨hnodup, hwaiting⟩ := h.waiting _ _ hpending
  obtain ⟨held', hget', hid, hopen⟩ := hwaiting place (List.mem_of_getElem? hplace)
  rw [hget] at hget'
  cases hget'
  obtain ⟨before, start, after, hstarted, rfl, hmodify⟩ := List.exists_of_modify
    (fun start : StartedTool => { start with completion := some event })
    (List.getElem?_eq_some_iff.mp hget).1
  rw [hstarted, List.getElem?_append_right le_rfl] at hget
  simp only [Nat.sub_self, List.getElem?_cons_zero, Option.some.injEq] at hget
  subst hget
  rw [hjoin, hmodify]
  refine ⟨?_, ?_, ?_, ?_⟩
  · have hstarts := h.starts
    rw [hstarted] at hstarts
    rw [List.filterMap_append, ← hstarts]
    simp [StartedTool.opened, hstart]
  · -- the completion is one more than those of before, on both sides
    have hcompletions := h.completions
    simp only [hstarted, List.filterMap_append, List.filterMap_cons, hopen] at hcompletions
    simp only [List.filterMap_append, List.filter_append, List.filter_cons, hcompletion]
    refine List.perm_middle.subperm_right.mpr ?_
    exact (List.perm_append_singleton event _).subperm_left.mpr
      ((List.subperm_cons event).mpr hcompletions)
  · -- the start waits no longer, and the others are as they were
    have hothers : ∀ (other : ℕ) start', other ≠ before.length →
        correlation.started[other]? = some start' →
        (before ++ { start with completion := some event } :: after)[other]? = some start' := by
      intro other start' hne hget
      rw [← hmodify, List.getElem?_modify_ne _ _ hne.symm, hget]
    intro id waiting hid'
    by_cases heq : id = toolUseId
    · subst heq
      simp only [Function.update_self, Option.some.injEq] at hid'
      subst hid'
      refine ⟨hnodup.sublist (List.eraseIdx_sublist _ _), fun other hother => ?_⟩
      rw [List.mem_eraseIdx_iff_getElem?] at hother
      obtain ⟨position, hne, hother⟩ := hother
      obtain ⟨start', hget, hstart'⟩ := hwaiting other (List.mem_of_getElem? hother)
      refine ⟨start', hothers other start' (fun heq => hne ?_) hget, hstart'⟩
      refine (List.getElem?_inj (List.getElem?_eq_some_iff.mp hother).1 hnodup).mp ?_
      rw [hother, heq, hplace]
    · simp only [Function.update_of_ne heq] at hid'
      obtain ⟨hnodup', hwaiting'⟩ := h.waiting _ _ hid'
      refine ⟨hnodup', fun other hother => ?_⟩
      obtain ⟨start', hget, hstart', hnone⟩ := hwaiting' other hother
      refine ⟨start', hothers other start' (fun hplace' => heq ?_) hget, hstart', hnone⟩
      rw [hplace', hstarted] at hget
      simp only [List.getElem?_append_right le_rfl, Nat.sub_self, List.getElem?_cons_zero,
        Option.some.injEq] at hget
      rw [← hstart', ← hget, hid]
  · have hmem : start ∈ correlation.started := by simp [hstarted]
    have hrow : start.event ∈ rows := by
      have hopened : start.opened ∈ rows.filterMap (startOf js) :=
        h.starts ▸ List.mem_map_of_mem hmem
      obtain ⟨row, hrow, hopened⟩ := List.mem_filterMap.mp hopened
      exact (startOf_opened js hopened).1 ▸ hrow
    intro tool htool completion hcompletion'
    by_cases hsame : tool ∈ correlation.started
    · exact (h.paired tool hsame completion hcompletion').imp_right
        (·.trans (List.sublist_append_left _ _))
    · have htool' : tool = { start with completion := some event } := by
        rw [hstarted] at hsame
        simp only [List.mem_append, List.mem_cons] at htool hsame
        tauto
      subst htool'
      cases hcompletion'
      refine ⟨by rw [hcompletion, hid, hinvocation], ?_⟩
      exact (List.singleton_sublist.mpr hrow).append (List.Sublist.refl [event])

/-- **One turn of the sweep keeps it.** -/
theorem sweep (h : Joined js rows correlation) (event : RawTimelineEvent) :
    Joined js (rows ++ [event]) (correlation.sweep js event) := by
  rw [Correlation.sweep]
  cases hstart : startOf js event with
  | some start => exact h.push hstart
  | none =>
    cases hcompletion : completionOf js event with
    | none => exact h.skip hstart
    | some completed => exact h.join hstart hcompletion

theorem foldl (rows : List RawTimelineEvent) :
    Joined js rows (rows.foldl (Correlation.sweep js) ⟨[], fun _ => none⟩) := by
  induction rows using List.reverseRecOn with
  | nil => exact nil
  | append_singleton rows event ih =>
    rw [List.foldl_concat]
    exact ih.sweep event

end Joined

/-- A tool that has its completion keeps it. -/
theorem sweep_kept (h : Joined js rows correlation) {place : ℕ} {tool : StartedTool}
    {completion : RawTimelineEvent} (hget : correlation.started[place]? = some tool)
    (hcompletion : tool.completion = some completion) :
    (correlation.sweep js event).started[place]? = some tool := by
  have hlt := (List.getElem?_eq_some_iff.mp hget).1
  rw [Correlation.sweep]
  cases startOf js event with
  | some start =>
    rw [← hget]
    exact List.getElem?_append_left hlt
  | none =>
    cases completionOf js event with
    | none => exact hget
    | some completed =>
      dsimp only
      rcases join_cases correlation event completed.1 completed.2 with hsame | hjoin
      · rw [hsame, hget]
      · obtain ⟨pending, index, other, start, hpending, hother, hstart, -, hjoin⟩ := hjoin
        obtain ⟨-, hwaiting⟩ := h.waiting _ _ hpending
        obtain ⟨start', hstart', -, hopen⟩ := hwaiting other (List.mem_of_getElem? hother)
        have hne : other ≠ place := by
          rintro rfl
          rw [hget, Option.some.injEq] at hstart'
          simp [← hstart', hcompletion] at hopen
        rw [hjoin, ← hget]
        exact List.getElem?_modify_ne _ _ hne

theorem foldl_kept (before after : List RawTimelineEvent) {place : ℕ} {tool : StartedTool}
    {completion : RawTimelineEvent}
    (hget : (before.foldl (Correlation.sweep js) ⟨[], fun _ => none⟩).started[place]? = some tool)
    (hcompletion : tool.completion = some completion) :
    ((before ++ after).foldl (Correlation.sweep js) ⟨[], fun _ => none⟩).started[place]? =
      some tool := by
  induction after using List.reverseRecOn with
  | nil => simpa using hget
  | append_singleton after event ih =>
    rw [← List.append_assoc, List.foldl_concat]
    exact sweep_kept js (Joined.foldl _) ih hcompletion

end Sweep

/-! ## The latest clear -/

section Clear

variable (js : Runtime) (collation : Collation) {events : List RawTimelineEvent}

/-- The latest clear is a clear after which no other comes, if there is one. -/
theorem latestClearEvent_spec (h : Consistent collation events) :
    match latestClearEvent js collation events with
    | none => ∀ event ∈ events, isClear js event = false
    | some clear => clear ∈ events ∧ isClear js clear = true ∧
        ∀ event ∈ events, isClear js event = true → NotAfter collation event clear := by
  induction events using List.reverseRecOn with
  | nil => simp [latestClearEvent]
  | append_singleton events event ih =>
    have hbefore : ∀ other ∈ events, other ∈ events ++ [event] :=
      fun other hother => List.mem_append_left _ hother
    have hold := ih fun a ha b hb c hc => h a (hbefore a ha) b (hbefore b hb) c (hbefore c hc)
    have hself := (notAfter_total collation event event).elim id id
    rw [latestClearEvent] at hold ⊢
    rw [List.foldl_concat]
    generalize events.foldl _ none = latest at hold ⊢
    by_cases hclear : isClear js event = true
    · cases latest with
      | none =>
        simp only [hclear, Bool.not_true, Bool.false_eq_true, if_false, List.mem_append,
          List.mem_singleton, or_true, true_and]
        rintro other (hother | rfl) hother'
        · simp [hold other hother] at hother'
        · exact hself
      | some held =>
        obtain ⟨hmem, hheld, hlatest⟩ := hold
        simp only [hclear, Bool.not_true, Bool.false_eq_true, if_false]
        by_cases hafter : eventIsAfter collation event held = true
        · have hbehind := (notAfter_total collation held event).resolve_right fun hnot => by
            rw [NotAfter, hafter] at hnot
            cases hnot
          simp only [hafter, if_true, List.mem_append, List.mem_singleton, or_true, hclear,
            true_and]
          rintro other (hother | rfl) hother'
          · exact h other (hbefore other hother) held (hbefore held hmem) event (by simp)
              (hlatest other hother hother') hbehind
          · exact hself
        · rw [if_neg hafter]
          refine ⟨hbefore held hmem, hheld, fun other hother hother' => ?_⟩
          rcases List.mem_append.mp hother with hother | hother
          · exact hlatest other hother hother'
          · rw [List.mem_singleton.mp hother]
            simpa [NotAfter] using hafter
    · rw [Bool.not_eq_true] at hclear
      simp only [hclear]
      cases latest with
      | none =>
        intro other hother
        rcases List.mem_append.mp hother with hother | hother
        · exact hold other hother
        · rw [List.mem_singleton.mp hother, hclear]
      | some held =>
        refine ⟨hbefore held hold.1, hold.2.1, fun other hother hother' => ?_⟩
        rcases List.mem_append.mp hother with hother | hother
        · exact hold.2.2 other hother hother'
        · rw [List.mem_singleton.mp hother, hclear] at hother'
          cases hother'

/-- Without ties there is one latest clear, in whatever order the rows come. -/
theorem latestClearEvent_perm (h : Consistent collation events)
    (hties : ∀ a ∈ events, ∀ b ∈ events, NotAfter collation a b → NotAfter collation b a → a = b)
    {shuffled : List RawTimelineEvent} (hperm : shuffled.Perm events) :
    latestClearEvent js collation shuffled = latestClearEvent js collation events := by
  have hmem : ∀ event ∈ shuffled, event ∈ events := fun event => hperm.mem_iff.mp
  have hleft := latestClearEvent_spec js collation h
  have hright := @latestClearEvent_spec js collation shuffled
    fun a ha b hb c hc => h a (hmem a ha) b (hmem b hb) c (hmem c hc)
  cases hlatest : latestClearEvent js collation events with
  | none =>
    cases hlatest' : latestClearEvent js collation shuffled with
    | none => rfl
    | some clear =>
      rw [hlatest] at hleft
      rw [hlatest'] at hright
      simp [hleft clear (hmem clear hright.1)] at hright
  | some clear =>
    rw [hlatest] at hleft
    cases hlatest' : latestClearEvent js collation shuffled with
    | none =>
      rw [hlatest'] at hright
      simp [hright clear (hperm.mem_iff.mpr hleft.1)] at hleft
    | some clear' =>
      rw [hlatest'] at hright
      rw [hties clear' (hmem clear' hright.1) clear hleft.1
        (hleft.2.2 clear' (hmem clear' hright.1) hright.2.1)
        (hright.2.2 clear (hperm.mem_iff.mpr hleft.1) hleft.2.1)]

end Clear

/-! ## What the join does -/

section Join

variable (js : Runtime) (collation : Collation)

/-- Two rows have different cursors, where they have any, and different timestamps. -/
def ToldApart (left right : RawTimelineEvent) : Prop :=
  (left.rowCursor = none ∨ left.rowCursor ≠ right.rowCursor) ∧
    localeCompare collation left.createdAt right.createdAt ≠ .eq

instance : DecidableRel (ToldApart collation) := fun _ _ => inferInstanceAs (Decidable (_ ∧ _))

/-- **What the join should do.** The comparison is an order; each start is one tool; a completion
goes to one start at most, of its own tool and invocation, that stands before it; a start that has
its completion is not given another one; and rows that can be told apart give the same tools and
the same rows behind the latest clear in whatever order they come. -/
structure Correlates (events : List RawTimelineEvent) : Prop where
  consistent : Consistent collation events
  starts : (correlateToolEvents js collation events).map StartedTool.opened =
    (oldestFirst collation events).filterMap (startOf js)
  completions : ((correlateToolEvents js collation events).filterMap (·.completion)).Subperm
    (events.filter fun event => (completionOf js event).isSome)
  paired : ∀ tool ∈ correlateToolEvents js collation events, ∀ completion,
    tool.completion = some completion →
      completionOf js completion = some (tool.toolUseId, tool.invocationId) ∧
        NotAfter collation tool.event completion ∧
          [tool.event, completion].Sublist (oldestFirst collation events)
  kept : ∀ before after, oldestFirst collation events = before ++ after →
    ∀ (place : ℕ) tool completion,
      (before.foldl (Correlation.sweep js) ⟨[], fun _ => none⟩).started[place]? = some tool →
        tool.completion = some completion →
          (correlateToolEvents js collation events)[place]? = some tool
  settled : events.Pairwise (ToldApart collation) → ∀ shuffled, shuffled.Perm events →
    correlateToolEvents js collation shuffled = correlateToolEvents js collation events ∧
      (eventsAfterLatestClear js collation shuffled).Perm
        (eventsAfterLatestClear js collation events)

variable {collation} {events : List RawTimelineEvent}

theorem oldestFirst_perm : (oldestFirst collation events).Perm events :=
  (List.mergeSort_perm _ _).trans (List.reverse_perm events)

/-- Rows that can be told apart do not tie. -/
theorem eq_of_toldApart (h : events.Pairwise (ToldApart collation)) :
    ∀ a ∈ events, ∀ b ∈ events, NotAfter collation a b → NotAfter collation b a → a = b := by
  have hsymm : Std.Symm fun a b : RawTimelineEvent =>
      NotAfter collation a b → NotAfter collation b a → a = b :=
    ⟨fun a b hab hba hab' => (hab hab' hba).symm⟩
  refine List.Pairwise.forall_of_forall (fun _ _ _ _ => rfl) (h.imp ?_)
  rintro a b ⟨hcursors, hclock⟩ hab hba
  refine absurd ?_ hclock
  have htie : collation.le a.createdAt b.createdAt = true ∧
      collation.le b.createdAt a.createdAt = true := by
    cases ha : a.rowCursor with
    | none =>
      exact ⟨(notAfter_of_live collation (.inl ha)).mp hab,
        (notAfter_of_live collation (.inr ha)).mp hba⟩
    | some l =>
      cases hb : b.rowCursor with
      | none =>
        exact ⟨(notAfter_of_live collation (.inr hb)).mp hab,
          (notAfter_of_live collation (.inl hb)).mp hba⟩
      | some r =>
        rw [notAfter_of_cursors collation ha hb] at hab
        rw [notAfter_of_cursors collation hb ha] at hba
        rw [ha, hb, ne_eq, Option.some.injEq] at hcursors
        simp only [reduceCtorEq, false_or] at hcursors
        omega
  simp [localeCompare, htie]

variable (h : Consistent collation events)
include h

theorem pairwise_oldestFirst : (oldestFirst collation events).Pairwise (NotAfter collation) := by
  have hsorted := @pairwise_mergeSort_of_mem _
    (fun left right => !eventIsAfter collation left right) events.reverse
    (fun a ha b hb c hc hab hbc => by
      rw [Bool.not_eq_true'] at hab hbc ⊢
      exact h a (List.mem_reverse.mp ha) b (List.mem_reverse.mp hb) c (List.mem_reverse.mp hc)
        hab hbc)
    (fun a b => by simpa [NotAfter] using notAfter_total collation a b)
  exact hsorted.imp fun hab => by simpa [NotAfter] using hab

theorem correlates_of_consistent : Correlates js collation events := by
  have hjoined := @Joined.foldl js (oldestFirst collation events)
  refine ⟨h, hjoined.starts, ?_, ?_, ?_, ?_⟩
  · exact (oldestFirst_perm.filter _).subperm_left.mp hjoined.completions
  · intro tool htool completion hcompletion
    obtain ⟨hidentity, hsublist⟩ := hjoined.paired tool htool completion hcompletion
    refine ⟨hidentity, ?_, hsublist⟩
    simpa using (pairwise_oldestFirst h).sublist hsublist
  · intro before after hsplit place tool completion hget hcompletion
    rw [correlateToolEvents, hsplit]
    exact foldl_kept js before after hget hcompletion
  · intro happart shuffled hperm
    have hties := eq_of_toldApart happart
    constructor
    · have hsort : oldestFirst collation shuffled = oldestFirst collation events := by
        have hconsistent : Consistent collation shuffled := fun a ha b hb c hc =>
          h a (hperm.mem_iff.mp ha) b (hperm.mem_iff.mp hb) c (hperm.mem_iff.mp hc)
        refine List.Perm.eq_of_pairwise (fun a b ha hb => ?_) (pairwise_oldestFirst hconsistent)
          (pairwise_oldestFirst h) (oldestFirst_perm.trans (hperm.trans oldestFirst_perm.symm))
        exact hties a (hperm.mem_iff.mp (oldestFirst_perm.mem_iff.mp ha)) b
          (oldestFirst_perm.mem_iff.mp hb)
      rw [correlateToolEvents, correlateToolEvents, hsort]
    · rw [eventsAfterLatestClear, eventsAfterLatestClear,
        latestClearEvent_perm js collation h hties hperm]
      cases latestClearEvent js collation events with
      | none => exact hperm
      | some clear => exact hperm.filter _

omit h

/-- **The join is sound if and only if the clocks agree.** -/
theorem tools_correlate_iff (events : List RawTimelineEvent) :
    Correlates js collation events ↔ ClocksAgree collation events := by
  rw [← consistent_iff]
  exact ⟨fun h => h.consistent, correlates_of_consistent js⟩

/-- A row of `/clear`. -/
def clearRow (id createdAt : String) (rowCursor : Option ℤ) : RawTimelineEvent :=
  ⟨⟨id, "session", "session.cleared", "", .object [], createdAt, rowCursor⟩, none⟩

/-- **A live row between two stored rows whose clocks have gone back.** The comparison goes round
in a circle, and the rows behind the latest clear depend on the order in which the rows come. -/
theorem live_clear_circles :
    let first := clearRow "first" "2026-01-01T00:00:03.000Z" (some 1)
    let second := clearRow "second" "2026-01-01T00:00:01.000Z" (some 2)
    let live := clearRow "live" "2026-01-01T00:00:02.000Z" none
    [first, live, second].Pairwise (ToldApart .codePoints) ∧
      ¬Consistent .codePoints [first, live, second] ∧
        ¬Correlates asciiRuntime .codePoints [first, live, second] ∧
        (eventsAfterLatestClear asciiRuntime .codePoints [first, live, second]).map (·.id) =
            ["live"] ∧
          (eventsAfterLatestClear asciiRuntime .codePoints [live, second, first]).map (·.id) =
            ["second"] := by
  intro first second live
  have hcircle : ¬Consistent .codePoints [first, live, second] := fun h =>
    absurd (h second (by simp) live (by simp) first (by simp) (by decide)
      (by decide)) (by decide)
  exact ⟨by decide, hcircle, fun h => hcircle h.consistent, by decide,
    by decide⟩

end Join

end Argmax.Renderer.SessionConversation
