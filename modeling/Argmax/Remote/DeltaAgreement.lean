import Argmax.Remote.TranscriptPaging
import Argmax.Renderer.BoundedEvents
import Argmax.Renderer.SemanticsAgreement

/-!
# Deltas that the host drops and the renderer prunes

Both sweep the rows of a page from the newest to the oldest. The host judges each delta before a
tool by itself, the renderer judges the deltas of a turn before its last tool as one text. A row
is of the same kind for both (`Mark`) where the renderer can read it, but for some starts of
tools.

## Main results

* `superseded_iff`: what the renderer prunes.
* `dropped_superseded_iff`: when it prunes what the host drops.
* `dropped_not_superseded`: a delta on which they differ.
-/

namespace Argmax.DeltaAgreement

open Argmax.Lib Argmax.Providers Argmax.Persistence.Timeline Argmax.CanonicalTimeline
open Argmax.Remote
open Argmax.Remote.TranscriptTrim (dropSupersededDeltas ascending isSubAgentProse nonBlank
  supersededBy boundaries)
open Argmax.Renderer (Decoder Sweep supersededAnswerDeltaIds isSubAgentProseEcho
  isCompletedPrefixDuplicate)

/-! ## What a row is to a sweep -/

inductive Mark where
  | delta
  | completed
  | tool
  | user
  | other
  deriving DecidableEq

/-- A row after which the deltas before it belong to another turn. -/
def Mark.hard : Mark → Bool
  | .completed | .user => true
  | _ => false

def hostMark (event : TimelineEvent) : Mark :=
  if !TranscriptTrim.isObject event.payload || isSubAgentProse event then .other
  else
    match event.type with
    | "message.delta" =>
      if event.payload.get "thinking" = some (.bool true) then .other else .delta
    | "message.completed" => .completed
    | "command.started" =>
      if (nonBlank (event.payload.get "parent_tool_use_id")).isSome then .other else .tool
    | "user.message" =>
      if (event.payload.get "delivery").bind Json.asStr = some "steer" then .other else .user
    | _ => .other

def rendererMark (decode : Decoder) (event : TimelineEvent) : Mark :=
  if isSubAgentProseEcho decode event then .other
  else
    match (decode event).kind with
    | .message _ _ .delta content _ => if content = .answer then .delta else .other
    | .message .assistant _ .completed _ _ => .completed
    | .message .user steer .completed _ _ => if steer then .other else .user
    | .tool .started => if (decode event).parentToolUseId.isSome then .other else .tool
    | _ => .other

/-- The rows of one session are marked, the others pass. -/
def markIn (mark : TimelineEvent → Mark) (session : String) (event : TimelineEvent) : Mark :=
  if event.sessionId = session then mark event else .other

/-! ## Boundaries -/

/-- The closest boundary, once a row is swept. -/
def Mark.advance (mark : Mark) (message : String) (previous : Option TranscriptTrim.TurnBoundary) :
    Option TranscriptTrim.TurnBoundary :=
  match mark with
  | .completed => some (.completed message)
  | .tool =>
    match previous with
    | some (.completed completedText) => some (.tool completedText)
    | _ => previous
  | .user => some .user
  | .delta | .other => previous

/-- The closest boundary after a position. -/
def boundary (mark : TimelineEvent → Mark) : List TimelineEvent → Option TranscriptTrim.TurnBoundary
  | [] => none
  | event :: rows => (mark event).advance event.message (boundary mark rows)

/-- The renderer's own boundary. -/
def lift : TranscriptTrim.TurnBoundary → Renderer.TurnBoundary
  | .completed completedText => .completed completedText
  | .tool completedText => .tool (some completedText)
  | .user => .user

/-- The test of the host: one delta begins the answer. -/
def hostDuplicate (delta completedText : String) : Bool :=
  let delta := Text.trim delta.toList
  decide (3 ≤ Text.byteLength delta) && delta.isPrefixOf (Text.trim completedText.toList)

variable {event : TimelineEvent} {id completedText : String}

/-! ## The sweep of the host -/

section Host

variable {rows later : List TimelineEvent} {event : TimelineEvent} {session : String}

/-- The boundary that a row leaves, made or kept. -/
theorem advance_eq (event : TimelineEvent) (known : String → Option TranscriptTrim.TurnBoundary)
    (session : String) : TranscriptTrim.advance event known session =
      (markIn hostMark session event).advance event.message (known session) := by
  unfold TranscriptTrim.advance markIn
  by_cases hsession : event.sessionId = session
  · subst hsession
    unfold hostMark TranscriptTrim.advanceTurnBoundary
    by_cases hskip : (!TranscriptTrim.isObject event.payload || isSubAgentProse event) = true
    · simp [hskip, Mark.advance]
    · rw [Bool.not_eq_true] at hskip
      by_cases hdelta : event.type = "message.delta"
      · simp only [hskip, hdelta, beq_self_eq_true, Bool.or_true, if_true, Bool.false_eq_true,
          if_false]
        split <;> rfl
      by_cases hcompleted : event.type = "message.completed"
      · simp [hskip, hcompleted, Mark.advance]
      by_cases hstarted : event.type = "command.started"
      · by_cases hparent : (nonBlank (event.payload.get "parent_tool_use_id")).isSome = true
        · simp [hstarted, hparent, Mark.advance]
        · simp only [hskip, hstarted, hparent, Mark.advance]
          rcases hknown : known event.sessionId with _ | _ | _ | _ <;> simp [hknown]
      by_cases huser : event.type = "user.message"
      · by_cases hsteer : (event.payload.get "delivery").bind Json.asStr = some "steer" <;>
          simp [hskip, huser, hsteer, Mark.advance]
      · simp [Mark.advance]
  · rw [if_neg hsession]
    split
    · rfl
    · cases TranscriptTrim.advanceTurnBoundary (known event.sessionId) event with
      | none => rfl
      | some advanced => simp [Ne.symm hsession, Mark.advance]

theorem boundaries_eq (rows : List TimelineEvent) (session : String) :
    boundaries rows session = boundary (markIn hostMark session) rows := by
  induction rows with
  | nil => rfl
  | cons event rows ih =>
    rw [boundary, ← ih]
    exact advance_eq event (boundaries rows) session

theorem hostMark_eq_delta : hostMark event = .delta ↔
    TranscriptTrim.isObject event.payload = true ∧ isSubAgentProse event = false ∧
      event.type = "message.delta" ∧ event.payload.get "thinking" ≠ some (.bool true) := by
  unfold hostMark
  cases TranscriptTrim.isObject event.payload with
  | false => simp
  | true => cases isSubAgentProse event with
    | true => simp
    | false =>
      simp only [Bool.not_true, Bool.or_self, Bool.false_eq_true, if_false]
      by_cases hdelta : event.type = "message.delta"
      · simp [hdelta]
      · simp only [hdelta]
        split <;> (try split) <;> simp_all

/-- **What the host drops.** -/
theorem supersededBy_iff : supersededBy later event = true ↔
    hostMark event = .delta ∧
      ((∃ completedText, boundary (markIn hostMark event.sessionId) later =
          some (.completed completedText)) ∨
        ∃ completedText, boundary (markIn hostMark event.sessionId) later =
          some (.tool completedText) ∧ hostDuplicate event.message completedText = true) := by
  rw [hostMark_eq_delta, supersededBy, boundaries_eq]
  simp only [Bool.and_eq_true, and_assoc]
  unfold TranscriptTrim.isSupersededAnswerDelta
  by_cases hthinking : event.payload.get "thinking" = some (.bool true)
  · simp [hthinking]
  · rw [if_neg hthinking]
    rcases boundary (markIn hostMark event.sessionId) later with _ | _ | _ | _ <;>
      simp [hthinking, hostDuplicate]

theorem split_cons {α : Type*} {P : List α → α → Prop} {first : α} {rows : List α} :
    (∃ before row later, first :: rows = before ++ row :: later ∧ P later row) ↔
      P rows first ∨ ∃ before row later, rows = before ++ row :: later ∧ P later row := by
  constructor
  · rintro ⟨before, row, later, heq, hrow⟩
    cases before with
    | nil =>
      obtain ⟨rfl, rfl⟩ := List.cons.inj heq
      exact .inl hrow
    | cons first' before =>
      obtain ⟨rfl, rfl⟩ := List.cons.inj heq
      exact .inr ⟨before, row, later, rfl, hrow⟩
  · rintro (hfirst | ⟨before, row, later, rfl, hrow⟩)
    · exact ⟨[], first, rows, rfl, hfirst⟩
    · exact ⟨first :: before, row, later, rfl, hrow⟩

/-- The places that the sweep of any rows supersedes. -/
theorem foldr_visit_places (rows : List (TimelineEvent × ℕ)) :
    (rows.foldr TranscriptTrim.Sweep.visit ⟨fun _ => none, []⟩).nextBoundary =
        boundaries (rows.map Prod.fst) ∧
      ∀ place, place ∈ (rows.foldr TranscriptTrim.Sweep.visit ⟨fun _ => none, []⟩).superseded ↔
        ∃ before row later, rows = before ++ row :: later ∧
          supersededBy (later.map Prod.fst) row.1 = true ∧ row.2 = place := by
  induction rows with
  | nil => simp [boundaries]
  | cons row rows ih =>
    obtain ⟨hbounds, hplaces⟩ := ih
    obtain ⟨event, index⟩ := row
    rw [List.foldr_cons, TranscriptTrim.visit_eq, hbounds]
    refine ⟨rfl, fun place => ?_⟩
    rw [split_cons, ← hplaces place]
    change place ∈ (if supersededBy (rows.map Prod.fst) event = true then _ else _) ↔ _
    by_cases hsuper : supersededBy (rows.map Prod.fst) event = true
    · simp [hsuper, eq_comm]
    · simp [hsuper]

theorem mem_ascending {page : List TimelineEvent} {place : ℕ} :
    (event, place) ∈ ascending page ↔ page[place]? = some event := by
  rw [ascending, List.mem_mergeSort, List.mem_zipIdx_iff_getElem?]

/-- **The rows that the host drops** are the superseded ones, in the order of the sweep. -/
theorem not_mem_drop_iff {page : List TimelineEvent} (hnodup : page.Nodup) (hmem : event ∈ page) :
    event ∉ dropSupersededDeltas page ↔
      ∃ before later, (ascending page).map Prod.fst = before ++ event :: later ∧
        supersededBy later event = true := by
  have hplaces := (foldr_visit_places (ascending page)).2
  set swept := (ascending page).foldr TranscriptTrim.Sweep.visit ⟨fun _ => none, []⟩ with hswept
  have hdrop : event ∈ dropSupersededDeltas page ↔
      ∃ place, page[place]? = some event ∧ place ∉ swept.superseded := by
    simp [dropSupersededDeltas, ← hswept, List.mem_zipIdx_iff_getElem?]
  have hsame : ∀ {place place' : ℕ}, page[place]? = some event → page[place']? = some event →
      place = place' := by
    intro place place' hplace hplace'
    obtain ⟨hlt, hget⟩ := List.getElem?_eq_some_iff.mp hplace
    obtain ⟨hlt', hget'⟩ := List.getElem?_eq_some_iff.mp hplace'
    exact (hnodup.getElem_inj_iff).mp (hget.trans hget'.symm)
  obtain ⟨place, hplace⟩ := List.mem_iff_getElem?.mp hmem
  have hsuper : event ∉ dropSupersededDeltas page ↔ place ∈ swept.superseded := by
    rw [hdrop]
    constructor
    · intro hnot
      by_contra hplaceNot
      exact hnot ⟨place, hplace, hplaceNot⟩
    · rintro hin ⟨place', hplace', hnot⟩
      exact hnot (hsame hplace hplace' ▸ hin)
  rw [hsuper, hplaces]
  constructor
  · rintro ⟨before, row, later, heq, hrow, rfl⟩
    have hrowMem : (row.1, row.2) ∈ ascending page := by simp [heq]
    have hevent : row.1 = event := by
      have hget := mem_ascending.mp hrowMem
      rw [hplace] at hget
      exact (Option.some.inj hget).symm
    exact ⟨before.map Prod.fst, later.map Prod.fst, by simp [heq, hevent], hevent ▸ hrow⟩
  · rintro ⟨before, later, heq, hrow⟩
    obtain ⟨before', rest, hrows, -, hrest⟩ := List.map_eq_append_iff.mp heq
    obtain ⟨row, later', rfl, hfirst, rfl⟩ := List.map_eq_cons_iff.mp hrest
    refine ⟨before', row, later', hrows, hfirst ▸ hrow, ?_⟩
    have hrowMem : (row.1, row.2) ∈ ascending page := by simp [hrows]
    have hget := mem_ascending.mp hrowMem
    rw [hfirst] at hget
    exact hsame hget hplace

end Host

/-! ## The sweep of the renderer -/

section Renderer

variable {decode : Decoder} {event : TimelineEvent} {sweep : Sweep} {session : String}

/-- A boundary settles the run before it. -/
def bound (sweep : Sweep) (session : String) (boundary : Renderer.TurnBoundary) : Sweep :=
  { sweep.settleRun session with
    nextBoundary := fun other =>
      if other = session then some boundary else sweep.nextBoundary other }

theorem visit_eq (decode : Decoder) (event : TimelineEvent) (sweep : Sweep) :
    sweep.visit decode event =
      match rendererMark decode event with
      | .other => sweep
      | .delta => sweep.collect event
      | .completed => bound sweep event.sessionId (.completed event.message)
      | .user => bound sweep event.sessionId .user
      | .tool =>
        match sweep.nextBoundary event.sessionId with
        | some (.completed completedText) =>
          bound sweep event.sessionId (.tool (some completedText))
        | _ => sweep := by
  unfold rendererMark Sweep.visit Sweep.advance Renderer.advanceTurnBoundary isSubAgentProseEcho
    bound
  cases (decode event).kind with
  | other => rfl
  | tool phase =>
    cases phase with
    | started =>
      cases (decode event).parentToolUseId with
      | some parent => rfl
      | none =>
        rcases sweep.nextBoundary event.sessionId with _ | _ | _ | _ <;>
          simp [Renderer.nextBoundary_settleRun]
    | output => rfl
    | completed => rfl
  | message role steer phase content childProse =>
    cases childProse with
    | true => rfl
    | false =>
      cases phase with
      | delta => cases content <;> simp
      | completed =>
        cases role with
        | assistant => simp [Renderer.nextBoundary_settleRun]
        | user => cases steer <;> simp [Renderer.nextBoundary_settleRun]

@[simp] theorem nextBoundary_collect : (sweep.collect event).nextBoundary = sweep.nextBoundary := by
  unfold Sweep.collect
  split <;> rfl

theorem nextBoundary_visit {previous : Option TranscriptTrim.TurnBoundary}
    (hprevious : sweep.nextBoundary session = previous.map lift) :
    (sweep.visit decode event).nextBoundary session =
      ((markIn (rendererMark decode) session event).advance event.message previous).map lift := by
  rw [visit_eq]
  unfold markIn
  by_cases hsession : event.sessionId = session
  · subst hsession
    cases rendererMark decode event with
    | tool => rcases previous with _ | _ | _ | _ <;> simp [Mark.advance, lift, bound, hprevious]
    | _ => simp [Mark.advance, lift, bound, hprevious]
  · have hne : session ≠ event.sessionId := Ne.symm hsession
    rw [if_neg hsession]
    cases rendererMark decode event with
    | tool =>
      rcases sweep.nextBoundary event.sessionId with _ | _ | _ | _ <;>
        simp [Mark.advance, bound, hprevious, hne]
    | _ => simp [Mark.advance, bound, hprevious, hne]

/-- The sweep of rows, before the runs that are open are settled. -/
def swept (decode : Decoder) (rows : List TimelineEvent) : Sweep :=
  rows.foldr (Sweep.visit decode) .start

theorem nextBoundary_swept (decode : Decoder) (rows : List TimelineEvent) (session : String) :
    (swept decode rows).nextBoundary session =
      (boundary (markIn (rendererMark decode) session) rows).map lift := by
  induction rows with
  | nil => rfl
  | cons event rows ih => exact nextBoundary_visit ih

/-! ### Where an id is -/

/-- An id that a step adds to a run is that of its row. -/
theorem mem_runs_visit {run : Renderer.Run}
    (hrun : (sweep.visit decode event).runs session = some run) (hid : id ∈ run.ids) :
    (∃ old, sweep.runs session = some old ∧ id ∈ old.ids) ∨
      (id = event.id ∧ session = event.sessionId) := by
  have hbound : ∀ other, (bound sweep event.sessionId other).runs session = some run →
      ∃ old, sweep.runs session = some old ∧ id ∈ old.ids := by
    intro other hbound
    have hsettled : (sweep.settleRun event.sessionId).runs session = some run := hbound
    rw [Renderer.runs_settleRun] at hsettled
    split at hsettled
    · cases hsettled
    · exact ⟨run, hsettled, hid⟩
  rw [visit_eq] at hrun
  split at hrun
  · exact .inl ⟨run, hrun, hid⟩
  · unfold Sweep.collect at hrun
    split at hrun
    · exact .inl ⟨run, hrun, hid⟩
    · dsimp only at hrun
      split at hrun
      · rename_i hsession
        cases hrun
        rcases List.mem_append.mp hid with hold | hnew
        · subst hsession
          cases hruns : sweep.runs event.sessionId with
          | none => simp [hruns] at hold
          | some old => exact .inl ⟨old, rfl, by simpa [hruns] using hold⟩
        · exact .inr ⟨List.mem_singleton.mp hnew, hsession⟩
      · exact .inl ⟨run, hrun, hid⟩
    · exact .inl ⟨run, hrun, hid⟩
  · exact .inl (hbound _ hrun)
  · exact .inl (hbound _ hrun)
  · split at hrun
    · exact .inl (hbound _ hrun)
    · exact .inl ⟨run, hrun, hid⟩

/-- An id that settling a run supersedes is in it. -/
theorem mem_superseded_settleRun :
    id ∈ (sweep.settleRun session).superseded ↔ id ∈ sweep.superseded ∨
      ∃ run, sweep.runs session = some run ∧ id ∈ run.ids ∧
        isCompletedPrefixDuplicate (String.join run.fragments.reverse) run.completedText = true := by
  unfold Sweep.settleRun
  cases hrun : sweep.runs session with
  | none => simp
  | some run =>
    dsimp only
    split <;> simp_all

theorem mem_superseded_visit (hid : id ∈ (sweep.visit decode event).superseded) :
    id ∈ sweep.superseded ∨ id = event.id ∨
      ∃ run, sweep.runs event.sessionId = some run ∧ id ∈ run.ids := by
  have hbound : ∀ other, id ∈ (bound sweep event.sessionId other).superseded →
      id ∈ sweep.superseded ∨ id = event.id ∨
        ∃ run, sweep.runs event.sessionId = some run ∧ id ∈ run.ids := by
    intro other hbound
    rcases mem_superseded_settleRun.mp hbound with hold | ⟨run, hrun, hmem, -⟩
    · exact .inl hold
    · exact .inr (.inr ⟨run, hrun, hmem⟩)
  rw [visit_eq] at hid
  split at hid
  · exact .inl hid
  · unfold Sweep.collect at hid
    split at hid
    · rcases List.mem_append.mp hid with hold | hnew
      · exact .inl hold
      · exact .inr (.inl (List.mem_singleton.mp hnew))
    · exact .inl hid
    · exact .inl hid
  · exact hbound _ hid
  · exact hbound _ hid
  · split at hid
    · exact hbound _ hid
    · exact .inl hid

/-- What is superseded stays so. -/
theorem superseded_visit (hid : id ∈ sweep.superseded) :
    id ∈ (sweep.visit decode event).superseded := by
  have hbound : ∀ other, id ∈ (bound sweep event.sessionId other).superseded := fun _ =>
    Renderer.superseded_settleRun sweep event.sessionId id hid
  rw [visit_eq]
  split
  · exact hid
  · unfold Sweep.collect
    split
    · exact List.mem_append_left _ hid
    · exact hid
    · exact hid
  · exact hbound _
  · exact hbound _
  · split
    · exact hbound _
    · exact hid

theorem superseded_foldr (hid : id ∈ sweep.superseded) (rows : List TimelineEvent) :
    id ∈ (rows.foldr (Sweep.visit decode) sweep).superseded := by
  induction rows with
  | nil => exact hid
  | cons event rows ih => exact superseded_visit ih

/-- The sweep does not know an id but in the run of one session. -/
structure OnlyIn (id session : String) (sweep : Sweep) : Prop where
  superseded : id ∉ sweep.superseded
  runs : ∀ other run, sweep.runs other = some run → id ∈ run.ids → other = session

/-- The sweep does not know an id. -/
structure Absent (id : String) (sweep : Sweep) : Prop where
  superseded : id ∉ sweep.superseded
  runs : ∀ session run, sweep.runs session = some run → id ∉ run.ids

theorem Absent.visit (h : Absent id sweep) (hne : event.id ≠ id) :
    Absent id (sweep.visit decode event) where
  superseded := by
    intro hid
    rcases mem_superseded_visit hid with hold | heq | ⟨run, hrun, hmem⟩
    · exact h.superseded hold
    · exact hne heq.symm
    · exact h.runs _ run hrun hmem
  runs := by
    intro session run hrun hid
    rcases mem_runs_visit hrun hid with ⟨old, hold, hmem⟩ | ⟨heq, -⟩
    · exact h.runs session old hold hmem
    · exact hne heq.symm

theorem Absent.foldr {id : String} (h : Absent id sweep) {rows : List TimelineEvent}
    (hne : ∀ row ∈ rows, row.id ≠ id) : Absent id (rows.foldr (Sweep.visit decode) sweep) := by
  induction rows with
  | nil => exact h
  | cons event rows ih =>
    obtain ⟨hevent, hrows⟩ := List.forall_mem_cons.mp hne
    exact (ih hrows).visit hevent

theorem absent_start (id : String) : Absent id .start :=
  ⟨by simp [Sweep.start], by simp [Sweep.start]⟩

/-- The runs that are open at the end are settled. -/
theorem mem_settled (rows : List TimelineEvent) :
    id ∈ (rows.foldl (fun sweep event => sweep.settleRun event.sessionId) sweep).superseded ↔
      id ∈ sweep.superseded ∨ ∃ row ∈ rows, ∃ run, sweep.runs row.sessionId = some run ∧
        id ∈ run.ids ∧ isCompletedPrefixDuplicate (String.join run.fragments.reverse)
          run.completedText = true := by
  induction rows generalizing sweep with
  | nil => simp
  | cons event rows ih =>
    rw [List.foldl_cons, ih, mem_superseded_settleRun]
    constructor
    · rintro ((hold | ⟨run, hrun⟩) | ⟨row, hrow, run, hrun, hmem⟩)
      · exact .inl hold
      · exact .inr ⟨event, List.mem_cons_self, run, hrun⟩
      · rw [Renderer.runs_settleRun] at hrun
        split at hrun
        · cases hrun
        · exact .inr ⟨row, List.mem_cons_of_mem _ hrow, run, hrun, hmem⟩
    · rintro (hold | ⟨row, hrow, run, hrun, hmem⟩)
      · exact .inl (.inl hold)
      · by_cases hsession : row.sessionId = event.sessionId
        · exact .inl (.inr ⟨run, hsession ▸ hrun, hmem⟩)
        · rcases List.mem_cons.mp hrow with rfl | hrow
          · exact absurd rfl hsession
          · refine .inr ⟨row, hrow, run, ?_, hmem⟩
            rw [Renderer.runs_settleRun, if_neg hsession]
            exact hrun

/-! ### A narration -/

/-- The run of the deltas of a narration, which the sweep meets from the last on. -/
def narrationRun (completedText : String) (deltas : List TimelineEvent) : Option Renderer.Run :=
  if deltas = [] then none
  else
    some ⟨completedText, (deltas.map TimelineEvent.id).reverse,
      (deltas.map TimelineEvent.message).reverse⟩

/-- The answer deltas among the rows. -/
def deltas (mark : TimelineEvent → Mark) (rows : List TimelineEvent) : List TimelineEvent :=
  rows.filter fun row => mark row == .delta

theorem runs_visit_of_ne (hsession : event.sessionId ≠ session) :
    (sweep.visit decode event).runs session = sweep.runs session := by
  have hne : session ≠ event.sessionId := Ne.symm hsession
  have hbound : ∀ other, (bound sweep event.sessionId other).runs session = sweep.runs session := by
    intro other
    exact (Renderer.runs_settleRun sweep event.sessionId session).trans (if_neg hne)
  rw [visit_eq]
  split
  · rfl
  · unfold Sweep.collect
    split
    · rfl
    · exact if_neg hne
    · rfl
  · exact hbound _
  · exact hbound _
  · split
    · exact hbound _
    · rfl

/-- The row of another session leaves an id where it is. -/
theorem OnlyIn.visit_of_ne (h : OnlyIn id session sweep) (hsession : event.sessionId ≠ session)
    (hne : event.id ≠ id) :
    OnlyIn id session (sweep.visit decode event) where
  superseded := by
    intro hid
    rcases mem_superseded_visit hid with hold | heq | ⟨run, hrun, hmem⟩
    · exact h.superseded hold
    · exact hne heq.symm
    · exact hsession (h.runs _ run hrun hmem)
  runs := by
    intro other run hrun hid
    rcases mem_runs_visit hrun hid with ⟨old, hold, hmem⟩ | ⟨heq, -⟩
    · exact h.runs other old hold hmem
    · exact absurd heq.symm hne

theorem narrationRun_cons (completedText : String) (event : TimelineEvent)
    (later : List TimelineEvent) : narrationRun completedText (event :: later) =
      some ⟨completedText,
        ((narrationRun completedText later).getD ⟨completedText, [], []⟩).ids ++ [event.id],
        ((narrationRun completedText later).getD ⟨completedText, [], []⟩).fragments ++
          [event.message]⟩ := by
  unfold narrationRun
  cases later <;> simp

theorem completedText_narrationRun (completedText : String) (later : List TimelineEvent) :
    ((narrationRun completedText later).getD ⟨completedText, [], []⟩).completedText =
      completedText := by
  unfold narrationRun
  split <;> rfl

/-- A row that is no boundary, where a tool has separated the answer from it. -/
theorem visit_quiet {later : List TimelineEvent}
    (hbound : sweep.nextBoundary session = some (.tool (some completedText)))
    (hquiet : (markIn (rendererMark decode) session event).hard = false)
    (hrun : sweep.runs session = narrationRun completedText
      (deltas (markIn (rendererMark decode) session) later)) :
    (sweep.visit decode event).nextBoundary session = some (.tool (some completedText)) ∧
      (sweep.visit decode event).runs session = narrationRun completedText
        (deltas (markIn (rendererMark decode) session) (event :: later)) ∧
      ∀ id, OnlyIn id session sweep → (event.sessionId ≠ session → event.id ≠ id) →
        OnlyIn id session (sweep.visit decode event) := by
  by_cases hsession : event.sessionId = session
  · have hmarkIn : markIn (rendererMark decode) session event = rendererMark decode event :=
      if_pos hsession
    subst hsession
    rw [hmarkIn] at hquiet
    by_cases hdelta : rendererMark decode event = .delta
    · have hdeltas : deltas (markIn (rendererMark decode) event.sessionId) (event :: later) =
          event :: deltas (markIn (rendererMark decode) event.sessionId) later := by
        simp [deltas, hmarkIn, hdelta]
      have hvisit : sweep.visit decode event = sweep.collect event := by
        rw [visit_eq, hdelta]
      rw [hvisit, hdeltas, narrationRun_cons, nextBoundary_collect]
      refine ⟨hbound, ?_, fun id h _ => ?_⟩
      · simp [Sweep.collect, hbound, hrun, completedText_narrationRun]
      · refine ⟨?_, fun other run hother hid => ?_⟩
        · simpa [Sweep.collect, hbound] using h.superseded
        · by_contra hne
          refine hne (h.runs other run ?_ hid)
          simpa [Sweep.collect, hbound, hne] using hother
    · have hdeltas : deltas (markIn (rendererMark decode) event.sessionId) (event :: later) =
          deltas (markIn (rendererMark decode) event.sessionId) later := by
        simp [deltas, hmarkIn, hdelta]
      have hvisit : sweep.visit decode event = sweep := by
        rw [visit_eq]
        cases hmark : rendererMark decode event with
        | delta => exact absurd hmark hdelta
        | tool => simp [hbound]
        | other => rfl
        | completed => simp [hmark, Mark.hard] at hquiet
        | user => simp [hmark, Mark.hard] at hquiet
      rw [hvisit, hdeltas]
      exact ⟨hbound, hrun, fun _ h _ => h⟩
  · have hmarkIn : markIn (rendererMark decode) session event = .other := if_neg hsession
    have hdeltas : deltas (markIn (rendererMark decode) session) (event :: later) =
        deltas (markIn (rendererMark decode) session) later := by
      simp [deltas, hmarkIn]
    rw [hdeltas, runs_visit_of_ne hsession]
    refine ⟨?_, hrun, fun id h hne => h.visit_of_ne hsession (hne hsession)⟩
    have hnext := @nextBoundary_visit decode event sweep session (some (.tool completedText)) hbound
    rw [hnext, hmarkIn]
    rfl

theorem foldr_quiet {narration : List TimelineEvent}
    (hbound : sweep.nextBoundary session = some (.tool (some completedText)))
    (hquiet : ∀ row ∈ narration, (markIn (rendererMark decode) session row).hard = false)
    (hrun : sweep.runs session = none) :
    (narration.foldr (Sweep.visit decode) sweep).nextBoundary session =
        some (.tool (some completedText)) ∧
      (narration.foldr (Sweep.visit decode) sweep).runs session = narrationRun completedText
        (deltas (markIn (rendererMark decode) session) narration) ∧
      ∀ id, OnlyIn id session sweep →
        (∀ row ∈ narration, row.sessionId ≠ session → row.id ≠ id) →
          OnlyIn id session (narration.foldr (Sweep.visit decode) sweep) := by
  induction narration with
  | nil => exact ⟨hbound, hrun, fun _ h _ => h⟩
  | cons event later ih =>
    obtain ⟨hevent, hlater⟩ := List.forall_mem_cons.mp hquiet
    obtain ⟨hbound', hrun', honly⟩ := ih hlater
    obtain ⟨hbound'', hrun'', honly'⟩ := visit_quiet hbound' hevent hrun'
    refine ⟨hbound'', hrun'', fun id h hne => ?_⟩
    obtain ⟨hfirst, hrest⟩ := List.forall_mem_cons.mp hne
    exact honly' id (honly id h hrest) hfirst

end Renderer

/-! ## Narrations -/

/-- The rows of a turn before its last tool, and its answer. -/
structure Narration (mark : TimelineEvent → Mark) (rows narration : List TimelineEvent)
    (answer : TimelineEvent) : Prop where
  turn : ∃ before tool between after,
    rows = before ++ (narration ++ tool :: (between ++ answer :: after)) ∧
      (∀ last ∈ before.getLast?, (mark last).hard = true) ∧ mark tool = .tool ∧
        ∀ row ∈ between, mark row ≠ .tool ∧ (mark row).hard = false
  quiet : ∀ row ∈ narration, (mark row).hard = false
  answered : mark answer = .completed

/-- A narration whose answer begins with one of its deltas is, as a whole, in the answer. -/
def RunsWhole (mark : TimelineEvent → Mark) (rows : List TimelineEvent) : Prop :=
  ∀ narration answer, Narration mark rows narration answer → ∀ delta ∈ narration,
    mark delta = .delta → hostDuplicate delta.message answer.message = true →
      isCompletedPrefixDuplicate (String.join ((deltas mark narration).map TimelineEvent.message))
        answer.message = true

section Narrations

variable {mark : TimelineEvent → Mark} {rows narration : List TimelineEvent}
  {answer : TimelineEvent}

theorem boundary_quiet (hbound : boundary mark rows = some (.tool completedText))
    (hquiet : ∀ row ∈ narration, (mark row).hard = false) :
    boundary mark (narration ++ rows) = some (.tool completedText) := by
  induction narration with
  | nil => exact hbound
  | cons event later ih =>
    obtain ⟨hevent, hlater⟩ := List.forall_mem_cons.mp hquiet
    rw [List.cons_append, boundary]
    cases hmark : mark event <;> simp_all [Mark.advance, Mark.hard]

theorem boundary_between {between after : List TimelineEvent} (hanswer : mark answer = .completed)
    (hbetween : ∀ row ∈ between, mark row ≠ .tool ∧ (mark row).hard = false) :
    boundary mark (between ++ answer :: after) = some (.completed answer.message) := by
  induction between with
  | nil => simp [boundary, hanswer, Mark.advance]
  | cons event later ih =>
    obtain ⟨hevent, hlater⟩ := List.forall_mem_cons.mp hbetween
    rw [List.cons_append, boundary]
    cases hmark : mark event <;> simp_all [Mark.advance, Mark.hard]

/-- Rows that an answer is the closest boundary of. -/
theorem exists_of_completed (h : boundary mark rows = some (.completed completedText)) :
    ∃ between answer after, rows = between ++ answer :: after ∧ mark answer = .completed ∧
      answer.message = completedText ∧
        ∀ row ∈ between, mark row ≠ .tool ∧ (mark row).hard = false := by
  induction rows with
  | nil => cases h
  | cons event rows ih =>
    rw [boundary] at h
    cases hmark : mark event with
    | completed =>
      rw [hmark] at h
      injection h with h
      injection h with h
      exact ⟨[], event, rows, rfl, hmark, h, by simp⟩
    | user =>
      rw [hmark] at h
      simp [Mark.advance] at h
    | tool =>
      rw [hmark] at h
      rcases hrest : boundary mark rows with _ | _ | _ | _ <;> simp [Mark.advance, hrest] at h
    | delta | other =>
      rw [hmark] at h
      obtain ⟨between, answer, after, rfl, hanswer, hmessage, hbetween⟩ := ih h
      refine ⟨event :: between, answer, after, rfl, hanswer, hmessage, ?_⟩
      exact List.forall_mem_cons.mpr ⟨by simp [hmark, Mark.hard], hbetween⟩

/-- Rows that a tool separates from their answer. -/
theorem exists_of_tool (h : boundary mark rows = some (.tool completedText)) :
    ∃ narration tool between answer after,
      rows = narration ++ tool :: (between ++ answer :: after) ∧
        (∀ row ∈ narration, (mark row).hard = false) ∧ mark tool = .tool ∧
          (∀ row ∈ between, mark row ≠ .tool ∧ (mark row).hard = false) ∧
            mark answer = .completed ∧ answer.message = completedText := by
  induction rows with
  | nil => cases h
  | cons event rows ih =>
    rw [boundary] at h
    have hrest : boundary mark rows = some (.tool completedText) →
        (mark event).hard = false → ∃ narration tool between answer after,
          event :: rows = narration ++ tool :: (between ++ answer :: after) ∧
            (∀ row ∈ narration, (mark row).hard = false) ∧ mark tool = .tool ∧
              (∀ row ∈ between, mark row ≠ .tool ∧ (mark row).hard = false) ∧
                mark answer = .completed ∧ answer.message = completedText := by
      intro hbound hevent
      obtain ⟨narration, tool, between, answer, after, rfl, hquiet, hturn⟩ := ih hbound
      exact ⟨event :: narration, tool, between, answer, after, rfl,
        List.forall_mem_cons.mpr ⟨hevent, hquiet⟩, hturn⟩
    cases hmark : mark event with
    | completed | user =>
      rw [hmark] at h
      simp [Mark.advance] at h
    | delta | other =>
      rw [hmark] at h
      exact hrest h (by simp [hmark, Mark.hard])
    | tool =>
      rw [hmark] at h
      rcases hbound : boundary mark rows with _ | text | text | _
      · simp [Mark.advance, hbound] at h
      · obtain ⟨between, answer, after, rfl, hanswer, hmessage, hbetween⟩ :=
          exists_of_completed hbound
        simp only [Mark.advance, hbound, Option.some.injEq,
          TranscriptTrim.TurnBoundary.tool.injEq] at h
        exact ⟨[], event, between, answer, after, rfl, by simp, hmark, hbetween, hanswer,
          hmessage.trans h⟩
      · simp only [hbound] at h
        exact hrest (hbound.trans h) (by simp [hmark, Mark.hard])
      · simp [Mark.advance, hbound] at h

/-- Rows cut behind their last boundary. -/
theorem exists_cut (mark : TimelineEvent → Mark) (rows : List TimelineEvent) :
    ∃ before quiet, rows = before ++ quiet ∧
      (∀ last ∈ before.getLast?, (mark last).hard = true) ∧
        ∀ row ∈ quiet, (mark row).hard = false := by
  induction rows using List.reverseRecOn with
  | nil => exact ⟨[], [], rfl, by simp, by simp⟩
  | append_singleton rows event ih =>
    cases hevent : (mark event).hard with
    | true => exact ⟨rows ++ [event], [], by simp, by simpa using hevent, by simp⟩
    | false =>
      obtain ⟨before, quiet, rfl, hlast, hquiet⟩ := ih
      refine ⟨before, quiet ++ [event], by simp, hlast, fun row hrow => ?_⟩
      rcases List.mem_append.mp hrow with hrow | hrow
      · exact hquiet row hrow
      · rw [List.mem_singleton.mp hrow]
        exact hevent

/-- A delta that a tool separates from its answer is in a narration. -/
theorem exists_narration {before later : List TimelineEvent} {delta : TimelineEvent}
    {completedText : String} (hdelta : mark delta = .delta)
    (hbound : boundary mark later = some (.tool completedText)) :
    ∃ narration answer, Narration mark (before ++ delta :: later) narration answer ∧
      delta ∈ narration ∧ answer.message = completedText := by
  obtain ⟨before, first, rfl, hlast, hfirst⟩ := exists_cut mark before
  obtain ⟨rest, tool, between, answer, after, rfl, hrest, htool, hbetween, hanswer, hmessage⟩ :=
    exists_of_tool hbound
  refine ⟨first ++ delta :: rest, answer, ⟨⟨before, tool, between, after, by simp, hlast, htool,
    hbetween⟩, fun row hrow => ?_, hanswer⟩, by simp, hmessage⟩
  rcases List.mem_append.mp hrow with hrow | hrow
  · exact hfirst row hrow
  · rcases List.mem_cons.mp hrow with rfl | hrow
    · simp [hdelta, Mark.hard]
    · exact hrest row hrow

end Narrations

/-! ## What the renderer prunes -/

section Pruned

variable {decode : Decoder} {rows narration : List TimelineEvent} {answer delta : TimelineEvent}
  {session : String}

theorem mem_superseded : id ∈ supersededAnswerDeltaIds decode rows ↔
    id ∈ (swept decode rows).superseded ∨ ∃ row ∈ rows, ∃ run,
      (swept decode rows).runs row.sessionId = some run ∧ id ∈ run.ids ∧
        isCompletedPrefixDuplicate (String.join run.fragments.reverse) run.completedText = true :=
  mem_settled rows

theorem swept_append (before later : List TimelineEvent) :
    swept decode (before ++ later) = before.foldr (Sweep.visit decode) (swept decode later) :=
  List.foldr_append

theorem sessionId_of_markIn {mark : TimelineEvent → Mark} {expected : Mark}
    (h : markIn mark session event = expected) (hne : expected ≠ .other) :
    event.sessionId = session := by
  unfold markIn at h
  by_contra hsession
  rw [if_neg hsession] at h
  exact hne h.symm

/-- A delta right before its answer goes. -/
theorem superseded_of_completed {before later : List TimelineEvent}
    (hdelta : rendererMark decode delta = .delta)
    (hbound : boundary (markIn (rendererMark decode) delta.sessionId) later =
      some (.completed completedText)) :
    delta.id ∈ supersededAnswerDeltaIds decode (before ++ delta :: later) := by
  refine mem_superseded.mpr (.inl ?_)
  rw [swept_append]
  refine superseded_foldr ?_ before
  change delta.id ∈ ((swept decode later).visit decode delta).superseded
  have hknown := nextBoundary_swept decode later delta.sessionId
  rw [hbound] at hknown
  rw [visit_eq, hdelta]
  simp [Sweep.collect, hknown, lift]

/-- Before the last tool of a turn the sweep has that for its boundary, and no run. -/
theorem swept_tool {tool : TimelineEvent} {between after : List TimelineEvent}
    (htool : markIn (rendererMark decode) session tool = .tool)
    (hbetween : ∀ row ∈ between, markIn (rendererMark decode) session row ≠ .tool ∧
      (markIn (rendererMark decode) session row).hard = false)
    (hanswer : markIn (rendererMark decode) session answer = .completed) :
    (swept decode (tool :: (between ++ answer :: after))).nextBoundary session =
        some (.tool (some answer.message)) ∧
      (swept decode (tool :: (between ++ answer :: after))).runs session = none := by
  have hsession : tool.sessionId = session := sessionId_of_markIn htool (by simp)
  have hmark : rendererMark decode tool = .tool := by rwa [markIn, if_pos hsession] at htool
  have hknown := nextBoundary_swept decode (between ++ answer :: after) session
  rw [boundary_between hanswer hbetween] at hknown
  have hvisit : swept decode (tool :: (between ++ answer :: after)) =
      bound (swept decode (between ++ answer :: after)) session (.tool (some answer.message)) := by
    change (swept decode (between ++ answer :: after)).visit decode tool = _
    rw [visit_eq, hmark, hsession]
    simp [hknown, lift]
  rw [hvisit]
  exact ⟨if_pos rfl, (Renderer.runs_settleRun _ _ _).trans (if_pos rfl)⟩

/-- **The deltas of a narration go together.** -/
theorem superseded_narration_iff (hids : (rows.map TimelineEvent.id).Nodup)
    (h : Narration (markIn (rendererMark decode) session) rows narration answer)
    (hmem : delta ∈ narration) (hdelta : markIn (rendererMark decode) session delta = .delta) :
    delta.id ∈ supersededAnswerDeltaIds decode rows ↔
      isCompletedPrefixDuplicate (String.join
        ((deltas (markIn (rendererMark decode) session) narration).map TimelineEvent.message))
          answer.message = true := by
  obtain ⟨⟨before, tool, between, after, hrows, hlast, htool, hbetween⟩, hquiet, hanswer⟩ := h
  have hsession : delta.sessionId = session := sessionId_of_markIn hdelta (by simp)
  -- No other row has the id of the delta.
  have hsame : ∀ row ∈ rows, row.id = delta.id → row = delta := fun row hrow heq =>
    List.inj_on_of_nodup_map hids hrow (by simp [hrows, hmem]) heq
  have hnodup : rows.Nodup := List.Nodup.of_map _ hids
  rw [hrows, List.nodup_append'] at hnodup
  obtain ⟨-, hnodup, hbeforeDisjoint⟩ := hnodup
  obtain ⟨-, -, htailDisjoint⟩ := List.nodup_append'.mp hnodup
  have hbefore : ∀ row ∈ before, row.id ≠ delta.id := by
    intro row hrow heq
    rw [hsame row (by simp [hrows, hrow]) heq] at hrow
    exact hbeforeDisjoint hrow (List.mem_append_left _ hmem)
  have htail : ∀ row ∈ tool :: (between ++ answer :: after), row.id ≠ delta.id := by
    intro row hrow heq
    rw [hsame row (by simp only [hrows, List.mem_append]; exact .inr (.inr hrow)) heq] at hrow
    exact htailDisjoint hmem hrow
  obtain ⟨hbound, hnone⟩ := @swept_tool decode answer session tool between after htool hbetween
    hanswer
  have habsent : Absent delta.id (swept decode (tool :: (between ++ answer :: after))) :=
    (absent_start delta.id).foldr htail
  obtain ⟨-, hrun, honly⟩ := foldr_quiet hbound hquiet hnone
  have honly := honly delta.id
    ⟨habsent.superseded, fun other run hother hid => absurd hid (habsent.runs other run hother)⟩
    (fun row hrow hne heq => hne (by rw [hsame row (by simp [hrows, hrow]) heq, hsession]))
  set narrated := narration.foldr (Sweep.visit decode)
    (swept decode (tool :: (between ++ answer :: after))) with hnarrated
  have hswept : swept decode rows = before.foldr (Sweep.visit decode) narrated := by
    rw [hrows, swept_append, swept_append]
  -- The run that settles.
  have hdeltas : delta ∈ deltas (markIn (rendererMark decode) session) narration := by
    simp [deltas, hmem, hdelta]
  rw [narrationRun, if_neg (List.ne_nil_of_mem hdeltas)] at hrun
  have hsettled : delta.id ∈ (narrated.settleRun session).superseded ↔
      isCompletedPrefixDuplicate (String.join
        ((deltas (markIn (rendererMark decode) session) narration).map TimelineEvent.message))
          answer.message = true := by
    rw [mem_superseded_settleRun, hrun]
    simp only [honly.superseded, false_or, Option.some.injEq, exists_eq_left', List.mem_reverse,
      List.reverse_reverse]
    exact and_iff_right (List.mem_map_of_mem hdeltas)
  rw [← hsettled, mem_superseded, hswept]
  rcases List.eq_nil_or_concat before with rfl | ⟨before, last, rfl⟩
  · rw [mem_superseded_settleRun]
    refine or_congr_right ⟨?_, ?_⟩
    · rintro ⟨row, -, run, hrowRun, hid, hwhole⟩
      exact ⟨run, honly.runs _ run hrowRun hid ▸ hrowRun, hid, hwhole⟩
    · rintro ⟨run, hrowRun, hid, hwhole⟩
      exact ⟨delta, by simp [hrows, hmem], run, hsession.symm ▸ hrowRun, hid, hwhole⟩
  · -- The boundary before the narration settles its run.
    obtain ⟨other, hother⟩ : ∃ other, narrated.visit decode last = bound narrated session other := by
      have hhard := hlast last (by simp)
      have hlastSession : last.sessionId = session := by
        by_contra hne
        simp [markIn, hne, Mark.hard] at hhard
      rw [markIn, if_pos hlastSession] at hhard
      rw [visit_eq, hlastSession]
      cases hmark : rendererMark decode last with
      | completed => exact ⟨_, rfl⟩
      | user => exact ⟨_, rfl⟩
      | _ => simp [hmark, Mark.hard] at hhard
    have hstep : delta.id ∈ (narrated.visit decode last).superseded ↔
        delta.id ∈ (narrated.settleRun session).superseded := by
      rw [hother]
      rfl
    rw [List.concat_eq_append, List.foldr_append]
    constructor
    · intro hfinal
      by_contra hnot
      have hgone : Absent delta.id (narrated.visit decode last) := by
        refine ⟨fun hid => hnot (hstep.mp hid), fun other' run hother' hid => ?_⟩
        rw [hother] at hother'
        have hruns := (Renderer.runs_settleRun narrated session other').symm.trans hother'
        split at hruns
        · cases hruns
        · rename_i hne
          exact hne (honly.runs other' run hruns hid)
      have hbefore' : ∀ row ∈ before, row.id ≠ delta.id := fun row hrow =>
        hbefore row (by simp [hrow])
      have hgone := @Absent.foldr decode _ _ hgone before hbefore'
      rcases hfinal with hid | ⟨row, -, run, hrowRun, hid, -⟩
      · exact hgone.superseded hid
      · exact hgone.runs _ run hrowRun hid
    · intro hid
      exact .inl (superseded_foldr (hstep.mpr hid) before)

end Pruned

/-! ## Rows that both can read -/

section Readable

variable (js : Runtime) (isUuid : String → Bool)

def roleOf : MessageRole → Renderer.Role
  | .user => .user
  | .assistant => .assistant

def messagePhaseOf : MessagePhase → Renderer.MessagePhase
  | .delta => .delta
  | .completed => .completed

def contentOf : MessageContent → Renderer.MessageContent
  | .answer => .answer
  | .thinking => .thinking

def toolPhaseOf : ToolPhase → Renderer.ToolPhase
  | .started => .started
  | .output => .output
  | .completed => .completed

/-- What the sweep reads of the canonical event of a row, which comes with its meaning. -/
def classify : Decoder := fun event =>
  let canonical := decodeTimelineEvent js (sent isUuid event)
  { kind :=
      match canonical.event with
      | .message message => .message (roleOf message.role) message.delivery.isSome
          (messagePhaseOf message.phase) (contentOf message.content) message.childProse
      | .tool tool => .tool (toolPhaseOf tool.phase)
      | _ => .other
    parentToolUseId := canonical.common.parentToolUseId
    traceImported := canonical.common.traceImported }

/-- The renderer can read a row that is a message to the host, and names no other agent for
it. -/
def Readable (event : TimelineEvent) : Prop :=
  isObject event.payload = true → isSubAgentProse event = false →
    event.type ∈ ["user.message", "message.delta", "message.completed"] →
      strictTrue event.payload "__argmaxInvalidPayload" = false ∧
        flag event.payload "parseError" = false ∧
          (event.type ≠ "user.message" → (context event.payload).parentToolUseId = none ∧
            (context event.payload).providerThreadId = none)

instance : DecidablePred Readable := fun _ => inferInstanceAs (Decidable (_ → _ → _ → _))

theorem nonEmpty_of_nonBlank {value : Option Json} (h : (nonBlank value).isSome = true) :
    (nonEmpty value).isSome = true := by
  unfold nonBlank at h
  unfold nonEmpty
  cases htext : value.bind Json.asStr with
  | none => simp [htext] at h
  | some text =>
    by_cases hempty : text = ""
    · subst hempty
      simp [htext, Text.trim, Text.trimStart, Text.trimEnd] at h
    · simp [hempty]

theorem field_eq_iff {payload : Json} {key word : String} (hword : word ≠ "") :
    (payload.get key).bind Json.asStr = some word ↔ field payload key = some word := by
  unfold field nonEmpty
  cases (payload.get key).bind Json.asStr with
  | none => simp
  | some text =>
    by_cases hempty : text = ""
    · subst hempty
      simp [Ne.symm hword]
    · simp [Option.filter, hempty]

/-- What is prose of another agent for the host is so for the renderer. -/
theorem context_of_isSubAgentProse (h : isSubAgentProse event = true) :
    (context event.payload).parentToolUseId.isSome = true ∨
      (context event.payload).providerThreadId.isSome = true := by
  rw [isSubAgentProse, Bool.and_eq_true, Bool.or_eq_true] at h
  rcases h.2 with hparent | hthread
  · refine .inl ?_
    rw [context, firstField_pair]
    simp [nonEmpty_of_nonBlank hparent, field]
  · refine .inr ?_
    rw [context]
    have hitem : ((event.payload.get "item").bind (Json.get "type")).bind Json.asStr =
        some "agent_message" ↔
          (event.payload.get "item").bind (field · "type") = some "agent_message" := by
      cases event.payload.get "item" with
      | none => simp
      | some item => exact field_eq_iff (by decide)
    have htype := @field_eq_iff event.payload "item_type" "agent_message" (by decide)
    simp only [TranscriptTrim.providerThreadId, beq_eq_decide, hitem, htype] at hthread
    simp only [Persistence.Timeline.providerThreadId, beq_eq_decide, firstField_pair]
    split at hthread
    · rename_i hmessage
      rw [if_pos hmessage]
      simp only [Option.isSome_or, Bool.or_eq_true] at hthread ⊢
      rcases hthread with hown | hown | hchild | hchild
      · exact .inl (.inl (nonEmpty_of_nonBlank hown))
      · exact .inl (.inr (nonEmpty_of_nonBlank hown))
      · cases hvalue : event.payload.get "item" with
        | none => simp [hvalue, nonBlank] at hchild
        | some item =>
          rw [hvalue] at hchild
          have hfield : (field item "thread_id").isSome = true := nonEmpty_of_nonBlank hchild
          exact .inr (by simp [hfield])
      · cases hvalue : event.payload.get "item" with
        | none => simp [hvalue, nonBlank] at hchild
        | some item =>
          rw [hvalue] at hchild
          have hfield : (field item "sender_thread_id").isSome = true := nonEmpty_of_nonBlank hchild
          exact .inr (by simp [hfield])
    · cases hthread

theorem classify_of_readable (hobject : isObject event.payload = true)
    (hmarked : strictTrue event.payload "__argmaxInvalidPayload" = false)
    (hparse : flag event.payload "parseError" = false) :
    decodeTimelineEvent js (sent isUuid event) =
      ⟨context event.payload, decodeMeant js (sent isUuid event)
        (deriveEvent isUuid event.type event.id event.payload)⟩ := by
  have hpayload : (sent isUuid event).payload = event.payload := rfl
  simp [decodeTimelineEvent, hpayload, hobject, hmarked, derive, hparse]

theorem isObject_eq (payload : Json) : TranscriptTrim.isObject payload = isObject payload := by
  cases payload <;> rfl

/-- What the canonical event of a row is to the sweep. -/
def markOf (canonical : CanonicalTimelineEvent) : Mark :=
  match canonical.event with
  | .message message =>
    if message.childProse then .other
    else
      match message.phase, message.role with
      | .delta, _ => if message.content = .answer then .delta else .other
      | .completed, .assistant => .completed
      | .completed, .user => if message.delivery.isSome then .other else .user
  | .tool tool =>
    if tool.phase = .started ∧ canonical.common.parentToolUseId = none then .tool else .other
  | _ => .other

theorem rendererMark_classify (event : TimelineEvent) : rendererMark (classify js isUuid) event =
    markOf (decodeTimelineEvent js (sent isUuid event)) := by
  unfold rendererMark isSubAgentProseEcho classify
  cases decodeTimelineEvent js (sent isUuid event) with
  | mk common canonical =>
    cases canonical with
    | message message =>
      obtain ⟨role, delivery, phase, content, childProse, rawStream, cumulativeText⟩ := message
      cases childProse <;> cases phase <;> cases role <;> cases content <;> cases delivery <;>
        simp [markOf, roleOf, messagePhaseOf, contentOf]
    | tool tool =>
      obtain ⟨phase, toolUseId, name, providerName, invocationId, activity, surface, outcome,
        running, launch⟩ := tool
      cases phase <;> cases hparent : common.parentToolUseId <;>
        simp [markOf, toolPhaseOf, hparent]
    | _ => simp [markOf]

/-- A row of another type is nothing to the sweep. -/
theorem markOf_of_type
    (htype : event.type ∉ ["user.message", "message.delta", "message.completed",
      "command.started"]) : markOf ⟨context event.payload, decodeMeant js (sent isUuid event)
        (deriveEvent isUuid event.type event.id event.payload)⟩ = .other := by
  simp only [List.mem_cons, List.not_mem_nil, or_false, not_or] at htype
  obtain ⟨huser, hdelta, hcompleted, hstarted⟩ := htype
  unfold deriveEvent
  split
  case h_1 heq => exact absurd heq huser
  case h_2 heq => exact absurd heq hdelta
  case h_3 heq => exact absurd heq hcompleted
  case h_4 heq => exact absurd heq hstarted
  case h_12 => cases deriveVisualization isUuid event.payload <;> rfl
  case h_16 => cases lifecycleName event.type <;> rfl
  all_goals rfl

/-- Prose of another agent. -/
def isChildProse (event : TimelineEvent) : Bool :=
  (context event.payload).parentToolUseId.isSome || (context event.payload).providerThreadId.isSome

theorem markOf_message {phase : MessagePhase} :
    markOf ⟨context event.payload, decodeMeant js (sent isUuid event)
        (.message (deriveMessage .assistant phase event.payload))⟩ =
      if isChildProse event then .other
      else
        match phase with
        | .completed => .completed
        | .delta => if flag event.payload "thinking" then .other else .delta := by
  cases hprose : isChildProse event with
  | true => simp_all [markOf, decodeMeant, decodeMessage, deriveMessage, isChildProse]
  | false =>
    cases phase <;> cases hthinking : flag event.payload "thinking" <;>
      simp_all [markOf, decodeMeant, decodeMessage, deriveMessage, isChildProse]

theorem markOf_user :
    markOf ⟨context event.payload, decodeMeant js (sent isUuid event)
        (.message (deriveMessage .user .completed event.payload))⟩ =
      if field event.payload "delivery" = some "steer" then .other else .user := by
  by_cases hsteer : field event.payload "delivery" = some "steer" <;>
    simp [markOf, decodeMeant, decodeMessage, deriveMessage]

theorem markOf_started {event : TimelineEvent} :
    markOf ⟨context event.payload, decodeMeant js (sent isUuid event)
        (.tool (deriveTool .started event.id event.payload))⟩ =
      if (context event.payload).parentToolUseId = none then .tool else .other := by
  simp [markOf, decodeMeant, decodeTool, deriveTool]

/-- What the renderer cannot read is nothing to its sweep. -/
theorem rendererMark_of_not_readable
    (h : isObject event.payload = false ∨
      strictTrue event.payload "__argmaxInvalidPayload" = true ∨
        flag event.payload "parseError" = true) :
    rendererMark (classify js isUuid) event = .other := by
  have hevent : (decodeTimelineEvent js (sent isUuid event)).event = .unknown .invalidPayload := by
    have hpayload : (sent isUuid event).payload = event.payload := rfl
    unfold decodeTimelineEvent
    rw [hpayload]
    cases hobject : isObject event.payload with
    | false => simp
    | true =>
      cases hmarked : strictTrue event.payload "__argmaxInvalidPayload" with
      | true => simp
      | false =>
        have hparse : flag event.payload "parseError" = true := by simpa [hobject, hmarked] using h
        simp [derive, hparse, decodeMeant]
  rw [rendererMark_classify, markOf, hevent]

/-- A row that is no message is the start of a tool to the host, or nothing. -/
theorem hostMark_of_not_message
    (htype : event.type ∉ ["user.message", "message.delta", "message.completed"]) :
    hostMark event = .other ∨ hostMark event = .tool := by
  simp only [List.mem_cons, List.not_mem_nil, or_false, not_or] at htype
  obtain ⟨huser, hdelta, hcompleted⟩ := htype
  unfold hostMark
  split
  · exact .inl rfl
  · split
    case h_1 heq => exact absurd heq hdelta
    case h_2 heq => exact absurd heq hcompleted
    case h_3 => split <;> simp
    case h_4 heq => exact absurd heq huser
    case h_5 => exact .inl rfl

theorem rendererMark_message (h : Readable event) (hobject : isObject event.payload = true)
    (hprose : isSubAgentProse event = false)
    (htype : event.type ∈ ["user.message", "message.delta", "message.completed"]) :
    rendererMark (classify js isUuid) event = hostMark event := by
  obtain ⟨hmarked, hparse, hchild⟩ := h hobject hprose htype
  rw [rendererMark_classify, classify_of_readable js isUuid hobject hmarked hparse]
  simp only [List.mem_cons, List.not_mem_nil, or_false] at htype
  rcases htype with huser | hdelta | hcompleted
  · have hsteer := @field_eq_iff event.payload "delivery" "steer" (by decide)
    rw [huser]
    refine (markOf_user js isUuid).trans ?_
    simp [hostMark, isObject_eq, hobject, hprose, huser, hsteer]
  · have hnone : isChildProse event = false := by
      obtain ⟨hparent, hthread⟩ := hchild (by simp [hdelta])
      simp [isChildProse, hparent, hthread]
    have hthinking := @strictTrue_eq event.payload "thinking"
    rw [hdelta]
    refine (markOf_message js isUuid).trans ?_
    rw [hnone, ← hthinking]
    simp [hostMark, isObject_eq, hobject, hprose, hdelta, strictTrue]
  · have hnone : isChildProse event = false := by
      obtain ⟨hparent, hthread⟩ := hchild (by simp [hcompleted])
      simp [isChildProse, hparent, hthread]
    rw [hcompleted]
    refine (markOf_message js isUuid).trans ?_
    simp [hostMark, isObject_eq, hobject, hprose, hcompleted, hnone]

/-- The host's prose of another agent is so to the renderer. -/
theorem rendererMark_prose (hprose : isSubAgentProse event = true) :
    rendererMark (classify js isUuid) event = .other := by
  by_cases hreadable : isObject event.payload = true ∧
      strictTrue event.payload "__argmaxInvalidPayload" = false ∧
        flag event.payload "parseError" = false
  · obtain ⟨hobject, hmarked, hparse⟩ := hreadable
    have hchild : isChildProse event = true := by
      rw [isChildProse, Bool.or_eq_true]
      exact context_of_isSubAgentProse hprose
    rw [rendererMark_classify, classify_of_readable js isUuid hobject hmarked hparse]
    rw [isSubAgentProse, Bool.and_eq_true] at hprose
    have htype : event.type = "message.delta" ∨ event.type = "message.completed" := by
      simpa using hprose.1
    rcases htype with hdelta | hcompleted
    · rw [hdelta]
      exact (markOf_message js isUuid).trans (if_pos hchild)
    · rw [hcompleted]
      exact (markOf_message js isUuid).trans (if_pos hchild)
  · refine rendererMark_of_not_readable js isUuid ?_
    by_contra hnot
    simp only [not_or, Bool.not_eq_false, Bool.not_eq_true] at hnot
    exact hreadable hnot

/-- **A row is the same to both**, but for the start of a tool that only the host sees. -/
theorem rendererMark_eq (h : Readable event) :
    rendererMark (classify js isUuid) event = hostMark event ∨
      (hostMark event = .tool ∧ rendererMark (classify js isUuid) event = .other) := by
  cases hobject : isObject event.payload with
  | false =>
    rw [rendererMark_of_not_readable js isUuid (.inl hobject)]
    exact .inl (by simp [hostMark, isObject_eq, hobject])
  | true =>
    cases hprose : isSubAgentProse event with
    | true =>
      rw [rendererMark_prose js isUuid hprose]
      exact .inl (by simp [hostMark, hprose])
    | false =>
      by_cases hmessage : event.type ∈ ["user.message", "message.delta", "message.completed"]
      · exact .inl (rendererMark_message js isUuid h hobject hprose hmessage)
      · have hhost := hostMark_of_not_message hmessage
        by_cases hother : rendererMark (classify js isUuid) event = .other
        · exact hhost.imp (fun h => hother.trans h.symm) fun h => ⟨h, hother⟩
        · -- What is no message to the renderer either is the start of a tool.
          have hreadable : strictTrue event.payload "__argmaxInvalidPayload" = false ∧
              flag event.payload "parseError" = false := by
            constructor
            · by_contra hmarked
              exact hother (rendererMark_of_not_readable js isUuid
                (.inr (.inl (by simpa using hmarked))))
            · by_contra hparse
              exact hother (rendererMark_of_not_readable js isUuid
                (.inr (.inr (by simpa using hparse))))
          rw [rendererMark_classify, classify_of_readable js isUuid hobject hreadable.1
            hreadable.2] at hother ⊢
          have hstarted : event.type = "command.started" := by
            by_contra hne
            refine hother (markOf_of_type js isUuid ?_)
            simp only [List.mem_cons, List.not_mem_nil, or_false, not_or] at hmessage ⊢
            exact ⟨hmessage.1, hmessage.2.1, hmessage.2.2, hne⟩
          rw [hstarted] at hother ⊢
          have hmark := @markOf_started js isUuid event
          change markOf ⟨_, decodeMeant js (sent isUuid event)
            (.tool (deriveTool .started event.id event.payload))⟩ ≠ _ at hother
          rw [hmark] at hother
          have hnone : (context event.payload).parentToolUseId = none := by
            by_contra hsome
            exact hother (if_neg hsome)
          refine .inl (hmark.trans ?_)
          have hblank : (nonBlank (event.payload.get "parent_tool_use_id")).isSome = false := by
            by_contra hparent
            rw [Bool.not_eq_false] at hparent
            have hfield := nonEmpty_of_nonBlank hparent
            rw [context, firstField_pair] at hnone
            simp only [Option.or_eq_none_iff] at hnone
            rw [field] at hnone
            rw [hnone.1] at hfield
            cases hfield
          simp [hnone, hostMark, isObject_eq, hobject, hprose, hstarted, hblank]

end Readable

/-! ## The agreement -/

section Agreement

variable {host renderer : TimelineEvent → Mark} {rows : List TimelineEvent}

/-- Where the host sees the start of a tool that the renderer does not see, the answer behind it
is the closest boundary of the renderer. -/
theorem boundary_eq
    (h : ∀ row ∈ rows, renderer row = host row ∨ (host row = .tool ∧ renderer row = .other)) :
    boundary renderer rows = boundary host rows ∨
      ∃ completedText, boundary host rows = some (.tool completedText) ∧
        boundary renderer rows = some (.completed completedText) := by
  induction rows with
  | nil => exact .inl rfl
  | cons event rows ih =>
    obtain ⟨hevent, hrows⟩ := List.forall_mem_cons.mp h
    rw [boundary, boundary]
    rcases ih hrows with heq | ⟨completedText, hhost, hrenderer⟩
    · rw [heq]
      rcases hevent with hsame | ⟨htool, hother⟩
      · exact .inl (by rw [hsame])
      · rw [htool, hother]
        rcases boundary host rows with _ | text | text | _
        · exact .inl rfl
        · exact .inr ⟨text, rfl, rfl⟩
        · exact .inl rfl
        · exact .inl rfl
    · rw [hhost, hrenderer]
      rcases hevent with hsame | ⟨htool, hother⟩
      · rw [hsame]
        cases host event with
        | delta | other => exact .inr ⟨completedText, rfl, rfl⟩
        | completed | user | tool => exact .inl rfl
      · rw [htool, hother]
        exact .inr ⟨completedText, rfl, rfl⟩

/-- The rows of a page in the order of the sweeps. -/
def pageRows (page : List TimelineEvent) : List TimelineEvent := (ascending page).map Prod.fst

theorem pageRows_perm (page : List TimelineEvent) : (pageRows page).Perm page := by
  have hsorted := (List.mergeSort_perm page.zipIdx TranscriptTrim.sweepOrder).map Prod.fst
  rwa [List.zipIdx_map_fst] at hsorted

theorem markIn_eq (session : String)
    (h : renderer event = host event ∨ (host event = .tool ∧ renderer event = .other)) :
    markIn renderer session event = markIn host session event ∨
      (markIn host session event = .tool ∧ markIn renderer session event = .other) := by
  unfold markIn
  split
  · exact h
  · exact .inl rfl

/-- **When the renderer prunes what the host drops.** On a page whose rows both can read, each
delta that the host drops is one that the renderer prunes just where each narration whose answer
begins with one of its deltas is, as a whole, in the answer. -/
theorem dropped_superseded_iff (js : Runtime) (isUuid : String → Bool) (page : List TimelineEvent)
    (hids : (page.map TimelineEvent.id).Nodup) (hreadable : ∀ event ∈ page, Readable event) :
    (∀ event ∈ page, event ∉ dropSupersededDeltas page →
        event.id ∈ supersededAnswerDeltaIds (classify js isUuid) (pageRows page)) ↔
      ∀ session, RunsWhole (markIn (rendererMark (classify js isUuid)) session)
        (pageRows page) := by
  have hperm := pageRows_perm page
  have hrowIds : ((pageRows page).map TimelineEvent.id).Nodup :=
    (hperm.map TimelineEvent.id).nodup_iff.mpr hids
  have hmarks : ∀ event ∈ pageRows page, ∀ session,
      markIn (rendererMark (classify js isUuid)) session event = markIn hostMark session event ∨
        (markIn hostMark session event = .tool ∧
          markIn (rendererMark (classify js isUuid)) session event = .other) :=
    fun event hevent session => markIn_eq session
      (rendererMark_eq js isUuid (hreadable event (hperm.subset hevent)))
  have hnodup : page.Nodup := List.Nodup.of_map _ hids
  constructor
  · intro hpruned session narration answer hnarration delta hmem hdelta hduplicate
    rw [← superseded_narration_iff hrowIds hnarration hmem hdelta]
    obtain ⟨⟨before, tool, between, after, hrows, -, htool, hbetween⟩, hquiet, hanswer⟩ :=
      hnarration
    obtain ⟨first, rest, rfl⟩ := List.append_of_mem hmem
    have hsession : delta.sessionId = session := sessionId_of_markIn hdelta (by simp)
    have hsplit : pageRows page = (before ++ first) ++
        delta :: (rest ++ tool :: (between ++ answer :: after)) := by simp [hrows]
    have hpage : delta ∈ page := hperm.subset (by simp [hsplit])
    refine hpruned delta hpage ((not_mem_drop_iff hnodup hpage).mpr ⟨_, _, hsplit, ?_⟩)
    have hlater : boundary (markIn (rendererMark (classify js isUuid)) session)
        (rest ++ tool :: (between ++ answer :: after)) = some (.tool answer.message) := by
      refine boundary_quiet ?_ fun row hrow => hquiet row (by simp [hrow])
      rw [boundary, boundary_between hanswer hbetween, htool]
      rfl
    have hhost : boundary (markIn hostMark session)
        (rest ++ tool :: (between ++ answer :: after)) = some (.tool answer.message) := by
      rcases boundary_eq (fun row hrow => hmarks row
        (by rw [hsplit]; exact List.mem_append_right _ (List.mem_cons_of_mem _ hrow)) session) with
        heq | ⟨text, -, hcompleted⟩
      · rw [← heq]
        exact hlater
      · rw [hlater] at hcompleted
        cases hcompleted
    have hmark : hostMark delta = .delta := by
      have hsees := hmarks delta (by simp [hsplit]) session
      rw [hdelta] at hsees
      have heq := hsees.resolve_right (by simp)
      rwa [markIn, if_pos hsession, eq_comm] at heq
    exact supersededBy_iff.mpr ⟨hmark, .inr ⟨answer.message, hsession ▸ hhost, hduplicate⟩⟩
  · intro hwhole event hmem hdropped
    obtain ⟨before, later, hsplit, hsuper⟩ := (not_mem_drop_iff hnodup hmem).mp hdropped
    obtain ⟨hhost, hboundary⟩ := supersededBy_iff.mp hsuper
    have hsplit : pageRows page = before ++ event :: later := hsplit
    have hmark : rendererMark (classify js isUuid) event = .delta := by
      have hsees := rendererMark_eq js isUuid (hreadable event hmem)
      rw [hhost] at hsees
      exact hsees.resolve_right (by simp)
    have hmarkIn : markIn (rendererMark (classify js isUuid)) event.sessionId event = .delta :=
      (if_pos rfl).trans hmark
    have hsees := boundary_eq (fun row hrow => hmarks row
      (by rw [hsplit]; exact List.mem_append_right _ (List.mem_cons_of_mem _ hrow)) event.sessionId)
    rw [hsplit]
    rcases hboundary with ⟨text, hcompleted⟩ | ⟨text, htool, hduplicate⟩
    · rcases hsees with heq | ⟨text', htool, -⟩
      · exact superseded_of_completed hmark (heq.trans hcompleted)
      · rw [hcompleted] at htool
        cases htool
    · rcases hsees with heq | ⟨text', -, hcompleted⟩
      · obtain ⟨narration, answer, hnarration, hin, hmessage⟩ :=
          @exists_narration _ before later event text hmarkIn (heq.trans htool)
        rw [← hsplit] at hnarration ⊢
        exact (superseded_narration_iff hrowIds hnarration hin hmarkIn).mpr
          (hwhole _ narration answer hnarration event hin hmarkIn (hmessage ▸ hduplicate))
      · exact superseded_of_completed hmark hcompleted

/-- A page in ascending order is swept as it is. -/
theorem pageRows_of_ascending {page : List TimelineEvent}
    (hplaced : ∀ event ∈ page, event.rowCursor.isSome)
    (h : Paging.Ascending TranscriptTrim.eventPlace page) : pageRows page = page := by
  rw [pageRows, ascending,
    List.mergeSort_of_pairwise (TranscriptTrim.pairwise_sweepOrder hplaced h 0), List.zipIdx_map_fst]

end Agreement

/-- A row of a session. -/
def row (place : ℤ) (id type message : String) : TimelineEvent :=
  ⟨id, "session-1", type, message, .object [], "2026-09-11T00:00:00Z", some place⟩

/-- Narration before a tool that an answer does not repeat, but for its first delta. -/
def pulled : List TimelineEvent :=
  [row 1 "event-1" "message.delta" "Pull", row 2 "event-2" "message.delta" "ing up the file.",
    row 3 "event-3" "command.started" "Read",
    row 4 "event-4" "message.completed" "Pull requests: none."]

theorem dropped_superseded_iff_pulled :
    (∀ event ∈ pulled, event ∉ dropSupersededDeltas pulled →
        event.id ∈ supersededAnswerDeltaIds (classify asciiRuntime fun _ => true)
          (pageRows pulled)) ↔
      ∀ session, RunsWhole (markIn (rendererMark (classify asciiRuntime fun _ => true)) session)
        (pageRows pulled) :=
  dropped_superseded_iff asciiRuntime (fun _ => true) pulled (by decide) (by decide)

theorem dropped_not_superseded :
    row 1 "event-1" "message.delta" "Pull" ∈ pulled ∧
      row 1 "event-1" "message.delta" "Pull" ∉ dropSupersededDeltas pulled ∧
      "event-1" ∉ supersededAnswerDeltaIds (classify asciiRuntime fun _ => true)
        (pageRows pulled) := by
  have hplaced : ∀ event ∈ pulled, event.rowCursor.isSome := by decide
  have hascending : Paging.Ascending TranscriptTrim.eventPlace pulled := by
    unfold Paging.Ascending
    decide
  rw [pageRows_of_ascending hplaced hascending,
    TranscriptTrim.dropSupersededDeltas_eq hplaced hascending]
  exact ⟨by decide, by decide, by decide⟩

end Argmax.DeltaAgreement
