import Argmax.Lib.StableSort
import Argmax.Workspaces.Fork

/-!
# What a fork copies

A fork holds a copy of each event of its source up to the fork boundary and of no other, in
the order of the source. The markers of a clear are copied too, so a copy is visible where
its original was.

## Main results

* `copyEvents_spec`: what the copies are.
* `exists_copy`: a visible original has a copy that no copied marker hides.
* `selectForkRange_lastEventId`, `nativePlan_spec`: what a selection and a plan name.
-/

namespace Argmax.Workspaces.Fork

open Argmax.Lib Argmax.Persistence Argmax.Persistence.Continuity Argmax.Providers.Continuity

/-! ## Payloads -/

theorem get_insertField {key other : String} {value : Json} {fields : List (String × Json)}
    (h : other ≠ key) :
    (Json.object (Json.insertField key value fields)).get other =
      (Json.object fields).get other := by
  have hne : (key == other) = false := by simp [h.symm]
  induction fields with
  | nil => simp [Json.insertField, Json.get, hne]
  | cons field fields ih =>
    simp only [Json.insertField]
    split_ifs with hlt heq
    · simp [Json.get, hne]
    · simp [Json.get, ← heq, hne]
    · simp only [Json.get, List.find?_cons] at ih ⊢
      split
      · rfl
      · exact ih

variable {event : EventRow} {events : EventTable}

theorem get_copiedPayload {field : String} (h : field ≠ "_argmaxOriginalEventId") :
    (copiedPayload event).get field = event.payload.get field := by
  rw [copiedPayload]
  split
  case h_1 fields heq =>
    split
    · rw [heq]
    · rw [get_insertField h, heq]
  case h_2 => rfl

theorem jsonExtract_copiedPayload {field : String} {path : List String}
    (h : field ≠ "_argmaxOriginalEventId") :
    jsonExtract (copiedPayload event) (field :: path) =
      jsonExtract event.payload (field :: path) := by
  simp only [jsonExtract, get_copiedPayload h]

@[simp] theorem notChildAgent_copiedPayload :
    notChildAgent (copiedPayload event) = notChildAgent event.payload := by
  simp [notChildAgent, jsonExtract_copiedPayload]

/-! ## Copies -/

/-- The row is a copy of the event. -/
structure Copies (copy event : EventRow) : Prop where
  type : copy.type = event.type
  message : copy.message = event.message
  payload : copy.payload = copiedPayload event

/-- **The copies.** They come after all that was there, in the order of the events. -/
theorem copyEvents_spec {draw : String → String} {sessionId : String} {events' : EventTable}
    {rows : List EventRow} (h : copyEvents sessionId draw events rows = some events') :
    ∃ copies, events'.rows = events.rows ++ copies ∧ List.Forall₂ Copies copies rows ∧
      copies.Pairwise (fun copy copy' => copy.rowid < copy'.rowid) ∧
      ∀ copy ∈ copies, copy.sessionId = sessionId ∧ ∀ event ∈ events, event.rowid < copy.rowid := by
  induction rows generalizing events with
  | nil =>
    rw [copyEvents, Option.some.injEq] at h
    exact ⟨[], by simp [h], .nil, .nil, by simp⟩
  | cons row rows ih =>
    obtain ⟨added, hadded, hrest⟩ := Option.bind_eq_some_iff.mp h
    obtain ⟨hfree, hpush⟩ := Table.insert?_eq_some.mp hadded
    obtain ⟨copies, hrows, hall, hsorted, hcopies⟩ := ih hrest
    have hmem := fun event => @Table.mem_insert? _ _ _ _ _ _ _ event hadded
    let copy : EventRow := ⟨nextRowid events, draw row.id, sessionId, row.type, row.message,
      copiedPayload row⟩
    have hcopy : copy ∈ added := (hmem copy).mpr (.inr rfl)
    refine ⟨copy :: copies, ?_, .cons ⟨rfl, rfl, rfl⟩ hall, ?_, ?_⟩
    · rw [hrows, hpush]
      simp [Table.push, copy]
    · exact List.pairwise_cons.mpr
        ⟨fun later hlater => (hcopies later hlater).2 copy hcopy, hsorted⟩
    · intro other hother
      rcases List.mem_cons.mp hother with rfl | hother
      · exact ⟨rfl, fun event hevent => rowid_lt_nextRowid hevent⟩
      · obtain ⟨hsession, hlater⟩ := hcopies other hother
        exact ⟨hsession, fun event hevent => hlater event ((hmem event).mpr (.inl hevent))⟩

/-- A visible original has a copy, and no copied marker of a clear hides it. -/
theorem exists_copy {sessionId : String} {upto : ℕ} {copies rows : List EventRow}
    (hall : List.Forall₂ Copies copies rows)
    (hcopies : copies.Pairwise fun copy copy' => copy.rowid < copy'.rowid)
    (hrows : rows.Pairwise fun row row' => row.rowid ≤ row'.rowid)
    (hsource : ∀ row ∈ rows, row ∈ events ∧ row.sessionId = sessionId) (hevent : event ∈ rows)
    (hvisible : eligible events sessionId 0 upto event = true) :
    ∃ copy ∈ copies, Copies copy event ∧
      ∀ marker ∈ copies, marker.type = "session.cleared" → marker.rowid < copy.rowid := by
  have ⟨hlength, hget⟩ := List.forall₂_iff_get.mp hall
  have ⟨i, hi, heq⟩ := List.getElem_of_mem hevent
  have hcopy : Copies copies[i] rows[i] := hget i (hlength ▸ hi) hi
  rw [heq] at hcopy
  refine ⟨copies[i], List.getElem_mem _, hcopy, ?_⟩
  intro marker hmarker htype
  have ⟨j, hj, hjeq⟩ := List.getElem_of_mem hmarker
  have hj' : j < rows.length := hlength ▸ hj
  have hcleared : rows[j].rowid ≤ lastCleared events sessionId := by
    have hrow := hsource rows[j] (List.getElem_mem hj')
    refine le_foldr_rowid (List.mem_filter.mpr ⟨hrow.1, ?_⟩)
    have htype' : rows[j].type = "session.cleared" := by
      rw [← htype, ← hjeq]
      exact (hget j hj hj').type.symm
    simp [hrow.2, htype']
  have hlt : lastCleared events sessionId < rows[i].rowid := by
    simp only [eligible, Bool.and_eq_true, decide_eq_true_eq] at hvisible
    rw [heq]
    exact hvisible.1.1.1.2
  -- A marker that stood after the event would be a later clear.
  have hji : j < i := by
    by_contra hle
    rcases Nat.eq_or_lt_of_le (Nat.le_of_not_lt hle) with rfl | hij
    · omega
    · have hsorted := List.pairwise_iff_getElem.mp hrows i j hi hj' hij
      omega
  rw [← hjeq]
  exact List.pairwise_iff_getElem.mp hcopies j i hj (hlength ▸ hi) hji

/-! ## The copied events -/

theorem pairwise_listAllSessionEvents (events : EventTable) (sessionId : String) :
    (listAllSessionEvents events sessionId).Pairwise fun row row' => row.rowid ≤ row'.rowid := by
  refine (List.pairwise_mergeSort ?_ ?_ _).imp ?_ <;> simp <;> omega

/-- The events that are copied. -/
theorem mem_copied {sessionId : String} {last : ℕ} :
    event ∈ (listAllSessionEvents events sessionId).takeWhile (fun event => event.rowid ≤ last) ↔
      event ∈ events ∧ event.sessionId = sessionId ∧ event.rowid ≤ last := by
  rw [takeWhile_eq_filter (pairwise_listAllSessionEvents events sessionId)]
  · simp [listAllSessionEvents, Table.mem_def, and_assoc]
  · intro row row' hle hlast
    simp only [decide_eq_true_eq] at *
    omega

/-! ## The selection and the plan -/

/-- The last copied event is where the selection says. -/
theorem selectForkRange_lastEventId {source : Session} {boundaryEventId : Option String}
    {selection : ForkSelection} (h : selectForkRange events source boundaryEventId = .ok selection)
    {eventId : String} (hlast : selection.lastEventId = some eventId) :
    eventRowid events eventId = some selection.lastRowid := by
  cases boundaryEventId with
  | none =>
    simp only [selectForkRange] at h
    split_ifs at h
    cases h
    have ⟨last, hnewest, hid⟩ := Option.map_eq_some_iff.mp hlast
    rw [← hid, hnewest]
    exact eventRowid_of_mem (newest_eq_some hnewest).1
  | some boundary =>
    simp only [selectForkRange] at h
    split at h
    · cases h
    · split_ifs at h
      split at h
      case h_1 => cases h
      case h_2 last hnewest =>
        cases h
        cases hlast
        exact eventRowid_of_mem (newest_eq_some hnewest).1

/-- The turn of the source that was recorded for the fork boundary. -/
def recordedTurn (events : EventTable) (source : Session) (selection : ForkSelection)
    (conversationId : String) : Option String :=
  selection.boundaryEventId.bind fun eventId =>
    (source.tables events fun _ => "").bindingTurn "codex" conversationId eventId

theorem nativePlan_spec {source : Session} {selection : ForkSelection}
    {workspace : ForkWorkspaceMode} {mode : NativeMode} {turn : Option String}
    (h : nativePlan events source selection workspace = (mode, turn)) :
    (mode = .resumeFork → selection.isLatest = true) ∧
      (mode = .codexLastTurn → source.provider = "codex" ∧ ∀ conversationId turnId,
        source.providerConversationId = some conversationId → turn = some turnId →
          recordedTurn events source selection conversationId = some turnId) := by
  simp only [nativePlan] at h
  split at h
  · cases h
    simp
  case h_2 conversation hconversation =>
    by_cases hfree : (source.resumeFork || activeStates.contains source.state) = true
    · rw [if_pos hfree] at h
      cases h
      simp
    · rw [if_neg hfree] at h
      split at h
      case h_1 turnId hrecorded =>
        cases h
        split_ifs at hrecorded with hcodex
        refine ⟨by simp, fun _ => ⟨hcodex, fun conversationId turnId' hsome hturn => ?_⟩⟩
        cases hconversation.symm.trans hsome
        rw [recordedTurn, hrecorded, hturn]
      case h_2 =>
        split_ifs at h with hlatest <;> cases h <;> simp_all

end Argmax.Workspaces.Fork
