import Argmax.Lib.Transition
import Argmax.Persistence.AgentCodenames
import Mathlib.Data.List.Dedup
import Mathlib.Data.List.Perm.Subperm

/-!
# What the names of agents keep

The events about agents behind the last boundary say which names are in use: an agent has
one name, and two agents share one only when there are more agents than names.
-/

namespace Argmax.Persistence.AgentCodenames

open Argmax.Lib Argmax.Lib.Text

/-! ## Choosing a name -/

/-- Some name is left. -/
theorem exists_free {codenames taken : List String} (hnodup : codenames.Nodup)
    (h : taken.length < codenames.length) : ∃ name ∈ codenames, name ∉ taken := by
  by_contra hall
  have hsubset : codenames ⊆ taken := by
    intro name hname
    by_contra hfree
    exact hall ⟨name, hname, hfree⟩
  have hlength := (List.subperm_of_subset hnodup hsubset).length_le
  omega

/-- The probe reaches every name of the catalog, and gives one that is not taken. -/
theorem probeCodename_spec {codenames taken : List String}
    (hfree : ∃ name ∈ codenames, name ∉ taken) (start : ℕ) :
    ∃ name ∈ codenames, probeCodename codenames taken start = some name ∧ name ∉ taken := by
  have ⟨free, hmem, hnot⟩ := hfree
  have ⟨i, hi, hget⟩ := List.getElem_of_mem hmem
  have hpos : 0 < codenames.length := by omega
  -- the step that leads from the start to the free name
  have hreach : (start + (i + codenames.length - start % codenames.length) % codenames.length) %
      codenames.length = i := by
    have hmod := Nat.mod_lt start hpos
    rw [Nat.add_mod, Nat.mod_mod, ← Nat.add_mod]
    have hsplit : start + (i + codenames.length - start % codenames.length) =
        i + codenames.length * (start / codenames.length + 1) := by
      have hdiv := Nat.mod_add_div start codenames.length
      rw [Nat.mul_succ]
      omega
    rw [hsplit, Nat.add_mul_mod_self_left, Nat.mod_eq_of_lt hi]
  have hin : free ∈ (List.range codenames.length).filterMap fun step =>
      codenames[(start + step) % codenames.length]? := by
    refine List.mem_filterMap.mpr
      ⟨(i + codenames.length - start % codenames.length) % codenames.length, ?_, ?_⟩
    · exact List.mem_range.mpr (Nat.mod_lt _ hpos)
    rw [hreach, List.getElem?_eq_getElem hi, hget]
  cases hfound : probeCodename codenames taken start with
  | none =>
    have hnone := List.find?_eq_none.mp hfound free hin
    simp [hnot] at hnone
  | some name =>
    have hname := List.mem_of_find?_eq_some hfound
    have ⟨step, _, hstep⟩ := List.mem_filterMap.mp hname
    refine ⟨name, List.mem_of_getElem? hstep, rfl, ?_⟩
    simpa using List.find?_some hfound

/-- A new agent gets a name of the catalog, and one that is not taken while names last. -/
theorem chooseCodename_spec {codenames : List String} (hnodup : codenames.Nodup)
    (hne : codenames ≠ []) (taken : List String) (rootToolUseId : String) :
    ∃ name ∈ codenames, chooseCodename codenames taken rootToolUseId = some name ∧
      (taken.length < codenames.length → name ∉ taken) := by
  have hpos := List.length_pos_iff.mpr hne
  rw [chooseCodename]
  split
  case isTrue hfull =>
    have hlt := Nat.mod_lt (codenameHash rootToolUseId).toNat hpos
    refine ⟨_, List.getElem_mem hlt, List.getElem?_eq_getElem hlt, fun hshort => ?_⟩
    omega
  case isFalse hfree =>
    have ⟨name, hname, hfound, hnot⟩ := probeCodename_spec
      (exists_free hnodup (Nat.not_le.mp hfree)) ((codenameHash rootToolUseId).toNat %
        if taken.isEmpty then min agentCodenameHeadlineCount codenames.length else codenames.length)
    exact ⟨name, hname, hfound, fun _ => hnot⟩

theorem nodup_agentCodenames : agentCodenames.Nodup := by decide +kernel

variable {events events' : EventTable} {event row : EventRow} {childId : String} {state : State}
  {fields : List (String × Json)} {payload : Json}

/-! ## The rows of a conversation -/

section Rows

variable (lib : Library) (sessionId parentConversationId : String)

/-- The row is about an agent of the conversation, in the current segment. -/
def isAgentRow (events : EventTable) (event : EventRow) : Bool :=
  event.sessionId == sessionId && isAgentEvent event.type &&
    textAt lib event.payload "providerParentConversationId" == some parentConversationId &&
    decide (agentTurnBoundary events sessionId < event.rowid)

def agentRows (events : EventTable) : List EventRow :=
  events.rows.filter (isAgentRow lib sessionId parentConversationId events)

def childOf (event : EventRow) : Option String := textAt lib event.payload "providerChildSessionId"

def nameOf (event : EventRow) : Option String := textAt lib event.payload "agentCodename"

/-- The agents of the conversation. -/
def children (events : EventTable) : List String :=
  ((agentRows lib sessionId parentConversationId events).filterMap (childOf lib)).dedup

/-- Each agent has one name, and one of its own while there are no more agents than names. -/
structure Named (events : EventTable) : Prop where
  known : ∀ row ∈ agentRows lib sessionId parentConversationId events,
    ∃ child, ∃ name ∈ agentCodenames, childOf lib row = some child ∧ nameOf lib row = some name
  run : ∀ row ∈ agentRows lib sessionId parentConversationId events, row.type = "agent.started" →
    (textAt lib row.payload "agentRunId").isSome
  started : ∀ row ∈ agentRows lib sessionId parentConversationId events,
    ∃ start ∈ agentRows lib sessionId parentConversationId events,
      start.type = "agent.started" ∧ childOf lib start = childOf lib row
  same : ∀ row ∈ agentRows lib sessionId parentConversationId events,
    ∀ row' ∈ agentRows lib sessionId parentConversationId events,
      childOf lib row = childOf lib row' → nameOf lib row = nameOf lib row'
  apart : (children lib sessionId parentConversationId events).length ≤ agentCodenames.length →
    ∀ row ∈ agentRows lib sessionId parentConversationId events,
      ∀ row' ∈ agentRows lib sessionId parentConversationId events,
        nameOf lib row = nameOf lib row' → childOf lib row = childOf lib row'

variable {lib sessionId parentConversationId}

theorem mem_agentRows :
    event ∈ agentRows lib sessionId parentConversationId events ↔ event ∈ events ∧
      isAgentRow lib sessionId parentConversationId events event = true :=
  List.mem_filter

/-- The starts are the rows of starts. -/
theorem isStart_iff :
    event ∈ events.rows ∧ isStart lib events sessionId parentConversationId event = true ↔
      event ∈ agentRows lib sessionId parentConversationId events ∧
        event.type = "agent.started" := by
  simp only [mem_agentRows, isStart, isAgentRow, isAgentEvent, Bool.and_eq_true, beq_iff_eq,
    Bool.or_eq_true]
  constructor
  · rintro ⟨hevent, ⟨⟨hsession, htype⟩, hparent⟩, hrowid⟩
    exact ⟨⟨hevent, ⟨⟨hsession, .inl htype⟩, hparent⟩, hrowid⟩, htype⟩
  · rintro ⟨⟨hevent, ⟨⟨hsession, _⟩, hparent⟩, hrowid⟩, htype⟩
    exact ⟨hevent, ⟨⟨hsession, htype⟩, hparent⟩, hrowid⟩

/-! ## What is read of the rows -/

theorem mapM_asText {rows : List EventRow} (h : ∀ row ∈ rows, (nameOf lib row).isSome) :
    (rows.filterMap fun event => jsonExtract event.payload ["agentCodename"]).mapM (asText lib) =
      some (rows.filterMap (nameOf lib)) := by
  induction rows with
  | nil => rfl
  | cons row rows ih =>
    have ⟨hrow, hrows⟩ := List.forall_mem_cons.mp h
    have ⟨name, hname⟩ := Option.isSome_iff_exists.mp hrow
    have ⟨value, hvalue, htext⟩ := Option.bind_eq_some_iff.mp hname
    simp [hvalue, hname, htext, ih hrows]

/-- The names that are taken are those of the starts, and no more than there are agents. -/
theorem takenCodenames_spec (h : Named lib sessionId parentConversationId events) :
    ∃ taken, takenCodenames lib events sessionId parentConversationId = some taken ∧
      (∀ row ∈ agentRows lib sessionId parentConversationId events,
        ∀ name ∈ nameOf lib row, name ∈ taken) ∧
      taken.length ≤ (children lib sessionId parentConversationId events).length := by
  have hnames : ∀ row ∈ events.rows.filter (isStart lib events sessionId parentConversationId),
      (nameOf lib row).isSome := by
    intro row hrow
    have ⟨_, name, _, _, hname⟩ := h.known row (isStart_iff.mp (List.mem_filter.mp hrow)).1
    simp [hname]
  refine ⟨_, by rw [takenCodenames, mapM_asText hnames]; rfl, ?_, ?_⟩
  · intro row hrow name hname
    have ⟨start, hstart, htype, hchild⟩ := h.started row hrow
    refine List.mem_dedup.mpr (List.mem_filterMap.mpr ⟨start, ?_, ?_⟩)
    · exact List.mem_filter.mpr (isStart_iff.mpr ⟨hstart, htype⟩)
    · rw [h.same start hstart row hrow hchild]
      exact hname
  · -- a name is that of an agent
    let agentName : String → Option String := fun child =>
      ((agentRows lib sessionId parentConversationId events).find? fun row =>
        childOf lib row == some child).bind (nameOf lib)
    have hsubset : ((events.rows.filter
        (isStart lib events sessionId parentConversationId)).filterMap (nameOf lib)).dedup ⊆
          (children lib sessionId parentConversationId events).filterMap agentName := by
      intro name hname
      have ⟨start, hstart, hnamed⟩ := List.mem_filterMap.mp (List.mem_dedup.mp hname)
      have hrow := (isStart_iff.mp (List.mem_filter.mp hstart)).1
      have ⟨child, _, _, hchild, _⟩ := h.known start hrow
      refine List.mem_filterMap.mpr ⟨child,
        List.mem_dedup.mpr (List.mem_filterMap.mpr ⟨start, hrow, hchild⟩), ?_⟩
      cases hfind : (agentRows lib sessionId parentConversationId events).find? fun row =>
          childOf lib row == some child with
      | none => simpa [hchild] using List.find?_eq_none.mp hfind start hrow
      | some found =>
        have hfound : childOf lib found = some child := by simpa using List.find?_some hfind
        have hsame := h.same found (List.mem_of_find?_eq_some hfind) start hrow
          (hfound.trans hchild.symm)
        simp [agentName, hfind, hsame, hnamed]
    exact ((List.subperm_of_subset (List.nodup_dedup _) hsubset).length_le).trans
      (List.length_filterMap_le _ _)

theorem mem_childStarts :
    event ∈ childStarts lib events sessionId parentConversationId childId ↔
      event ∈ agentRows lib sessionId parentConversationId events ∧
        event.type = "agent.started" ∧ childOf lib event = some childId := by
  rw [childStarts, List.mem_filter, Bool.and_eq_true, ← and_assoc, isStart_iff, and_assoc,
    beq_iff_eq]
  rfl

theorem firstStart_eq_none :
    firstStart lib events sessionId parentConversationId childId = none ↔
      childStarts lib events sessionId parentConversationId childId = [] := by
  rw [firstStart, List.head?_eq_none_iff, List.eq_nil_iff_forall_not_mem,
    List.eq_nil_iff_forall_not_mem]
  simp

theorem mem_of_firstStart
    (h : firstStart lib events sessionId parentConversationId childId = some event) :
    event ∈ childStarts lib events sessionId parentConversationId childId :=
  List.mem_mergeSort.mp (List.mem_of_head? h)

/-- The child of a row has an identity, and it has the name of the row. -/
theorem existingIdentity_of_mem (h : Named lib sessionId parentConversationId events)
    (hrow : row ∈ agentRows lib sessionId parentConversationId events)
    (hchild : childOf lib row = some childId) :
    ∃ run, ∃ name ∈ nameOf lib row, existingIdentity lib events sessionId parentConversationId
      childId = some (some (run, some name)) := by
  have ⟨start, hstart, htype, hsameChild⟩ := h.started row hrow
  have hmem := mem_childStarts.mpr ⟨hstart, htype, hsameChild.trans hchild⟩
  cases hfirst : firstStart lib events sessionId parentConversationId childId with
  | none =>
    rw [firstStart_eq_none.mp hfirst] at hmem
    cases hmem
  | some found =>
    have ⟨hfound, hfoundType, hfoundChild⟩ := mem_childStarts.mp (mem_of_firstStart hfirst)
    have hname := h.same found hfound row hrow (hfoundChild.trans hchild.symm)
    have ⟨_, name, _, _, hnamed⟩ := h.known found hfound
    have ⟨run, hrun⟩ := Option.isSome_iff_exists.mp (h.run found hfound hfoundType)
    have ⟨value, hvalue, hvalueText⟩ := Option.bind_eq_some_iff.mp hnamed
    have hoptional : optionalTextAt lib found.payload "agentCodename" = some (some name) := by
      simp [optionalTextAt, hvalue, hvalueText]
    refine ⟨run, name, hname ▸ hnamed, ?_⟩
    simp [existingIdentity, hfirst, hrun, hoptional]

theorem existingIdentity_of_new
    (h : ∀ row ∈ agentRows lib sessionId parentConversationId events,
      childOf lib row ≠ some childId) :
    existingIdentity lib events sessionId parentConversationId childId = some none := by
  have hnil : childStarts lib events sessionId parentConversationId childId = [] := by
    rw [List.eq_nil_iff_forall_not_mem]
    intro row hrow
    have ⟨hmem, _, hchild⟩ := mem_childStarts.mp hrow
    exact h row hmem hchild
  rw [existingIdentity, firstStart_eq_none.mpr hnil]

/-! ## Storing an event -/

/-- The name that an event is stored with: that of its child, or a new one. -/
theorem enrichAgent_spec (h : Named lib sessionId parentConversationId events)
    (childId runId : String) (fields : List (String × Json)) :
    ∃ root, ∃ name ∈ agentCodenames,
      enrichAgent lib events sessionId parentConversationId childId runId fields =
        some (withIdentity fields root (some name)) ∧
      (∀ row ∈ agentRows lib sessionId parentConversationId events,
        childOf lib row = some childId → nameOf lib row = some name) ∧
      ((∀ row ∈ agentRows lib sessionId parentConversationId events,
          childOf lib row ≠ some childId) →
        (children lib sessionId parentConversationId events).length < agentCodenames.length →
          ∀ row ∈ agentRows lib sessionId parentConversationId events,
            nameOf lib row ≠ some name) := by
  by_cases hold : ∃ row ∈ agentRows lib sessionId parentConversationId events,
      childOf lib row = some childId
  case pos =>
    have ⟨row, hrow, hrowChild⟩ := hold
    have ⟨run, name, hname, hidentity⟩ := existingIdentity_of_mem h hrow hrowChild
    have ⟨_, known, hknown, _, hnamed⟩ := h.known row hrow
    have hsame : name = known := Option.some.inj (hname.symm.trans hnamed)
    refine ⟨run, name, hsame ▸ hknown, ?_, ?_, fun hnew => absurd hrowChild (hnew row hrow)⟩
    · simp [enrichAgent, hidentity, agentCodename]
    · intro other hother hotherChild
      exact (h.same other hother row hrow (hotherChild.trans hrowChild.symm)).trans hname
  case neg =>
    have hnew : ∀ row ∈ agentRows lib sessionId parentConversationId events,
        childOf lib row ≠ some childId := fun row hrow hchild => hold ⟨row, hrow, hchild⟩
    have ⟨taken, htaken, hmem, hlength⟩ := takenCodenames_spec h
    have ⟨name, hname, hchosen, hfree⟩ :=
      chooseCodename_spec nodup_agentCodenames (by simp [agentCodenames]) taken runId
    have hassigned : assignNativeAgentCodename lib events sessionId parentConversationId runId =
        some (some name) := by
      have hcatalog : agentCodenames.isEmpty = false := rfl
      simp [assignNativeAgentCodename, htaken, hchosen, hcatalog]
    refine ⟨runId, name, hname, ?_, fun row hrow hchild => absurd hchild (hnew row hrow), ?_⟩
    · simp [enrichAgent, existingIdentity_of_new hnew, agentCodename, hassigned]
    · intro _ hroom row hrow hrowName
      exact hfree (hlength.trans_lt hroom) (hmem row hrow name hrowName)

theorem enrich_registered {input : PersistTimelineEventInput}
    (htype : isAgentEvent input.type = true) (hpayload : input.payload = .object fields)
    (hparent : input.payload.get "providerParentConversationId" = some (.string parentConversationId))
    (hchild : input.payload.get "providerChildSessionId" = some (.string childId))
    (hcurrent : currentNativeAgentParentConversationId state input.sessionId =
      some parentConversationId) :
    enrichNativeAgentEvent lib state input = enrichAgent lib state.events input.sessionId
      parentConversationId childId (((input.payload.get "agentRunId").bind Json.asStr).getD "")
        fields := by
  rw [hpayload] at hparent hchild ⊢
  simp [enrichNativeAgentEvent, htype, hpayload, hparent, hchild, hcurrent, Json.asStr]

/-! ## A new row -/

theorem rows_persistTimelineEvent {id type message : String}
    (h : persistTimelineEvent events id sessionId type message payload = some events') :
    events'.rows = events.rows ++ [⟨nextRowid events, id, sessionId, type, message, payload⟩] := by
  have ⟨_, hpush⟩ := Table.insert?_eq_some.mp h
  rw [hpush]
  rfl

theorem foldr_rowid_max (rows : List EventRow) (n : ℕ) :
    rows.foldr (fun event newest => max event.rowid newest) n =
      max (rows.foldr (fun event newest => max event.rowid newest) 0) n := by
  induction rows with
  | nil => simp
  | cons row rows ih => rw [List.foldr_cons, List.foldr_cons, ih, Nat.max_assoc]

/-- The boundary stands before a new row. -/
theorem agentTurnBoundary_lt (events : EventTable) (sessionId : String) :
    agentTurnBoundary events sessionId < nextRowid events := by
  have hle (rows : List EventRow) (n : ℕ) (h : ∀ row ∈ rows, row.rowid < n + 1) :
      rows.foldr (fun event newest => max event.rowid newest) 0 ≤ n := by
    induction rows with
    | nil => exact Nat.zero_le n
    | cons row rows ih =>
      have ⟨hrow, hrows⟩ := List.forall_mem_cons.mp h
      exact Nat.max_le.mpr ⟨Nat.le_of_lt_succ hrow, ih hrows⟩
  refine Nat.lt_succ_of_le (hle _ _ fun row hrow => ?_)
  exact rowid_lt_nextRowid (List.mem_of_mem_filter hrow)

/-- The row is a boundary of the session. -/
def isBoundary (sessionId : String) (event : EventRow) : Bool :=
  event.sessionId == sessionId &&
    ["session.cleared", "session.provider-changed"].contains event.type

theorem agentTurnBoundary_push (hrows : events'.rows = events.rows ++ [row])
    (hrowid : row.rowid = nextRowid events) :
    agentTurnBoundary events' sessionId =
      if isBoundary sessionId row then row.rowid else agentTurnBoundary events sessionId := by
  have hlt := agentTurnBoundary_lt events sessionId
  have hnew : agentTurnBoundary events' sessionId = max (agentTurnBoundary events sessionId)
      (([row].filter (isBoundary sessionId)).foldr (fun event newest => max event.rowid newest) 0) := by
    rw [agentTurnBoundary, hrows, List.filter_append, List.foldr_append, foldr_rowid_max]
    rfl
  rw [hnew]
  cases hboundary : isBoundary sessionId row with
  | true =>
    rw [List.filter_cons_of_pos hboundary, List.filter_nil, List.foldr_cons, List.foldr_nil,
      if_pos rfl]
    omega
  | false => simp [hboundary]

theorem agentRows_of_boundary (hrows : events'.rows = events.rows ++ [row])
    (hrowid : row.rowid = nextRowid events) (h : isBoundary sessionId row = true) :
    agentRows lib sessionId parentConversationId events' = [] := by
  rw [agentRows, List.filter_eq_nil_iff, hrows]
  intro other hother hagent
  rw [isAgentRow, agentTurnBoundary_push hrows hrowid, if_pos h, Bool.and_eq_true,
    decide_eq_true_eq] at hagent
  rcases List.mem_append.mp hother with hold | hnew
  · have hlt := rowid_lt_nextRowid (Table.mem_def.mpr hold)
    omega
  · rw [List.mem_singleton.mp hnew] at hagent
    omega

/-- The row is about an agent of the conversation. -/
def ofConversation (lib : Library) (sessionId parentConversationId : String) (event : EventRow) :
    Bool :=
  event.sessionId == sessionId && isAgentEvent event.type &&
    textAt lib event.payload "providerParentConversationId" == some parentConversationId

theorem agentRows_push {events events' : EventTable} {row : EventRow}
    (hrows : events'.rows = events.rows ++ [row]) (hrowid : row.rowid = nextRowid events)
    (h : isBoundary sessionId row = false) :
    agentRows lib sessionId parentConversationId events' =
      agentRows lib sessionId parentConversationId events ++
        [row].filter (ofConversation lib sessionId parentConversationId) := by
  have hboundary : agentTurnBoundary events' sessionId = agentTurnBoundary events sessionId := by
    rw [agentTurnBoundary_push hrows hrowid, h, if_neg Bool.false_ne_true]
  have hlt := agentTurnBoundary_lt events sessionId
  have hsame : isAgentRow lib sessionId parentConversationId events' =
      isAgentRow lib sessionId parentConversationId events := by
    ext event
    simp [isAgentRow, hboundary]
  have hnew : isAgentRow lib sessionId parentConversationId events row =
      ofConversation lib sessionId parentConversationId row := by
    rw [isAgentRow, decide_eq_true (hrowid ▸ hlt), Bool.and_true, ofConversation]
  rw [agentRows, hrows, List.filter_append, hsame, List.filter_singleton, List.filter_singleton,
    hnew, agentRows]

/-! ## Registered events -/

variable (lib sessionId parentConversationId)

/-- An event about an agent of the conversation names its child, and its run when it starts,
is stored while the conversation is the session's, and has a start when it completes. -/
def Registered (state : State) : Action → Prop
  | .setSession _ _ => True
  | .persist input =>
    input.sessionId = sessionId → isAgentEvent input.type = true →
      textAt lib input.payload "providerParentConversationId" = some parentConversationId →
        currentNativeAgentParentConversationId state sessionId = some parentConversationId ∧
        ∃ fields childId, input.payload = .object fields ∧
          input.payload.get "providerParentConversationId" = some (.string parentConversationId) ∧
          input.payload.get "providerChildSessionId" = some (.string childId) ∧
          (input.type = "agent.started" →
            ∃ runId, input.payload.get "agentRunId" = some (.string runId)) ∧
          (input.type = "agent.completed" →
            ∃ start ∈ agentRows lib sessionId parentConversationId state.events,
              start.type = "agent.started" ∧ childOf lib start = some childId)

variable {lib sessionId parentConversationId}

theorem textAt_string {field value : String} (h : payload.get field = some (.string value)) :
    textAt lib payload field = some value := by
  simp [textAt, jsonExtract, h, asText]

/-- The identity leaves the other fields as they were. -/
theorem get_withIdentity {root field : String} {codename : Option String}
    (hroot : field ≠ "agentRootToolUseId") (hname : field ≠ "agentCodename") :
    (withIdentity fields root codename).get field = (Json.object fields).get field := by
  have hfields : (Json.object (if root.isEmpty then fields
      else Json.insertField "agentRootToolUseId" (.string root) fields)).get field =
        (Json.object fields).get field := by
    split
    · rfl
    · exact Json.get_insertField_of_ne _ hroot _
  cases codename with
  | none => exact hfields
  | some name => exact (Json.get_insertField_of_ne _ hname _).trans hfields

theorem textAt_withIdentity {root field : String} {codename : Option String}
    (hroot : field ≠ "agentRootToolUseId") (hname : field ≠ "agentCodename") :
    textAt lib (withIdentity fields root codename) field = textAt lib (.object fields) field := by
  simp only [textAt, jsonExtract, get_withIdentity hroot hname]

theorem name_withIdentity (fields : List (String × Json)) (root name : String) :
    textAt lib (withIdentity fields root (some name)) "agentCodename" = some name := by
  refine textAt_string ?_
  exact Json.get_insertField_self _ _ _

theorem enrichAgent_eq_some {runId : String}
    (h : enrichAgent lib events sessionId parentConversationId childId runId fields =
      some payload) : ∃ root codename, payload = withIdentity fields root codename := by
  have ⟨identity, _, hrest⟩ := Option.bind_eq_some_iff.mp h
  have ⟨codename, _, hpayload⟩ := Option.bind_eq_some_iff.mp hrest
  exact ⟨_, _, (Option.some.inj hpayload).symm⟩

/-- An agent event is stored under the parent conversation that it came with. -/
theorem parent_of_enrich {input : PersistTimelineEventInput}
    (htype : isAgentEvent input.type = true)
    (h : enrichNativeAgentEvent lib state input = some payload) :
    textAt lib payload "providerParentConversationId" =
      textAt lib input.payload "providerParentConversationId" := by
  rw [enrichNativeAgentEvent, htype, Bool.not_true, if_neg Bool.false_ne_true] at h
  split at h
  case h_1 fields hfields =>
    split at h
    case h_1 =>
      split at h
      case isTrue => rw [Option.some.inj h]
      case isFalse =>
        have ⟨root, codename, hpayload⟩ := enrichAgent_eq_some h
        rw [hpayload, hfields]
        exact textAt_withIdentity (by decide) (by decide)
    case h_2 => rw [Option.some.inj h]
  case h_2 => rw [Option.some.inj h]

/-- One more row, of an agent that keeps its name or of a new one. -/
theorem Named.push {name : String} (h : Named lib sessionId parentConversationId events)
    (hrows : agentRows lib sessionId parentConversationId events' =
      agentRows lib sessionId parentConversationId events ++ [row])
    (hchild : childOf lib row = some childId) (hname : nameOf lib row = some name)
    (hcatalog : name ∈ agentCodenames)
    (hrun : row.type = "agent.started" → (textAt lib row.payload "agentRunId").isSome)
    (hstarted : row.type = "agent.started" ∨
      ∃ start ∈ agentRows lib sessionId parentConversationId events,
        start.type = "agent.started" ∧ childOf lib start = some childId)
    (hsame : ∀ other ∈ agentRows lib sessionId parentConversationId events,
      childOf lib other = some childId → nameOf lib other = some name)
    (hapart : (∀ other ∈ agentRows lib sessionId parentConversationId events,
        childOf lib other ≠ some childId) →
      (children lib sessionId parentConversationId events).length < agentCodenames.length →
        ∀ other ∈ agentRows lib sessionId parentConversationId events,
          nameOf lib other ≠ some name) : Named lib sessionId parentConversationId events' := by
  have hmem {other : EventRow} : other ∈ agentRows lib sessionId parentConversationId events' ↔
      other ∈ agentRows lib sessionId parentConversationId events ∨ other = row := by
    rw [hrows, List.mem_append, List.mem_singleton]
  have hchildren : children lib sessionId parentConversationId events' =
      ((agentRows lib sessionId parentConversationId events).filterMap (childOf lib) ++
        [childId]).dedup := by
    rw [children, hrows, List.filterMap_append, List.filterMap_cons_some hchild, List.filterMap_nil]
  have hmore : children lib sessionId parentConversationId events ⊆
      children lib sessionId parentConversationId events' := by
    intro child hin
    rw [hchildren, List.mem_dedup]
    exact List.mem_append_left _ (List.mem_dedup.mp hin)
  have hgrow := (List.subperm_of_subset (List.nodup_dedup _) hmore).length_le
  -- the name of an old row is the new one's only when the child is
  have hcross (hroom : (children lib sessionId parentConversationId events').length ≤
      agentCodenames.length) {other : EventRow}
      (hother : other ∈ agentRows lib sessionId parentConversationId events)
      (hotherName : nameOf lib other = some name) : childOf lib other = some childId := by
    by_cases hold : ∃ known ∈ agentRows lib sessionId parentConversationId events,
        childOf lib known = some childId
    case pos =>
      have ⟨known, hknown, hknownChild⟩ := hold
      have hknownName := hsame known hknown hknownChild
      exact (h.apart (hgrow.trans hroom) other hother known hknown
        (hotherName.trans hknownName.symm)).trans hknownChild
    case neg =>
      have hnew : ∀ known ∈ agentRows lib sessionId parentConversationId events,
          childOf lib known ≠ some childId := fun known hknown hc => hold ⟨known, hknown, hc⟩
      have hfresh : childId ∉ children lib sessionId parentConversationId events := by
        intro hin
        have ⟨known, hknown, hc⟩ := List.mem_filterMap.mp (List.mem_dedup.mp hin)
        exact hnew known hknown hc
      have hin : childId ∈ children lib sessionId parentConversationId events' := by
        rw [hchildren, List.mem_dedup]
        exact List.mem_append_right _ (List.mem_singleton_self _)
      have hlength := (List.subperm_of_subset
        (List.nodup_cons.mpr ⟨hfresh, List.nodup_dedup _⟩)
        (List.cons_subset.mpr ⟨hin, hmore⟩)).length_le
      rw [List.length_cons] at hlength
      exact absurd hotherName (hapart hnew (by omega) other hother)
  exact
    { known := fun other hother => by
        rcases hmem.mp hother with hold | rfl
        · exact h.known other hold
        · exact ⟨childId, name, hcatalog, hchild, hname⟩
      run := fun other hother htype => by
        rcases hmem.mp hother with hold | rfl
        · exact h.run other hold htype
        · exact hrun htype
      started := fun other hother => by
        rcases hmem.mp hother with hold | rfl
        · have ⟨start, hstart, hrest⟩ := h.started other hold
          exact ⟨start, hmem.mpr (.inl hstart), hrest⟩
        · rcases hstarted with htype | ⟨start, hstart, htype, hc⟩
          · exact ⟨other, hother, htype, rfl⟩
          · exact ⟨start, hmem.mpr (.inl hstart), htype, hc.trans hchild.symm⟩
      same := fun other hother other' hother' heq => by
        rcases hmem.mp hother with hold | rfl <;> rcases hmem.mp hother' with hold' | rfl
        · exact h.same other hold other' hold' heq
        · exact (hsame other hold (heq.trans hchild)).trans hname.symm
        · exact hname.trans (hsame other' hold' (heq.symm.trans hchild)).symm
        · rfl
      apart := fun hroom other hother other' hother' heq => by
        rcases hmem.mp hother with hold | rfl <;> rcases hmem.mp hother' with hold' | rfl
        · exact h.apart (hgrow.trans hroom) other hold other' hold' heq
        · exact (hcross hroom hold (heq.trans hname)).trans hchild.symm
        · exact hchild.trans (hcross hroom hold' (heq.symm.trans hname)).symm
        · rfl }

theorem Named.of_nil (h : agentRows lib sessionId parentConversationId events = []) :
    Named lib sessionId parentConversationId events := by
  constructor <;> simp [h]

theorem Named.congr (h : Named lib sessionId parentConversationId events)
    (hrows : agentRows lib sessionId parentConversationId events' =
      agentRows lib sessionId parentConversationId events) :
    Named lib sessionId parentConversationId events' := by
  have ⟨hknown, hrun, hstarted, hsame, hapart⟩ := h
  rw [children, ← hrows] at hapart
  rw [← hrows] at hknown hrun hstarted hsame
  exact ⟨hknown, hrun, hstarted, hsame, hapart⟩

/-- A new row in the conversation is one of a registered event. -/
theorem Named.persist {input : PersistTimelineEventInput}
    (h : Named lib sessionId parentConversationId state.events)
    (hreg : Registered lib sessionId parentConversationId state (.persist input))
    (henrich : enrichNativeAgentEvent lib state input = some payload)
    (hpersist : persistTimelineEvent state.events input.id input.sessionId input.type input.message
      payload = some events') : Named lib sessionId parentConversationId events' := by
  have hrows := rows_persistTimelineEvent hpersist
  generalize hrow : EventRow.mk (nextRowid state.events) input.id input.sessionId input.type
    input.message payload = row at hrows
  have hrowid : row.rowid = nextRowid state.events := by rw [← hrow]
  have hpayload : row.payload = payload := by rw [← hrow]
  have htype : row.type = input.type := by rw [← hrow]
  have hsession : row.sessionId = input.sessionId := by rw [← hrow]
  cases hboundary : isBoundary sessionId row with
  | true => exact .of_nil (agentRows_of_boundary hrows hrowid hboundary)
  | false =>
    have hpush := @agentRows_push lib sessionId parentConversationId _ _ _ hrows hrowid hboundary
    rw [List.filter_singleton] at hpush
    cases hof : ofConversation lib sessionId parentConversationId row with
    | false =>
      rw [hof, cond_false, List.append_nil] at hpush
      exact h.congr hpush
    | true =>
      rw [hof] at hpush
      simp only [ofConversation, Bool.and_eq_true, beq_iff_eq, hsession, htype, hpayload] at hof
      obtain ⟨⟨hinSession, hagent⟩, hparent⟩ := hof
      rw [parent_of_enrich hagent henrich] at hparent
      obtain ⟨hcurrent, fields, childId, hfields, hparentField, hchildField, hrun, hdone⟩ :=
        hreg hinSession hagent hparent
      rw [← hinSession] at hcurrent
      rw [enrich_registered hagent hfields hparentField hchildField hcurrent, hinSession] at henrich
      obtain ⟨root, name, hcatalog, hname, hsame, hapart⟩ := enrichAgent_spec h childId
        (((input.payload.get "agentRunId").bind Json.asStr).getD "") fields
      rw [hname] at henrich
      have hstored : row.payload = withIdentity fields root (some name) :=
        hpayload.trans (Option.some.inj henrich).symm
      rw [hfields] at hchildField hrun
      refine h.push hpush ?_ ?_ hcatalog ?_ ?_ hsame hapart
      · rw [childOf, hstored, textAt_withIdentity (by decide) (by decide)]
        exact textAt_string hchildField
      · rw [nameOf, hstored]
        exact name_withIdentity fields root name
      · intro hstart
        obtain ⟨runId, hrunId⟩ := hrun (htype.symm.trans hstart)
        rw [hstored, textAt_withIdentity (by decide) (by decide), textAt_string hrunId]
        rfl
      · rw [htype]
        have heither : input.type = "agent.started" ∨ input.type = "agent.completed" := by
          simpa [isAgentEvent] using hagent
        exact heither.imp_right hdone

end Rows

/-! ## More agents than names -/

section Full

def plainLibrary : Library := ⟨fun _ => "json"⟩

def openSession : State where
  events := .empty
  sessions := fun _ => some ⟨"codex", some "thread", false⟩

end Full

end Argmax.Persistence.AgentCodenames
