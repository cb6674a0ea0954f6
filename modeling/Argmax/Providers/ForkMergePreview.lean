import Argmax.Providers.ForkMergeDraft
import Argmax.Providers.ForkMergeGaps

/-!
# What a preview offers can be claimed

`preview` of `providers/fork_merge.rs` shows what a click would send: the first range that no
live claim holds, and its draft. A click names the event that the preview showed. It is
answered as stale unless that event is visible, and the message it sends has no message of
the fork when all those of the newest rows are blank. A gap below a claim may end in an event
that a clear has hidden.
-/

namespace Argmax.Providers.ForkMerge

open Argmax.Lib Argmax.Lib.Text Argmax.Persistence

/-! ## Previews -/

structure ForkMergePreview where
  forkId : String
  childSessionId : String
  sourceSessionId : String
  childLabel : String
  sourceLabel : String
  boundaryExcerpt : Option String
  throughEventId : Option String
  newMessageCount : ℕ
  shownMessageCount : ℕ
  truncated : Bool
  text : String
  nothingNew : Bool
  childActive : Bool
  sourceBusy : Bool
  unconfirmedMergeId : Option String
  lastMergedThroughEventId : Option String

/-- `latest_merge`: the claim that reaches furthest. An event that is gone comes last. -/
def latestMerge (s : State) (forkId : String) : Option ForkMerge :=
  let reach := fun merge : ForkMerge => (eventRowid s.events merge.throughEventId).elim 0 (· + 1)
  ((s.merges.rows.filter fun merge => merge.forkId == forkId).mergeSort
    fun a b => decide (reach b ≤ reach a)).head?

def preview (s : State) (childSessionId : String) : ArgmaxResult ForkMergePreview :=
  match forkForChild s.forks childSessionId with
  | none =>
    .error (.service "FORK_NOT_FOUND" "This chat was not forked from another chat.")
  | some fork =>
    match fork.sourceSessionId with
    | none =>
      .error (.service "FORK_SOURCE_GONE" "The chat this one was forked from no longer exists.")
    | some sourceSessionId =>
      match s.sessions.find? fork.childSessionId with
      | none => .error (.recordNotFound "session" fork.childSessionId)
      | some child =>
        match s.sessions.find? sourceSessionId with
        | none => .error (.recordNotFound "session" sourceSessionId)
        | some source =>
          let claims := liveClaims s fork
          (pendingRange s fork claims).map fun range =>
            let drafted := range.map fun range => draft s fork range child.taskLabel
            { forkId := fork.id
              childSessionId := fork.childSessionId
              sourceSessionId := sourceSessionId
              childLabel := child.taskLabel
              sourceLabel := source.taskLabel
              boundaryExcerpt := ForkMerge.boundaryExcerpt s fork
              throughEventId := range.map (·.throughEventId)
              newMessageCount := drafted.elim 0 (·.newMessageCount)
              shownMessageCount := drafted.elim 0 (·.shown)
              truncated := drafted.any (·.truncated)
              text := drafted.elim "" (·.text)
              nothingNew := drafted.isNone
              childActive := isActive child.state
              sourceBusy := isActive source.state
              unconfirmedMergeId := (claims.find? (·.sending)).map (·.merge.id)
              lastMergedThroughEventId := (latestMerge s fork.id).map (·.throughEventId) }

/-- A click on what was shown, with no step in between, claims a range, and its message
carries a message of the fork. -/
def OfferKept (s : State) (fork : ForkRecord) (childSessionId throughEventId : String) : Prop :=
  ∀ options id now, (∀ merge ∈ s.merges, merge.id ≠ id) →
    ∃ source label text, (claimRange s childSessionId throughEventId options id now).2 =
        .ok (.claimed source fork.childSessionId label id text) ∧
      ∃ event ∈ (claimRange s childSessionId throughEventId options id now).1.carried id,
        Visible s fork event

/-- The first gap ends in a visible event, and one of its newest messages is not blank. -/
def GapCarries (s : State) (fork : ForkRecord) : Prop :=
  ∀ base, Place s fork fork.childBaseEventId base →
    ∀ range, FirstGap s fork (liveClaims s fork) base range →
      isVisibleEvent s.events fork.childSessionId range.throughEventId = true ∧
        ∃ event ∈ (visibleRows s fork range).rtake mergeMaxMessages, trim event.message.toList ≠ []

/-! ## Rows have their own places -/

/-- The rowid is a key. -/
def RowidsDistinct (events : EventTable) : Prop := (events.rows.map (·.rowid)).Nodup

theorem RowidsDistinct.eq {events : EventTable} (h : RowidsDistinct events) {event other : EventRow}
    (hevent : event ∈ events) (hother : other ∈ events) (heq : event.rowid = other.rowid) :
    event = other :=
  List.inj_on_of_nodup_map h hevent hother heq

variable {events : EventTable} {s : State} {fork : ForkRecord} {range : MergeRange}

theorem RowidsDistinct.persist {events' : EventTable} (h : RowidsDistinct events)
    {id sessionId type message : String} {payload : Json}
    (hpersist : persistTimelineEvent events id sessionId type message payload = some events') :
    RowidsDistinct events' := by
  obtain ⟨hfree, rfl⟩ := Table.insert?_eq_some.mp hpersist
  rw [RowidsDistinct, Table.push, List.map_append]
  refine List.Nodup.append h (List.nodup_singleton _) ?_
  intro rowid hrowid hlast
  obtain ⟨event, hevent, rfl⟩ := List.mem_map.mp hrowid
  have hlt : event.rowid < nextRowid events := rowid_lt_nextRowid hevent
  simp only [List.map_cons, List.map_nil, List.mem_singleton] at hlast
  omega

/-! ## Claims hold something -/

/-- Every claim holds a row at least. -/
structure Filled (s : State) : Prop where
  lt : ∀ merge ∈ s.merges, ∀ a b, Spans s merge a b → a < b

theorem Filled.frame {s' : State} (hs : Invariant s) (h : Filled s) (hforks : s'.forks = s.forks)
    (hevents : ∀ event ∈ s.events, event ∈ s'.events)
    (hmerges : ∀ merge' ∈ s'.merges, ∃ merge ∈ s.merges, SameClaim merge merge') : Filled s' := by
  refine ⟨fun merge' hmerge' a b hspan => ?_⟩
  obtain ⟨merge, hmerge, hsame⟩ := hmerges merge' hmerge'
  obtain ⟨hfork, a', b', hold⟩ := hs.spans merge hmerge
  obtain ⟨rfl, rfl⟩ := hold.eq hforks hevents hsame hfork hspan
  exact h.lt merge hmerge _ _ hold

/-- What is found is the first gap past a known base. -/
theorem firstGap_of_pendingRange (h : pendingRange s fork (liveClaims s fork) = .ok (some range)) :
    ∃ base, Place s fork fork.childBaseEventId base ∧
      FirstGap s fork (liveClaims s fork) base range := by
  have hbase : ∃ base, Place s fork fork.childBaseEventId base := by
    rw [pendingRange] at h
    cases hevent : fork.childBaseEventId with
    | none => exact ⟨0, hevent, rfl⟩
    | some eventId =>
      cases hrow : eventRowid s.events eventId with
      | none => simp [hevent, hrow, Except.map] at h
      | some rowid => exact ⟨rowid, hrow⟩
  obtain ⟨base, hplace⟩ := hbase
  rcases pendingRange_gap (fun _ => placed_of_mem_liveClaims) hplace with
    ⟨range', hrange', hgap⟩ | ⟨hnone, -⟩
  · rw [h] at hrange'
    obtain rfl : range = range' := by simpa using hrange'
    exact ⟨base, hplace, hgap⟩
  · simp [h] at hnone

/-- What `claim_range` does to the state: at most one row is added, for the open range up to
what was asked. -/
theorem claimRange_state (s : State) (childSessionId throughEventId : String)
    (options : ClaimOptions) (id now : String) :
    let s' := (claimRange s childSessionId throughEventId options id now).1
    s'.forks = s.forks ∧ s'.events = s.events ∧
      ((∀ merge' ∈ s'.merges, ∃ merge ∈ s.merges, SameClaim merge merge') ∨
        ∃ fork ∈ s.forks, ∃ (range : MergeRange) (claim : ForkMerge),
          Place s fork range.fromEventId range.fromRowid ∧
          eventRowid s.events range.throughEventId = some range.throughRowid ∧
          range.fromRowid < range.throughRowid ∧
          reserveMerge (settleMerges s fork) fork.id range.fromEventId range.throughEventId id
            now = (s'.merges, some claim)) := by
  have hsame : ∀ merge ∈ s.merges, ∃ merge₀ ∈ s.merges, SameClaim merge₀ merge :=
    fun merge h => ⟨merge, h, .refl merge⟩
  unfold claimRange
  split
  · exact ⟨rfl, rfl, .inl hsame⟩
  rename_i fork hfind
  have hfork : fork ∈ s.forks := List.mem_of_find?_eq_some hfind
  have hsettled : ∀ merge' ∈ settleMerges s fork, ∃ merge ∈ s.merges, SameClaim merge merge' := by
    intro merge' hmerge'
    obtain ⟨merge, hmerge, hsame, -⟩ := mem_settleMerges hmerge'
    exact ⟨merge, hmerge, hsame⟩
  split
  · exact ⟨rfl, rfl, .inl hsame⟩
  split
  · exact ⟨rfl, rfl, .inl hsame⟩
  split
  · exact ⟨rfl, rfl, .inl hsame⟩
  dsimp only
  split
  · exact ⟨rfl, rfl, .inl hsettled⟩
  · exact ⟨rfl, rfl, .inl hsettled⟩
  rename_i range hrange
  obtain ⟨base, -, hgap⟩ := firstGap_of_pendingRange (s := s) hrange
  unfold claimOpen
  split
  · exact ⟨rfl, rfl, .inl hsettled⟩
  rename_i requested hrow
  dsimp only
  split
  · exact ⟨rfl, rfl, .inl hsettled⟩
  split
  · exact ⟨rfl, rfl, .inl hsettled⟩
  rename_i hpast
  split
  · rename_i merges hreserve
    rw [reserveMerge_eq_none hreserve]
    exact ⟨rfl, rfl, .inl hsettled⟩
  · rename_i merges claim hreserve
    refine ⟨rfl, rfl, .inr ⟨fork, hfork, range.upto throughEventId requested, claim, ?_, ?_, ?_,
      hreserve⟩⟩
    · unfold MergeRange.upto
      split <;> exact hgap.start
    · unfold MergeRange.upto
      split
      · exact hrow
      · exact hgap.through
    · unfold MergeRange.upto
      split
      · exact Nat.lt_of_not_le hpast
      · exact hgap.nonempty

theorem Filled.claimRange (hs : Invariant s) (h : Filled s) (childSessionId throughEventId : String)
    (options : ClaimOptions) (id now : String) :
    Filled (claimRange s childSessionId throughEventId options id now).1 := by
  obtain ⟨hforks, hevents, hrows | ⟨fork, hfork, range, claim, hstart, hthrough, hlt, hreserve⟩⟩ :=
    claimRange_state s childSessionId throughEventId options id now
  · exact h.frame hs hforks (fun event hevent => hevents ▸ hevent) hrows
  · obtain ⟨hclaim, hmem⟩ := reserveMerge_eq_some hreserve
    refine ⟨fun merge hmerge a b hspan => ?_⟩
    rcases (hmem merge).mp hmerge with hold | rfl
    · obtain ⟨merge₀, hmerge₀, hsame, -⟩ := mem_settleMerges hold
      obtain ⟨hown, a', b', hspan'⟩ := hs.spans merge₀ hmerge₀
      obtain ⟨rfl, rfl⟩ :=
        hspan'.eq hforks (fun event hevent => hevents ▸ hevent) hsame hown hspan
      exact h.lt merge₀ hmerge₀ _ _ hspan'
    · have hnew : Spans s merge range.fromRowid range.throughRowid := by
        refine ⟨fun fork' hfork' hid => ?_, ?_⟩
        · rw [hclaim] at hid ⊢
          obtain rfl : fork = fork' := Table.eq_of_key hfork hfork' hid
          exact hstart
        · rw [hclaim]
          exact hthrough
      have hown : ∃ fork ∈ s.forks, merge.forkId = fork.id := ⟨fork, hfork, by rw [hclaim]⟩
      obtain ⟨rfl, rfl⟩ :=
        hnew.eq hforks (fun event hevent => hevents ▸ hevent) (.refl merge) hown hspan
      exact hlt

/-! ## Every reachable state -/

/-- What holds of the ledger and the events in every state of a run. -/
structure Reached (s : State) : Prop where
  ledger : Invariant s
  filled : Filled s
  rowids : RowidsDistinct s.events

theorem Reached.step (h : Reached s) (act : Action) : Reached (step s act) := by
  have hsame : ∀ merge ∈ s.merges, ∃ merge₀ ∈ s.merges, SameClaim merge₀ merge :=
    fun merge h => ⟨merge, h, .refl merge⟩
  refine ⟨h.ledger.step act, ?_, ?_⟩
  · cases act with
    | claim childSessionId throughEventId options id now =>
      exact h.filled.claimRange h.ledger childSessionId throughEventId options id now
    | settle mergeId sent =>
      obtain ⟨hforks, hevents, -, hrows⟩ := settleClaim_state s mergeId sent
      exact h.filled.frame h.ledger hforks (fun event hevent => hevents ▸ hevent) hrows
    | event id sessionId type message payload =>
      refine h.filled.frame h.ledger rfl (fun event hevent => ?_) hsame
      change event ∈ Option.getD _ _
      cases hpersist : persistTimelineEvent s.events id sessionId type message payload with
      | none => exact hevent
      | some events' => exact mem_persistTimelineEvent hpersist event hevent
    | dropInFlight | pending | sessionState | restart =>
      exact h.filled.frame h.ledger rfl (fun _ h => h) hsame
  · cases act with
    | claim childSessionId throughEventId options id now =>
      have hevents := (claimRange_state s childSessionId throughEventId options id now).2.1
      exact (congrArg RowidsDistinct hevents).mpr h.rowids
    | settle mergeId sent =>
      exact (congrArg RowidsDistinct (settleClaim_state s mergeId sent).2.1).mpr h.rowids
    | event id sessionId type message payload =>
      change RowidsDistinct (Option.getD _ _)
      cases hpersist : persistTimelineEvent s.events id sessionId type message payload with
      | none => exact h.rowids
      | some events' => exact h.rowids.persist hpersist
    | dropInFlight | pending | sessionState | restart => exact h.rowids

theorem reached_start (forks : ForkTable) (sessions : Table SessionRow.id)
    (hrowids : RowidsDistinct events) (pending : PendingMessages.State) :
    Reached (start forks sessions events pending) :=
  ⟨Invariant.start forks sessions events pending,
    ⟨fun merge h => absurd h (Table.not_mem_empty merge)⟩, hrowids⟩

/-! ## The click -/

/-- Some identifier is new. -/
theorem exists_fresh (merges : MergeTable) : ∃ id, ∀ merge ∈ merges, merge.id ≠ id := by
  have hbound : ∀ rows : List ForkMerge, ∃ n, ∀ merge ∈ rows, merge.id.toList.length < n := by
    intro rows
    induction rows with
    | nil => exact ⟨0, by simp⟩
    | cons merge rows ih =>
      obtain ⟨n, hn⟩ := ih
      refine ⟨max (merge.id.toList.length + 1) n, fun other hother => ?_⟩
      rcases List.mem_cons.mp hother with rfl | hother
      · omega
      · have hlt := hn other hother
        omega
  obtain ⟨n, hn⟩ := hbound merges.rows
  refine ⟨String.ofList (List.replicate n 'x'), fun merge hmerge heq => ?_⟩
  have hlt := hn merge hmerge
  rw [heq, String.toList_ofList, List.length_replicate] at hlt
  exact lt_irrefl n hlt

/-- The first gap can be reserved: no claim reaches the same event. -/
theorem reserve_firstGap (h : Reached s) (hfork : fork ∈ s.forks) {base : ℕ}
    (hgap : FirstGap s fork (liveClaims s fork) base range) {id : String}
    (hid : ∀ merge ∈ s.merges, merge.id ≠ id) (now : String) :
    ∃ merges, reserveMerge (settleMerges s fork) fork.id range.fromEventId range.throughEventId id
      now = (merges, some ⟨id, id, fork.id, range.fromEventId, range.throughEventId, .sending,
        now⟩) := by
  have hnone : ((settleMerges s fork).rows.any fun merge =>
      merge.forkId == fork.id && merge.throughEventId == range.throughEventId) = false := by
    rw [List.any_eq_false]
    intro merge' hmerge' htaken
    simp only [Bool.and_eq_true, beq_iff_eq] at htaken
    obtain ⟨merge, hmerge, hsame, hkept⟩ := mem_settleMerges hmerge'
    have hown := hsame.fork.symm.trans htaken.1
    obtain ⟨-, a, b, hspan⟩ := h.ledger.spans merge hmerge
    have hthrough := hspan.through
    rw [← hsame.through, htaken.2, hgap.through] at hthrough
    obtain rfl := Option.some_inj.mp hthrough
    obtain ⟨claim, hclaim, hfrom, hto⟩ :=
      liveClaims_complete hfork hmerge hown hspan (hkept hown)
    have hlt := h.filled.lt merge hmerge _ _ hspan
    exact hgap.not_covered hgap.nonempty le_rfl ⟨claim, hclaim, by omega, by omega⟩
  have hfree : (settleMerges s fork).find? id = none := by
    rw [Table.find?_eq_none]
    intro merge' hmerge' heq
    obtain ⟨merge, hmerge, hsame, -⟩ := mem_settleMerges hmerge'
    exact hid merge hmerge (hsame.id.symm.trans heq)
  let claim : ForkMerge :=
    ⟨id, id, fork.id, range.fromEventId, range.throughEventId, .sending, now⟩
  have hinsert : (settleMerges s fork).insert? claim =
      some ((settleMerges s fork).push claim hfree) := dif_pos hfree
  refine ⟨(settleMerges s fork).push claim hfree, ?_⟩
  rw [reserveMerge, hnone, if_neg Bool.false_ne_true]
  rw [hinsert]

/-- What a preview that offers something rests on. -/
theorem preview_offer {childSessionId through : String} {offered : ForkMergePreview}
    (hfork : forkForChild s.forks childSessionId = some fork)
    (hpreview : preview s childSessionId = .ok offered)
    (hthrough : offered.throughEventId = some through) :
    ∃ source child range, fork.sourceSessionId = some source ∧
      s.sessions.find? fork.childSessionId = some child ∧
      offered.childActive = isActive child.state ∧
      pendingRange s fork (liveClaims s fork) = .ok (some range) ∧
      range.throughEventId = through := by
  rw [preview, hfork] at hpreview
  dsimp only at hpreview
  split at hpreview
  · cases hpreview
  rename_i source hsource
  split at hpreview
  · cases hpreview
  rename_i child hchild
  split at hpreview
  · cases hpreview
  cases hrange : pendingRange s fork (liveClaims s fork) with
  | error error => simp [hrange, Except.map] at hpreview
  | ok range =>
    simp only [hrange, Except.map, Except.ok.injEq] at hpreview
    subst hpreview
    obtain ⟨range, rfl, rfl⟩ := Option.map_eq_some_iff.mp hthrough
    exact ⟨source, child, range, hsource, hchild, rfl, rfl, rfl⟩

/-- The first gap past a base is one range of rows. -/
theorem FirstGap.through_unique {claims : List LiveClaim} (hrowids : RowidsDistinct s.events)
    {base : ℕ} {range' : MergeRange} (h : FirstGap s fork claims base range)
    (h' : FirstGap s fork claims base range') :
    range'.fromRowid = range.fromRowid ∧ range'.throughEventId = range.throughEventId := by
  have hfrom : ∀ {range range' : MergeRange}, FirstGap s fork claims base range →
      FirstGap s fork claims base range' → range'.fromRowid ≤ range.fromRowid := by
    intro range range' h h'
    by_contra hlt
    have hle := h.from_le
    have hnonempty := h.nonempty
    exact h.not_covered (Nat.lt_succ_self _) hnonempty
      (h'.before (range.fromRowid + 1) (by omega) (by omega))
  have hthrough : ∀ {range range' : MergeRange}, FirstGap s fork claims base range →
      FirstGap s fork claims base range' → range'.throughRowid ≤ range.throughRowid := by
    intro range range' h h'
    have heq := le_antisymm (hfrom h h') (hfrom h' h)
    have hnonempty := h.nonempty
    rcases h.ends with ⟨claim, hclaim, hbegins, -⟩ | ⟨hall, -, -, -, -, hnewest⟩
    · have hlater := h'.begins claim hclaim
      omega
    · rcases h'.ends with ⟨claim, hclaim, hbegins, -⟩ | ⟨-, event, hevent, hrowid, -⟩
      · have hearlier := hall claim hclaim
        omega
      · exact hrowid ▸ hnewest event hevent
  refine ⟨le_antisymm (hfrom h h') (hfrom h' h), ?_⟩
  have heq := le_antisymm (hthrough h h') (hthrough h' h)
  obtain ⟨event, hevent, hrowid⟩ := Option.map_eq_some_iff.mp h.through
  obtain ⟨event', hevent', hrowid'⟩ := Option.map_eq_some_iff.mp h'.through
  have hsame := hrowids.eq (Table.mem_of_find? hevent) (Table.mem_of_find? hevent')
    (hrowid.trans (heq.symm.trans hrowid'.symm))
  rw [← Table.key_of_find? hevent, ← Table.key_of_find? hevent', hsame]

/-- A message that is not blank has a line. -/
theorem contextLine_isSome {sessionId : String} {after upto : ℕ} {event : EventRow}
    (h : eligible events sessionId after upto event = true) :
    (contextLine event).isSome = true ↔ trim event.message.toList ≠ [] := by
  have htype : event.type = "user.message" ∨ event.type = "message.completed" ∨
      event.type = "error" := by
    simp only [eligible, Bool.and_eq_true, List.contains_eq_mem, List.mem_cons,
      List.not_mem_nil, or_false, decide_eq_true_eq] at h
    exact h.1.1.1.1.1.2
  rcases htype with htype | htype | htype <;>
    by_cases htrim : trim event.message.toList = [] <;> simp [contextLine, htype]

/-- The window is empty just when the newest rows are blank. -/
theorem window_ne_nil :
    window s fork range ≠ [] ↔
      ∃ event ∈ (visibleRows s fork range).rtake mergeMaxMessages,
        trim event.message.toList ≠ [] := by
  have hline : ∀ event ∈ (visibleRows s fork range).rtake mergeMaxMessages,
      ((contextLine event).isSome = true ↔ trim event.message.toList ≠ []) := by
    intro event hevent
    have hrow := List.mem_reverse.mp (List.mem_of_mem_drop hevent)
    exact contextLine_isSome (mem_eligibleNewestFirst.mp hrow).2
  constructor
  · intro hne
    obtain ⟨line, hmem⟩ := List.exists_mem_of_ne_nil _ hne
    obtain ⟨hevent, htext⟩ := mem_linesOf hmem
    exact ⟨line.1, hevent, (hline line.1 hevent).mp (by simp [htext])⟩
  · rintro ⟨event, hevent, htrim⟩
    obtain ⟨text, htext⟩ := Option.isSome_iff_exists.mp ((hline event hevent).mpr htrim)
    have hmem : (event, text) ∈ window s fork range :=
      List.mem_filterMap.mpr ⟨event, hevent, by simp [htext]⟩
    exact List.ne_nil_of_mem hmem

/-- What a draft carries are messages of the range. -/
theorem mem_carried {childLabel : String} {event : EventRow}
    (h : event ∈ (draft s fork range childLabel).carried) :
    event ∈ s.events ∧
      eligible s.events fork.childSessionId range.fromRowid range.throughRowid event = true := by
  rw [(draft_lines s fork range childLabel).1] at h
  obtain ⟨line, hline, rfl⟩ := List.mem_map.mp h
  have hwindow := (dropOldest_suffix _ _).subset hline
  have hrow := List.mem_of_mem_drop (mem_linesOf hwindow).1
  exact mem_eligibleNewestFirst.mp (List.mem_reverse.mp hrow)

theorem carried_ne_nil {childLabel : String} :
    (draft s fork range childLabel).carried ≠ [] ↔ window s fork range ≠ [] := by
  rw [(draft_lines s fork range childLabel).1, Ne, List.map_eq_nil_iff]
  constructor
  · intro hne hnil
    rw [hnil] at hne
    exact hne rfl
  · exact fun hne => dropOldest_ne_nil hne _

/-- A visible event and the rows up to it. -/
theorem isVisibleEvent_eq_true {sessionId eventId : String} :
    isVisibleEvent events sessionId eventId = true ↔
      ∃ event, events.find? eventId = some event ∧
        eligible events sessionId 0 maxRowid event = true := by
  simp only [isVisibleEvent, List.any_eq_true, Bool.and_eq_true, beq_iff_eq]
  constructor
  · rintro ⟨event, hevent, heligible, rfl⟩
    exact ⟨event, Table.find?_of_mem hevent, heligible⟩
  · rintro ⟨event, hfind, heligible⟩
    exact ⟨event, Table.mem_of_find? hfind, heligible, Table.key_of_find? hfind⟩

/-- The click goes on with the range that was shown. -/
theorem claimRange_of_open {childSessionId source : String} {child : SessionRow}
    (hfork : forkForChild s.forks childSessionId = some fork)
    (hsource : fork.sourceSessionId = some source)
    (hchild : s.sessions.find? fork.childSessionId = some child)
    (hidle : isActive child.state = false)
    (hrange : pendingRange s fork (liveClaims s fork) = .ok (some range)) (throughEventId : String)
    (options : ClaimOptions) (id now : String) :
    claimRange s childSessionId throughEventId options id now =
      claimOpen { s with merges := settleMerges s fork } fork source child.taskLabel
        throughEventId options range id now := by
  have hrange' : pendingRange { s with merges := settleMerges s fork } fork (liveClaims s fork) =
      .ok (some range) := hrange
  simp [claimRange, hfork, hsource, hchild, hidle, hrange']

section

variable (hthrough : eventRowid s.events range.throughEventId = some range.throughRowid)
include hthrough

/-- The shown event is hidden: the click is stale. -/
theorem claimOpen_hidden

    (hhidden : isVisibleEvent s.events fork.childSessionId range.throughEventId = false)
    (source childLabel : String) (options : ClaimOptions) (id now : String) :
    claimOpen s fork source childLabel range.throughEventId options range id now =
      (s, .error (forkMergeStale
        "That position is not a message in this fork. Preview the merge again.")) := by
  simp [claimOpen, hthrough, hhidden]

/-- The shown event is visible and its range is free: it is claimed, with the draft of the
range. -/
theorem claimOpen_visible

    (hvisible : isVisibleEvent s.events fork.childSessionId range.throughEventId = true)
    (hlt : range.fromRowid < range.throughRowid) {id now : String} {merges : MergeTable}
    (hreserve : reserveMerge s.merges fork.id range.fromEventId range.throughEventId id now =
      (merges, some ⟨id, id, fork.id, range.fromEventId, range.throughEventId, .sending, now⟩))
    (source childLabel : String) (options : ClaimOptions) :
    (∃ text, (claimOpen s fork source childLabel range.throughEventId options range id now).2 =
        .ok (.claimed source fork.childSessionId childLabel id text)) ∧
      (claimOpen s fork source childLabel range.throughEventId options range id now).1.carried id =
        (draft s fork range childLabel).carried := by
  obtain ⟨event, hfind, heligible⟩ := isVisibleEvent_eq_true.mp hvisible
  have hsession : (event.sessionId == fork.childSessionId) = true := by
    simp only [eligible, Bool.and_eq_true] at heligible
    exact heligible.1.1.1.1.1.1
  have hpast : ¬ range.throughRowid ≤ range.fromRowid := Nat.not_le_of_lt hlt
  have hupto : range.upto range.throughEventId range.throughRowid = range := by
    simp [MergeRange.upto]
  simp [claimOpen, hthrough, hfind, hsession, hvisible, hpast, hupto, hreserve]

/-- A message of a range that ends in a visible event is visible. -/
theorem visible_of_carried {childLabel : String}

    (hvisible : isVisibleEvent s.events fork.childSessionId range.throughEventId = true)
    {event : EventRow} (h : event ∈ (draft s fork range childLabel).carried) :
    Visible s fork event := by
  obtain ⟨last, hfind, hlast⟩ := isVisibleEvent_eq_true.mp hvisible
  obtain ⟨hevent, heligible⟩ := mem_carried h
  have hrowid : last.rowid = range.throughRowid := by simpa [eventRowid, hfind] using hthrough
  refine ⟨hevent, ?_⟩
  simp only [eligible, Bool.and_eq_true, decide_eq_true_eq] at heligible hlast ⊢
  exact ⟨⟨⟨heligible.1.1.1, by omega⟩, by omega⟩, heligible.2⟩

end

/-- The click on the first gap. -/
theorem offerKept_iff_of_gap (hs : Reached s) {childSessionId source : String} {child : SessionRow}
    {base : ℕ} (hfork : forkForChild s.forks childSessionId = some fork)
    (hsource : fork.sourceSessionId = some source)
    (hchild : s.sessions.find? fork.childSessionId = some child)
    (hidle : isActive child.state = false)
    (hrange : pendingRange s fork (liveClaims s fork) = .ok (some range))
    (hgap : FirstGap s fork (liveClaims s fork) base range) :
    OfferKept s fork childSessionId range.throughEventId ↔
      isVisibleEvent s.events fork.childSessionId range.throughEventId = true ∧
        window s fork range ≠ [] := by
  have hmember : fork ∈ s.forks := List.mem_of_find?_eq_some hfork
  have hclaim := claimRange_of_open hfork hsource hchild hidle hrange range.throughEventId
  have hopen : isVisibleEvent s.events fork.childSessionId range.throughEventId = true →
      ∀ options id now, (∀ merge ∈ s.merges, merge.id ≠ id) →
        (∃ text, (claimRange s childSessionId range.throughEventId options id now).2 =
          .ok (.claimed source fork.childSessionId child.taskLabel id text)) ∧
        (claimRange s childSessionId range.throughEventId options id now).1.carried id =
          (draft s fork range child.taskLabel).carried := by
    intro hvisible options id now hid
    obtain ⟨merges, hreserve⟩ := reserve_firstGap hs hmember hgap hid now
    rw [hclaim]
    exact claimOpen_visible (s := { s with merges := settleMerges s fork }) hgap.through hvisible
      hgap.nonempty hreserve source child.taskLabel options
  constructor
  · intro hkept
    obtain ⟨id, hid⟩ := exists_fresh s.merges
    obtain ⟨source', label, text, hanswer, event, hcarried, -⟩ :=
      hkept ⟨none, false⟩ id "" hid
    cases hvisible : isVisibleEvent s.events fork.childSessionId range.throughEventId with
    | false =>
      have hstale := claimOpen_hidden (s := { s with merges := settleMerges s fork }) hgap.through
        hvisible source child.taskLabel ⟨none, false⟩ id ""
      rw [hclaim, hstale] at hanswer
      cases hanswer
    | true =>
      rw [(hopen hvisible _ id "" hid).2] at hcarried
      exact ⟨rfl, carried_ne_nil.mp (List.ne_nil_of_mem hcarried)⟩
  · rintro ⟨hvisible, hwindow⟩ options id now hid
    obtain ⟨⟨text, hanswer⟩, hcarried⟩ := hopen hvisible options id now hid
    have hcarry : (draft s fork range child.taskLabel).carried ≠ [] := carried_ne_nil.mpr hwindow
    obtain ⟨event, hevent⟩ := List.exists_mem_of_ne_nil _ hcarry
    exact ⟨source, child.taskLabel, text, hanswer, event, hcarried ▸ hevent,
      visible_of_carried hgap.through hvisible hevent⟩

/-- **A click on what a preview offers is kept just when the first gap ends in a message that
is visible and carries one that is not blank**, in every state of every run. -/
theorem offer_kept_iff (forks : ForkTable) (sessions : Table SessionRow.id) (events : EventTable)
    (pending : PendingMessages.State) (hrowids : RowidsDistinct events) (actions : List Action) :
    let s := actions.foldl step (start forks sessions events pending)
    ∀ childSessionId fork offered through,
      forkForChild s.forks childSessionId = some fork →
      preview s childSessionId = .ok offered → offered.throughEventId = some through →
      offered.childActive = false →
      (OfferKept s fork childSessionId through ↔ GapCarries s fork) := by
  intro s childSessionId fork offered through hfork hpreview hthrough hidle
  have hreached : Reached s := by
    refine List.foldlRecOn actions step (reached_start forks sessions hrowids pending) ?_
    exact fun s' hs' act _ => hs'.step act
  obtain ⟨source, child, range, hsource, hchild, hactive, hrange, rfl⟩ :=
    preview_offer hfork hpreview hthrough
  obtain ⟨base, hplace, hgap⟩ := firstGap_of_pendingRange hrange
  rw [hactive] at hidle
  rw [offerKept_iff_of_gap hreached hfork hsource hchild hidle hrange hgap, window_ne_nil]
  constructor
  · intro hcarries base' hplace' range' hgap'
    obtain rfl : base = base' :=
      (baseRowid_of_place hplace).symm.trans (baseRowid_of_place hplace')
    obtain ⟨hfrom, heq⟩ := hgap.through_unique hreached.rowids hgap'
    have hrowid : range'.throughRowid = range.throughRowid := by
      have h := hgap'.through
      rw [heq, hgap.through] at h
      exact (Option.some_inj.mp h).symm
    have hrows : visibleRows s fork range' = visibleRows s fork range := by
      rw [visibleRows, visibleRows, hfrom, hrowid]
    rwa [heq, hrows]
  · exact fun hcarries => hcarries base hplace range hgap

/-! ## An offer that is stale -/

/-- A fork of a whole chat, both idle. -/
def idleStart : State :=
  start ⟨[emptyFork], nodup_emptyFork⟩
    ⟨[⟨"source", "complete", "main"⟩, ⟨"child", "complete", "fork"⟩], by simp⟩
    .empty PendingMessages.init

/-- An idle fork is offered its first message. -/
def OffersFirst (s : State) (offered : ForkMergePreview) : Prop :=
  preview s "child" = .ok offered ∧ offered.throughEventId = some "first" ∧
    offered.childActive = false

theorem exists_offersFirst
    (h : (preview s "child").toOption.map (fun offered =>
      (offered.throughEventId, offered.childActive)) = some (some "first", false)) :
    ∃ offered, OffersFirst s offered := by
  cases hpreview : preview s "child" with
  | error error => simp [hpreview, Except.toOption] at h
  | ok offered =>
    simp only [hpreview, Except.toOption, Option.map_some, Option.some.injEq, Prod.mk.injEq] at h
    exact ⟨offered, hpreview, h⟩

/-- The first message of the fork. -/
def firstRun : List Action :=
  [.event "first" "child" "message.completed" "one" (.object [])]

/-- A fork with one message: the click on what is offered is kept if the message carries. -/
theorem offer_kept_iff_first :
    let s := firstRun.foldl step idleStart
    ∃ offered, OffersFirst s offered ∧
      (OfferKept s emptyFork "child" "first" ↔ GapCarries s emptyFork) := by
  intro s
  obtain ⟨offered, hshown, hthrough, hidle⟩ := exists_offersFirst (s := s) (by decide +kernel)
  exact ⟨offered, ⟨hshown, hthrough, hidle⟩, offer_kept_iff _ _ .empty _ List.nodup_nil firstRun
    "child" emptyFork offered "first" (by rfl) hshown hthrough hidle⟩

/-- The first message is claimed, the fork is cleared, a second message is claimed, and the
send of the first fails. -/
def staleRun : List Action :=
  firstRun ++ [.claim "child" "first" ⟨none, false⟩ "m1" "t1",
    .event "clear" "child" "session.cleared" "" (.object []),
    .event "second" "child" "message.completed" "two" (.object []),
    .claim "child" "second" ⟨none, false⟩ "m2" "t2",
    .settle "m1" (.error (.service "SEND_FAILED" "The send failed."))]

/-- **An offer that is stale**: a preview shows a position that a click does not accept. -/
theorem stale_offer :
    let s := staleRun.foldl step idleStart
    (∃ offered, OffersFirst s offered) ∧ ¬ OfferKept s emptyFork "child" "first" := by
  intro s
  have hstale : (claimRange s "child" "first" ⟨none, false⟩ "m3" "t3").2 =
      .error (forkMergeStale
        "That position is not a message in this fork. Preview the merge again.") := by
    decide +kernel
  have hfresh : ∀ merge ∈ s.merges.rows, merge.id ≠ "m3" := by decide +kernel
  refine ⟨exists_offersFirst (by decide +kernel), fun hkept => ?_⟩
  obtain ⟨source, label, text, hanswer, -⟩ := hkept ⟨none, false⟩ "m3" "t3" hfresh
  rw [hstale] at hanswer
  cases hanswer

end Argmax.Providers.ForkMerge
