import Argmax.Renderer.TransportLedger

/-!
# The transport is sound

Every operation of the transport takes a request out of a list, does something with it and
puts it into a list again or ends its promise. `Inv s out` is the invariant in between, where
`out` is the request that is in no list.
-/

namespace Argmax.Renderer.WsTransport

open Argmax.Lib Argmax.Renderer.RemoteOperations

/-- The requests whose promise is open. -/
def State.held (s : State) (out : Option PendingRequest) : List PendingRequest :=
  out.toList ++ (s.queued ++ s.inFlight.rows)

structure Inv (s : State) (out : Option PendingRequest) : Prop where
  ledger : Ledger s (s.held out)
  /-- What waits without an identity did not go out. -/
  queuedPlain : ∀ r ∈ s.queued, r.operation = none → r.sent = false
  inFlightSent : ∀ r ∈ s.inFlight, r.sent = true
  replay : ∀ r ∈ s.inFlight, r.operation.isSome → s.operationReplay = true

/-- Nothing is in flight without a connection. -/
def Offline (s : State) : Prop := s.authed = false → s.inFlight.rows = []

/-! ## Clocks and fetches -/

section Frame

variable {s : State} {out : Option PendingRequest}

theorem Inv.setTimeout (h : Inv s out) {timer : Timer}
    (htimer : ∀ id, timer = .retry id → id < s.nextRequestId ∧
      ∀ r ∈ s.held out, r.id = id → r.operation ≠ none) : Inv (s.setTimeout timer) out where
  ledger :=
    { h.ledger with
      retryAction := List.forall_mem_cons.mpr ⟨htimer, h.ledger.retryAction⟩ }
  queuedPlain := h.queuedPlain
  inFlightSent := h.inFlightSent
  replay := h.replay

theorem Inv.clearTimeout (h : Inv s out) (handle : Option ℕ) : Inv (s.clearTimeout handle) out where
  ledger :=
    { h.ledger with
      retryAction := fun timer ht => h.ledger.retryAction timer (List.mem_of_mem_filter ht) }
  queuedPlain := h.queuedPlain
  inFlightSent := h.inFlightSent
  replay := h.replay

theorem held_modify {id : ℕ} {f : PendingRequest → PendingRequest}
    {hf : ∀ r, (f r).id = r.id} :
    (s.modify id f hf).held none = (s.held none).map fun r => if r.id = id then f r else r := by
  simp [State.held, State.modify, Table.update]

theorem Inv.modify (h : Inv s none) {id : ℕ} (f : PendingRequest → PendingRequest)
    (hf : ∀ r, (f r).id = r.id) (hsame : ∀ r, SameRequest (f r) r) :
    Inv (s.modify id f hf) none := by
  have hsame' : ∀ r, SameRequest (if r.id = id then f r else r) r := by
    intro r
    split
    · exact hsame r
    · exact ⟨rfl, rfl, rfl, rfl⟩
  constructor
  case ledger =>
    rw [held_modify]
    exact { h.ledger.map fun r _ => hsame' r with }
  case queuedPlain =>
    refine List.forall_mem_map.mpr fun r hr hop => ?_
    rw [(hsame' r).2.2.2]
    exact h.queuedPlain r hr ((hsame' r).2.2.1.symm.trans hop)
  case inFlightSent =>
    simp only [State.modify, Table.mem_update]
    rintro _ ⟨r, hr, rfl⟩
    exact (hsame' r).2.2.2.trans (h.inFlightSent r hr)
  case replay =>
    simp only [State.modify, Table.mem_update]
    rintro _ ⟨r, hr, rfl⟩ hop
    exact h.replay r hr ((hsame' r).2.2.1 ▸ hop)

/-- A change of a request leaves its identity where it was. -/
theorem Inv.operation_modify (h : Inv s none) {id : ℕ} {f : PendingRequest → PendingRequest}
    (hf : ∀ r, (f r).id = r.id) (hsame : ∀ r, SameRequest (f r) r) {r r' : PendingRequest}
    (hr : r ∈ s.held none) (hr' : r' ∈ (s.modify id f hf).held none) (hid : r'.id = r.id) :
    r'.operation = r.operation := by
  rw [held_modify] at hr'
  obtain ⟨r₀, hr₀, rfl⟩ := List.mem_map.mp hr'
  have hsame₀ : SameRequest (if r₀.id = id then f r₀ else r₀) r₀ := by
    split
    · exact hsame r₀
    · exact ⟨rfl, rfl, rfl, rfl⟩
  rw [hsame₀.2.2.1, List.inj_on_of_nodup_map h.ledger.nodup hr₀ hr (hsame₀.1.symm.trans hid)]

end Frame

/-! ## Taking a request out and putting it back -/

section Moves

variable {s : State} {r : PendingRequest}

/-- A request goes to the front of a list that it is taken out of. -/
theorem perm_cons_filter {l : List PendingRequest} (hnodup : (l.map PendingRequest.id).Nodup)
    (hr : r ∈ l) : (r :: l.filter fun r' => r'.id ≠ r.id).Perm l := by
  have herase : (l.filter fun r' => r'.id ≠ r.id) = l.erase r := by
    rw [(List.Nodup.of_map _ hnodup).erase_eq_filter]
    refine List.filter_congr fun r' hr' => ?_
    by_cases heq : r' = r
    · simp [heq]
    · have hid : r'.id ≠ r.id := fun hid => heq (List.inj_on_of_nodup_map hnodup hr' hr hid)
      simp [heq, hid]
  rw [herase]
  exact (List.perm_cons_erase hr).symm

theorem rows_dropInFlight (id : ℕ) :
    (s.dropInFlight id).inFlight.rows = s.inFlight.rows.filter fun r => r.id ≠ id := by
  simp [State.dropInFlight, Table.delete]

theorem perm_dropInFlight (hr : r ∈ s.inFlight) :
    (r :: (s.dropInFlight r.id).inFlight.rows).Perm s.inFlight.rows := by
  rw [rows_dropInFlight]
  exact perm_cons_filter s.inFlight.unique hr

theorem Inv.takeQueued {rest : List PendingRequest} (h : Inv s none) (hq : s.queued = r :: rest) :
    Inv { s with queued := rest } (some r) where
  ledger := by
    have hheld : s.held none = ({ s with queued := rest } : State).held (some r) := by
      simp [State.held, hq]
    exact { hheld ▸ h.ledger with }
  queuedPlain r' hr' := h.queuedPlain r' (hq ▸ List.mem_cons_of_mem _ hr')
  inFlightSent := h.inFlightSent
  replay := h.replay

theorem Inv.takeInFlight (h : Inv s none) (hr : r ∈ s.inFlight) :
    Inv (s.dropInFlight r.id) (some r) where
  ledger := by
    have hp : ((s.dropInFlight r.id).held (some r)).Perm (s.held none) := by
      have hmiddle : (r :: (s.queued ++ (s.dropInFlight r.id).inFlight.rows)).Perm
          (s.queued ++ r :: (s.dropInFlight r.id).inFlight.rows) := List.perm_middle.symm
      exact hmiddle.trans ((perm_dropInFlight hr).append_left s.queued)
    exact { h.ledger.perm hp with }
  queuedPlain := h.queuedPlain
  inFlightSent r' hr' := h.inFlightSent r' (Table.mem_delete.mp hr').1
  replay r' hr' := h.replay r' (Table.mem_delete.mp hr').1

theorem Inv.putQueued {r' : PendingRequest} (h : Inv s (some r)) (hsame : SameRequest r' r)
    (hplain : r.operation = none → r.sent = false) :
    Inv { s with queued := s.queued ++ [r'] } none where
  ledger := by
    have hp : (({ s with queued := s.queued ++ [r'] } : State).held none).Perm
        (r' :: (s.queued ++ s.inFlight.rows)) := by
      simp only [State.held, List.append_assoc]
      exact List.perm_middle
    exact { (h.ledger.change hsame).perm hp with }
  queuedPlain r'' hr'' hop := by
    rcases List.mem_append.mp hr'' with hr'' | hr''
    · exact h.queuedPlain r'' hr'' hop
    · rw [List.mem_singleton.mp hr''] at hop ⊢
      exact hsame.2.2.2.trans (hplain (hsame.2.2.1.symm.trans hop))
  inFlightSent := h.inFlightSent
  replay := h.replay

theorem Inv.change {r' : PendingRequest} (h : Inv s (some r)) (hsame : SameRequest r' r) :
    Inv s (some r') where
  ledger := h.ledger.change hsame
  queuedPlain := h.queuedPlain
  inFlightSent := h.inFlightSent
  replay := h.replay

end Moves

/-! ## The ends of a promise -/

section Ends

variable {s : State} {r : PendingRequest} {how : Settlement}

/-- A request without an identity. -/
theorem Inv.settlePlain (h : Inv s (some r)) (hplain : r.operation = none) :
    Inv (s.settle r.id how) none where
  ledger := by
    refine h.ledger.close rfl rfl rfl rfl rfl rfl rfl (fun _ h => h) (fun _ h => h) rfl rfl
      (fun _ _ => rfl) fun o ho => ?_
    rw [hplain] at ho
    cases ho
  queuedPlain := h.queuedPlain
  inFlightSent := h.inFlightSent
  replay := h.replay

/-- A request whose outcome is known, or that did not go out. -/
theorem Inv.forget (h : Inv s (some r)) {known : List RemoteOperation}
    (hknown : ∀ o ∈ s.known, o ∈ known)
    (hunsent : ∀ o, r.operation = some o → o ∈ known ∨ r.sent = false) :
    Inv (State.settle { s.settleOperation r.operation with known := known } r.id how) none := by
  cases hop : r.operation with
  | none =>
    have hplain : Inv { s with known := known } (some r) :=
      { ledger := { h.ledger with
          accounted := fun a ha o ho => (h.ledger.accounted a ha o ho).imp_left (hknown o) }
        queuedPlain := h.queuedPlain
        inFlightSent := h.inFlightSent
        replay := h.replay }
    exact hplain.settlePlain hop
  | some o =>
    refine ⟨?_, h.queuedPlain, h.inFlightSent, h.replay⟩
    refine h.ledger.close rfl rfl rfl rfl rfl rfl rfl hknown (fun _ h => h) rfl rfl ?_ ?_
    · intro o' hne
      exact entry_settleRemoteOperation.trans (if_neg (hne o hop))
    · intro o' ho'
      rw [hop] at ho'
      cases ho'
      exact .inl ⟨entry_settleRemoteOperation.trans (if_pos rfl), hunsent o hop⟩

theorem Inv.settleOperation (h : Inv s (some r)) (hunsent : r.sent = false) :
    Inv ((s.settleOperation r.operation).settle r.id how) none := by
  have hknown : { s.settleOperation r.operation with known := s.known } =
      s.settleOperation r.operation := by
    cases r.operation <;> rfl
  rw [← hknown]
  exact h.forget (fun _ h => h) fun _ _ => .inr hunsent

/-- A request whose outcome is unknown. -/
theorem Inv.markUncertain (h : Inv s (some r)) (hostInterrupted : Bool) :
    Inv ((s.markUncertain hostInterrupted r.operation).settle r.id how) none := by
  cases hop : r.operation with
  | none => exact h.settlePlain hop
  | some o =>
    refine ⟨?_, h.queuedPlain, h.inFlightSent, h.replay⟩
    refine h.ledger.close rfl rfl rfl rfl rfl rfl rfl (fun _ h => h) (fun _ h => h) rfl rfl ?_ ?_
    · intro o' hne
      exact entry_markRemoteOperationUncertain.trans (by simp [hne o hop])
    · intro o' ho'
      obtain ⟨e, he, hid, hreq, howner, -, hsent⟩ := h.ledger.entryOf r List.mem_cons_self o' ho'
      rw [hop] at ho'
      cases ho'
      let e' := { e with
        uncertain := true, hostInterrupted := e.hostInterrupted || hostInterrupted }
      have he' : (markRemoteOperationUncertain s.storage o hostInterrupted).entry o = some e' :=
        entry_markRemoteOperationUncertain.trans (by simp [he, e'])
      exact .inr ⟨e', he', hid, hreq, howner, hsent, .inl rfl⟩

theorem Inv.refuse (h : Inv s (some r)) {o : RemoteOperation} (hop : r.operation = some o) :
    Inv (refuse s r o) none := by
  unfold WsTransport.refuse
  split
  · refine ⟨?_, h.queuedPlain, h.inFlightSent, h.replay⟩
    refine h.ledger.close rfl rfl rfl rfl rfl rfl rfl (fun _ h => h)
      (fun _ h => List.mem_cons_of_mem _ h) rfl rfl (fun _ _ => rfl) fun o' ho' => ?_
    obtain ⟨e, he, hid, hreq, howner, -, hsent⟩ := h.ledger.entryOf r List.mem_cons_self o' ho'
    rw [hop] at ho'
    cases ho'
    exact .inr ⟨e, he, hid, hreq, howner, hsent, .inr List.mem_cons_self⟩
  · rename_i hsent
    rw [← hop]
    exact h.settleOperation (by simpa using hsent)

theorem Inv.failQueued (h : Inv s (some r)) : Inv (failQueued s r) none := by
  have h' := (h.clearTimeout r.queueTimer).clearTimeout r.retryTimer
  unfold WsTransport.failQueued
  split
  · exact h'.markUncertain false
  · rename_i hsent
    exact h'.settleOperation (by simpa using hsent)

end Ends

/-! ## The operations -/

section Operations

variable {s : State} {r : PendingRequest}

/-- A request goes out. -/
theorem Inv.transmit {storage : Storage} (h : Inv s (some r))
    (hplain : r.operation = none → r.sent = false)
    (hreplay : r.operation.isSome → s.operationReplay = true)
    (huuid : storage.nextUuid = s.storage.nextUuid)
    (hother : ∀ o, (∀ o', r.operation = some o' → o.operationId ≠ o'.operationId) →
      storage.entry o = s.storage.entry o)
    (hown : ∀ o, r.operation = some o →
      EntryOf { s with storage := storage } { r with sent := true } o) :
    Inv (transmit { s with storage := storage } r) none := by
  let sent : PendingRequest := { r with sent := true }
  have hfree : s.inFlight.find? sent.id = none := by
    refine Table.find?_eq_none.mpr fun r' hr' hid => ?_
    have hnodup := h.ledger.nodup
    rw [State.held, Option.toList_some, List.singleton_append, List.map_cons,
      List.nodup_cons] at hnodup
    exact hnodup.1 (hid ▸ List.mem_map_of_mem (List.mem_append_right _ hr'))
  have hput : s.inFlight.put sent = s.inFlight.push sent hfree := Table.put_of_free hfree
  constructor
  case ledger =>
    have hp : ((WsTransport.transmit { s with storage := storage } r).held none).Perm
        (sent :: (s.queued ++ s.inFlight.rows)) := by
      have hheld : (WsTransport.transmit { s with storage := storage } r).held none =
          s.queued ++ (s.inFlight.put sent).rows := rfl
      rw [hheld, hput, Table.push, ← List.append_assoc]
      exact List.perm_append_singleton _ _
    exact (h.ledger.transmit hplain huuid hother hown).perm hp
  case queuedPlain => exact h.queuedPlain
  case inFlightSent =>
    simp only [WsTransport.transmit, Table.mem_put]
    rintro r' (rfl | ⟨hr', -⟩)
    · rfl
    · exact h.inFlightSent r' hr'
  case replay =>
    simp only [WsTransport.transmit, Table.mem_put]
    rintro r' (rfl | ⟨hr', -⟩) hop
    · exact hreplay hop
    · exact h.replay r' hr' hop

theorem Inv.sendNext (h : Inv s (some r)) (hplain : r.operation = none → r.sent = false)
    (throwing : Option ℕ) : Inv (sendNext throwing s r).1 none := by
  have h' : Inv (s.clearTimeout r.queueTimer) (some { r with queueTimer := none }) :=
    (h.clearTimeout r.queueTimer).change ⟨rfl, rfl, rfl, rfl⟩
  unfold WsTransport.sendNext
  dsimp only
  split
  · rename_i hop
    refine h'.transmit hplain ?_ rfl (fun _ _ => rfl) fun o ho => ?_
    · simp [hop]
    · rw [hop] at ho
      cases ho
  · rename_i o hop
    split
    · exact h'.refuse hop
    · rename_i hreplay
      obtain ⟨e, he, hid, hreq, howner, hunc, -⟩ := h'.ledger.entryOf _ List.mem_cons_self o hop
      obtain ⟨storage, hok, huuid, hentry⟩ := markRemoteOperationSent_of_entry he
      rw [hok]
      refine h'.transmit hplain (fun _ => by simpa using hreplay) huuid ?_ ?_
      · intro o' hne
        simp [hentry, hne o hop]
      · intro o' ho'
        obtain rfl : o = o' := Option.some.inj (hop.symm.trans ho')
        exact ⟨{ e with sent := true }, by simp [hentry, he], hid, hreq, howner, hunc, rfl⟩

theorem queued_sendNext (throwing : Option ℕ) : (sendNext throwing s r).1.queued = s.queued := by
  unfold sendNext refuse State.settleOperation
  dsimp only
  split
  · rfl
  · split
    · split <;> rfl
    · split <;> rfl

theorem authed_sendNext (throwing : Option ℕ) : (sendNext throwing s r).1.authed = s.authed := by
  unfold sendNext refuse State.settleOperation
  dsimp only
  split
  · rfl
  · split
    · split <;> rfl
    · split <;> rfl

theorem flushLoop_inv (throwing : Option ℕ) {queue : List PendingRequest} (h : Inv s none)
    (hq : s.queued = queue) :
    Inv (flushLoop throwing queue s) none ∧ (flushLoop throwing queue s).authed = s.authed := by
  induction queue generalizing s with
  | nil => exact ⟨h, rfl⟩
  | cons r rest ih =>
    have hnext := (h.takeQueued hq).sendNext (h.queuedPlain r (hq ▸ List.mem_cons_self)) throwing
    unfold flushLoop
    dsimp only
    split
    · obtain ⟨hinv, hauthed⟩ := ih hnext (queued_sendNext throwing)
      exact ⟨hinv, hauthed.trans (authed_sendNext throwing)⟩
    · exact ⟨hnext, authed_sendNext throwing⟩

/-- The invariant between two events. -/
structure Good (s : State) : Prop where
  inv : Inv s none
  /-- Nothing is in flight without a connection. -/
  offline : ∀ r ∈ s.inFlight, s.authed = true

theorem flushQueue_good (h : Good s) (throwing : Option ℕ) : Good (flushQueue throwing s) := by
  unfold flushQueue
  split
  · rename_i hauthed
    obtain ⟨hinv, hsame⟩ := flushLoop_inv throwing h.inv rfl
    simp only [Bool.and_eq_true] at hauthed
    exact ⟨hinv, fun _ _ => hsame.trans hauthed.1⟩
  · exact h

theorem frame_failQueued :
    (failQueued s r).queued = s.queued ∧ (failQueued s r).inFlight = s.inFlight ∧
      (failQueued s r).authed = s.authed := by
  unfold failQueued State.markUncertain State.settleOperation
  split <;> split <;> exact ⟨rfl, rfl, rfl⟩

theorem expireQueued_good (h : Good s) (id : ℕ) : Good (expireQueued s id) := by
  unfold expireQueued
  split
  · exact h
  · rename_i r hfind
    have hr : r ∈ s.queued ++ s.inFlight.rows := List.mem_of_find?_eq_some hfind
    obtain rfl : r.id = id := by simpa using List.find?_some hfind
    have hp := perm_cons_filter h.inv.ledger.nodup hr
    have htake : Inv { s.dropInFlight r.id with
        queued := s.queued.filter fun r' => r'.id ≠ r.id } (some r) :=
      { ledger := by
          have hp : (r :: (s.queued ++ s.inFlight.rows).filter fun r' => r'.id ≠ r.id).Perm
              (s.held none) := hp
          rw [List.filter_append, ← rows_dropInFlight] at hp
          exact { h.inv.ledger.perm hp with }
        queuedPlain := fun r' hr' => h.inv.queuedPlain r' (List.mem_of_mem_filter hr')
        inFlightSent := fun r' hr' => h.inv.inFlightSent r' (Table.mem_delete.mp hr').1
        replay := fun r' hr' => h.inv.replay r' (Table.mem_delete.mp hr').1 }
    obtain ⟨-, hin, hauthed⟩ := frame_failQueued
    refine ⟨htake.failQueued, fun r' hr' => ?_⟩
    rw [hin] at hr'
    exact hauthed.trans (h.offline r' (Table.mem_delete.mp hr').1)

theorem dropOldest_good {queue : List PendingRequest} (h : Good s) (hq : s.queued = queue) :
    Good (dropOldest queue s) := by
  induction queue generalizing s with
  | nil => exact h
  | cons r rest ih =>
    unfold dropOldest
    split
    · obtain ⟨hqueued, hin, hauthed⟩ := frame_failQueued (s := { s with queued := rest }) (r := r)
      refine ih ⟨(h.inv.takeQueued hq).failQueued, fun r' hr' => ?_⟩ hqueued
      rw [hin] at hr'
      exact hauthed.trans (h.offline r' hr')
    · exact h

theorem settleResponse_good (h : Good s) {frame : ResponseFrame} (hhost : s.hostSends frame) :
    Good (settleResponse s frame) := by
  unfold settleResponse
  split
  · exact h
  · rename_i r hfind
    have hr : r ∈ s.inFlight := Table.mem_of_find? hfind
    have hheld : r ∈ s.held none := List.mem_append_right s.queued hr
    have hauthed : s.authed = true := h.offline r hr
    split
    · rename_i hpending
      have hop : r.operation ≠ none := by
        simpa [State.hostSends, hpending, hfind, Option.isSome_iff_ne_none] using hhost
      let f : PendingRequest → PendingRequest := fun r => { r with retryTimer := some s.nextTimer }
      have hmodify : Inv (s.modify r.id f fun _ => rfl) none :=
        h.inv.modify f (fun _ => rfl) fun _ => ⟨rfl, rfl, rfl, rfl⟩
      refine ⟨hmodify.setTimeout ?_, fun _ _ => hauthed⟩
      rintro id ⟨⟩
      refine ⟨h.inv.ledger.idLt r hheld, fun r' hr' hid => ?_⟩
      rw [h.inv.operation_modify (f := f) (fun _ => rfl) (fun _ => ⟨rfl, rfl, rfl, rfl⟩) hheld
        hr' hid]
      exact hop
    · split
      · rename_i hfetch
        simp only [Bool.and_eq_true] at hfetch
        have hop : r.operation = none := by
          by_contra hop
          obtain ⟨o, ho⟩ := Option.ne_none_iff_exists'.mp hop
          exact h.inv.ledger.mutation hheld ho (mem_readChannels_of_canFetchTranscript hfetch.1.2)
        let f : PendingRequest → PendingRequest := fun r => { r with fallbackAttempted := true }
        have hmodify : Inv (s.modify r.id f fun _ => rfl) none :=
          h.inv.modify f (fun _ => rfl) fun _ => ⟨rfl, rfl, rfl, rfl⟩
        refine ⟨⟨?_, hmodify.queuedPlain, hmodify.inFlightSent, hmodify.replay⟩, fun _ _ => hauthed⟩
        refine { hmodify.ledger with
          fetchRead := List.forall_mem_cons.mpr ⟨⟨h.inv.ledger.idLt r hheld, ?_⟩,
            hmodify.ledger.fetchRead⟩ }
        intro r' hr' hid
        rw [h.inv.operation_modify (f := f) (fun _ => rfl) (fun _ => ⟨rfl, rfl, rfl, rfl⟩) hheld
          hr' hid]
        exact hop
      · have htake := ((h.inv.takeInFlight hr).clearTimeout r.queueTimer).clearTimeout r.retryTimer
        split
        · refine ⟨htake.forget (fun o ho => List.mem_append_right _ ho) fun o ho => ?_, ?_⟩
          · exact .inl (by simp [ho])
          · cases r.operation <;> exact fun _ _ => hauthed
        · refine ⟨htake.markUncertain _, ?_⟩
          cases r.operation <;> exact fun _ _ => hauthed

theorem fetchedTranscript_good (h : Good s) {id startedGeneration : ℕ} {how : Settlement}
    (hread : ∀ r ∈ s.inFlight, r.id = id → r.operation = none) :
    Good (fetchedTranscript s id startedGeneration how) := by
  unfold fetchedTranscript
  split
  · exact h
  · rename_i hfind
    obtain ⟨r, hr⟩ : ∃ r, s.inFlight.find? id = some r := by
      rw [← Option.ne_none_iff_exists']
      exact fun hnone => hfind (.inl (by simp [hnone]))
    have hmem : r ∈ s.inFlight := Table.mem_of_find? hr
    obtain rfl : r.id = id := Table.key_of_find? hr
    refine ⟨(h.inv.takeInFlight hmem).settlePlain (hread r hmem rfl), ?_⟩
    exact fun r' hr' => h.offline r' (Table.mem_delete.mp hr').1

theorem retry_good (h : Good s) {id : ℕ} (throwing : Option ℕ)
    (hact : ∀ r ∈ s.inFlight, r.id = id → r.operation ≠ none) :
    Good (retry throwing s id) := by
  let f : PendingRequest → PendingRequest := fun r => { r with retryTimer := none }
  let s' := s.modify id f fun _ => rfl
  have hinFlight : ∀ r ∈ s'.inFlight, s.authed = true ∧ (r.id = id → r.operation ≠ none) := by
    simp only [s', State.modify, Table.mem_update]
    rintro _ ⟨r, hr, rfl⟩
    refine ⟨h.offline r hr, ?_⟩
    split <;> exact hact r hr
  have hmodify : Inv s' none := h.inv.modify f (fun _ => rfl) fun _ => ⟨rfl, rfl, rfl, rfl⟩
  unfold retry
  dsimp only
  split
  · exact ⟨hmodify, fun r hr => (hinFlight r hr).1⟩
  · rename_i r hfind
    have hr : r ∈ s'.inFlight := Table.mem_of_find? hfind
    obtain rfl : r.id = id := Table.key_of_find? hfind
    refine flushQueue_good ⟨(hmodify.takeInFlight hr).putQueued ⟨rfl, rfl, rfl, rfl⟩
      fun hnone => absurd hnone ((hinFlight r hr).2 rfl), fun r' hr' => ?_⟩ throwing
    exact (hinFlight r' (Table.mem_delete.mp hr').1).1

theorem closeOne_inv (h : Inv s none) (hr : r ∈ s.inFlight) : Inv (closeOne s r) none := by
  have htake := h.takeInFlight hr
  unfold closeOne
  dsimp only
  split
  · rename_i hcond
    have hplain : r.operation = none → r.sent = false := by
      intro hnone
      simp [hnone] at hcond
    have htake := htake.clearTimeout r.retryTimer
    split
    · exact (htake.setTimeout (by simp)).putQueued ⟨rfl, rfl, rfl, rfl⟩ hplain
    · exact htake.putQueued ⟨rfl, rfl, rfl, rfl⟩ hplain
  · rename_i hcond
    refine htake.settlePlain ?_
    by_contra hop
    have hsome : r.operation.isSome := Option.isSome_iff_ne_none.mpr hop
    exact hcond (by simp [hsome, State.dropInFlight, h.replay r hr hsome])

theorem inFlight_closeOne : (closeOne s r).inFlight = (s.dropInFlight r.id).inFlight := by
  unfold closeOne
  dsimp only
  split
  · split <;> rfl
  · rfl

theorem closeLoop_inv {rows : List PendingRequest} (h : Inv s none)
    (hrows : s.inFlight.rows = rows) :
    Inv (rows.foldl closeOne s) none ∧ (rows.foldl closeOne s).inFlight.rows = [] := by
  induction rows generalizing s with
  | nil => exact ⟨h, hrows⟩
  | cons r rest ih =>
    have hr : r ∈ s.inFlight := by
      rw [Table.mem_def, hrows]
      exact List.mem_cons_self
    refine ih (closeOne_inv h hr) ?_
    have hunique := s.inFlight.unique
    rw [hrows, List.map_cons, List.nodup_cons] at hunique
    rw [inFlight_closeOne, rows_dropInFlight, hrows, List.filter_cons_of_neg (by simp),
      List.filter_eq_self]
    intro r' hr'
    have hne : r'.id ≠ r.id := fun hid => hunique.1 (hid ▸ List.mem_map_of_mem hr')
    simpa using hne

theorem handleClose_good (h : Inv s none) : Good (handleClose s) := by
  have h' : Inv { s with authed := false, socket := none } none :=
    ⟨{ h.ledger with }, h.queuedPlain, h.inFlightSent, h.replay⟩
  obtain ⟨hinv, hrows⟩ := closeLoop_inv h' rfl
  refine ⟨hinv, fun r hr => ?_⟩
  rw [Table.mem_def, handleClose, hrows] at hr
  cases hr

/-- A new request is in the ledger when its identity was prepared. -/
theorem invoke_ledger (h : Good s) {request : Request} {confirm : Bool}
    {operation : Option RemoteOperation} {storage : Storage}
    (hp : prepareRemoteOperation s.storage request s.operationOwner confirm =
      (.ok operation, storage)) (r : PendingRequest) (hid : r.id = s.nextRequestId)
    (hreq : r.request = request) (hop : r.operation = operation)
    (hsent : r.sent = operation.any (remoteOperationWasSent storage)) :
    Ledger { s with
      nextRequestId := s.nextRequestId + 1
      storage := storage
      givenUp := (renewed s.storage request s.operationOwner confirm).toList ++ s.givenUp }
      (r :: s.held none) := by
  have hl := h.inv.ledger
  subst hreq
  cases operation with
  | none =>
    obtain ⟨rfl, hrenewed⟩ := prepare_none hp
    rw [hrenewed]
    refine hl.add hid (fun _ ho => ho) (Nat.le_refl _) ?_ (fun _ _ he => .inl he)
      (fun _ e he => .inr ⟨e, he, rfl, rfl, rfl⟩) ?_ fun _ _ _ _ => ⟨?_, rfl⟩ <;> simp [hop]
  | some o =>
    obtain ⟨hread, ⟨e, he, rfl, hrenewed, hst⟩ | ⟨e, he, hrenewed, hst⟩ | ⟨hrenewed, hst⟩⟩ :=
      prepare_some hp
    · rw [hrenewed]
      exact hl.addReused hid he hop hread hst hsent
    · rw [hrenewed]
      refine hl.addRegistered (s.storage.remove e.identity) hid
        (fun _ ho => List.mem_cons_of_mem _ ho) rfl ?_ ?_ ?_ hst hop hread hsent
      · intro o' e' he'
        rw [Storage.entry_remove] at he'
        split at he'
        · cases he'
        · exact he'
      · intro o' e' he'
        by_cases heq : o'.operationId = e.identity.operationId
        · rw [Storage.entry, heq] at he'
          obtain rfl : e' = e := Option.some.inj
            (he'.symm.trans (Storage.entry_of_mem (reusable_eq_some he).1))
          exact .inl List.mem_cons_self
        · exact .inr (by rw [Storage.entry_remove, if_neg heq, he'])
      · intro r' hr' o' ho'
        rw [Storage.entry_remove, if_neg (hl.reusable_ne he hr' ho')]
    · rw [hrenewed]
      exact hl.addRegistered s.storage hid (fun _ ho => ho) rfl (fun _ _ he => he) (fun _ _ he => .inr he)
        (fun _ _ _ _ => rfl) hst hop hread hsent

theorem invoke_good (h : Good s) (request : Request) (confirm : Bool) (throwing : Option ℕ) :
    Good (invoke s request confirm throwing) := by
  unfold invoke
  rcases hp : prepareRemoteOperation s.storage request s.operationOwner confirm with
    ⟨result, storage⟩
  cases result with
  | error message =>
    obtain ⟨rfl, hrenewed⟩ := prepare_error hp
    rw [hrenewed]
    exact ⟨⟨{ h.inv.ledger.skip with }, h.inv.queuedPlain, h.inv.inFlightSent, h.inv.replay⟩,
      h.offline⟩
  | ok operation =>
    let r : PendingRequest :=
      { id := s.nextRequestId
        request := request
        operation := operation
        queueTimer := some s.nextTimer
        retryTimer := none
        sent := operation.any (remoteOperationWasSent storage)
        fallbackAttempted := false }
    let s' : State := { s with
      nextRequestId := s.nextRequestId + 1
      storage := storage
      givenUp := (renewed s.storage request s.operationOwner confirm).toList ++ s.givenUp }
    have hnew : Inv s' (some r) :=
      ⟨invoke_ledger h hp r rfl rfl rfl rfl, h.inv.queuedPlain, h.inv.inFlightSent, h.inv.replay⟩
    have hplain : r.operation = none → r.sent = false := by
      intro hnone
      have hop : operation = none := hnone
      simp [r, hop]
    have hput : Good { s'.setTimeout (.expireQueued r.id) with queued := s'.queued ++ [r] } :=
      ⟨(hnew.setTimeout (by simp)).putQueued ⟨rfl, rfl, rfl, rfl⟩ hplain, h.offline⟩
    exact flushQueue_good (dropOldest_good hput rfl) throwing

end Operations

/-! ## Runs -/

theorem step_good {s : State} (h : Good s) (act : Act) : Good (step s act) := by
  have hopen : ∀ t : State, Good t → Good (openSocket t) := fun t ht =>
    ⟨⟨{ ht.inv.ledger with }, ht.inv.queuedPlain, ht.inv.inFlightSent, ht.inv.replay⟩, ht.offline⟩
  cases act with
  | invoke request confirm throwing => exact invoke_good h request confirm throwing
  | reconnect =>
    simp only [step]
    split
    · exact hopen s h
    · exact h
  | wake =>
    simp only [step, handleWake]
    split
    · exact h
    · split
      · refine hopen _ ⟨⟨{ h.inv.ledger with }, ?_, ?_, ?_⟩, ?_⟩
        · exact h.inv.queuedPlain
        · exact h.inv.inFlightSent
        · exact h.inv.replay
        · exact h.offline
      · exact hopen s h
  | authOk mine operationReplay throwing =>
    simp only [step]
    split
    · rename_i hcond
      simp only [Bool.and_eq_true, Bool.not_eq_true'] at hcond
      have hempty : ∀ r ∈ s.inFlight, False := by
        intro r hr
        have hon := h.offline r hr
        rw [hcond.2] at hon
        cases hon
      have hon : Good { s with authed := true, operationReplay := operationReplay } :=
        ⟨⟨{ h.inv.ledger with }, h.inv.queuedPlain, h.inv.inFlightSent,
          fun r hr => (hempty r hr).elim⟩, fun r hr => (hempty r hr).elim⟩
      exact flushQueue_good hon throwing
    · exact h
  | response mine frame =>
    simp only [step]
    split
    · rename_i hcond
      exact settleResponse_good h (Bool.and_eq_true _ _ ▸ hcond).2
    · exact h
  | close mine =>
    simp only [step]
    split
    · exact handleClose_good h.inv
    · exact h
  | dropSilentSocket =>
    simp only [step]
    split
    · refine handleClose_good ⟨{ h.inv.ledger with }, ?_, ?_, ?_⟩
      · exact h.inv.queuedPlain
      · exact h.inv.inFlightSent
      · exact h.inv.replay
    · exact h
  | timeout handle throwing =>
    simp only [step]
    split
    · exact h
    · rename_i timer hfind
      have hclear : Good (s.clearTimeout (some handle)) :=
        ⟨h.inv.clearTimeout (some handle), h.offline⟩
      cases timer with
      | expireQueued id => exact expireQueued_good hclear id
      | retry id =>
        refine retry_good hclear throwing fun r hr => ?_
        exact (h.inv.ledger.retryAction _ (List.mem_of_find?_eq_some hfind) id rfl).2 r
          (List.mem_append_right s.queued hr)
  | fetched id startedGeneration how =>
    simp only [step]
    split
    · rename_i hmem
      have herase : Good { s with fetches := s.fetches.erase (id, startedGeneration) } := by
        refine ⟨⟨?_, h.inv.queuedPlain, h.inv.inFlightSent, h.inv.replay⟩, h.offline⟩
        exact { h.inv.ledger with
          fetchRead := fun fetch hfetch =>
            h.inv.ledger.fetchRead fetch (List.mem_of_mem_erase hfetch) }
      refine fetchedTranscript_good herase fun r hr => ?_
      exact (h.inv.ledger.fetchRead _ hmem).2 r (List.mem_append_right s.queued hr)
    · exact h
  | reload => exact ⟨⟨h.inv.ledger.load, nofun, nofun, nofun⟩, nofun⟩

theorem good_start : Good State.start := ⟨⟨ledger_start, nofun, nofun, nofun⟩, nofun⟩

theorem good_run (acts : List Act) : Good (run step .start acts) :=
  run_invariant (I := Good) (fun _ act h => step_good h act) good_start acts

/-- What the transport keeps to. -/
structure Sound (s : State) : Prop where
  settledOnce : (s.settled.map Prod.fst).Nodup
  onePlace : ∀ r ∈ s.queued, ∀ r' ∈ s.inFlight, r.id ≠ r'.id
  plainSentOnce : ((s.sends.filter fun a => a.operation.isNone).map Send.id).Nodup
  resentAlike : ∀ a ∈ s.sends, ∀ b ∈ s.sends, a.id = b.id → a.operation = b.operation
  /-- The entry of a sent action whose outcome is unknown is kept while nobody waits for the
  action, and a repeat takes over the first such entry. -/
  reused : ∀ a ∈ s.allSends, ∀ o, a.operation = some o → o ∉ s.known → o ∉ s.givenUp →
    o ∉ s.refused → (∀ r ∈ s.held none, r.operation ≠ some o) →
      (∃ e, s.storage.entry o = some e ∧ e.identity = o ∧ e.request = a.request) ∧
        ∃ e ∈ s.storage.unresolved, e.request = a.request ∧
          reusable s.storage a.request s.operationOwner = some e ∧
          (e.hostInterrupted = false → ∀ confirm,
            (prepareRemoteOperation s.storage a.request s.operationOwner confirm).1 =
              .ok (some e.identity))

theorem sound_of_good {s : State} (h : Good s) : Sound s where
  settledOnce := h.inv.ledger.settledOnce
  onePlace r hr r' hr' hid := by
    have hnodup : ((s.queued ++ s.inFlight.rows).map PendingRequest.id).Nodup :=
      h.inv.ledger.nodup
    rw [List.map_append] at hnodup
    exact List.disjoint_of_nodup_append hnodup (List.mem_map_of_mem hr)
      (hid ▸ List.mem_map_of_mem hr')
  plainSentOnce := h.inv.ledger.plainOnce
  resentAlike a ha b hb hid := by rw [h.inv.ledger.sendsAgree a ha b hb hid]
  reused a ha o ho hknown hgiven hrefused hfree := by
    rcases h.inv.ledger.accounted a ha o ho with hk | hg | ⟨e, he, hid, hreq, -⟩
    · exact absurd hk hknown
    · exact absurd hg hgiven
    refine ⟨⟨e, he, hid, hreq⟩, ?_⟩
    have hmem := (Storage.entry_eq_some.mp he).1
    have hmutation := hreq ▸ h.inv.ledger.entryMutation o e he
    have hwaits : e.uncertain = true ∨ e.owner ≠ s.operationOwner := by
      rcases h.inv.ledger.entryFree o e he with hu | hne | hr | ⟨r, hr, hop⟩
      · exact .inl hu
      · exact .inr hne
      · exact absurd (hid ▸ hr) hrefused
      · exact absurd (hid ▸ hop) (hfree r hr)
    obtain ⟨e', he'⟩ := exists_reusable hmem hwaits
    rw [hreq] at he'
    obtain ⟨hmem', hreq', -⟩ := reusable_eq_some he'
    exact ⟨e', hmem', hreq', he', fun hint confirm => prepare_of_reusable hmutation he' hint⟩

/-- **The transport is sound after any order of events.** -/
theorem transport_sound (acts : List Act) : Sound (run step .start acts) :=
  sound_of_good (good_run acts)

/-- A terminal write that is repeated before the first is answered. -/
def twoWrites : List Act :=
  [.authOk 1 true none, .invoke ⟨"terminal:write", "x"⟩ false none]

/-- **A repeated action can get a new identity** while the outcome of the first is unknown, as
long as the first still waits for its answer. -/
theorem repeat_not_reused :
    ¬ ∀ acts, ∀ a ∈ (run step .start acts).sends, ∀ o, a.operation = some o →
      o ∉ (run step .start acts).known → ∀ confirm,
        (prepareRemoteOperation (run step .start acts).storage a.request
          (run step .start acts).operationOwner confirm).1 = .ok (some o) := by
  intro h
  have hsent : (run step .start twoWrites).sends =
      [⟨1, ⟨"terminal:write", "x"⟩, some ⟨1, 2⟩⟩] := by rfl
  have := h twoWrites ⟨1, ⟨"terminal:write", "x"⟩, some ⟨1, 2⟩⟩ (by simp [hsent]) ⟨1, 2⟩ rfl
  revert this
  decide

end Argmax.Renderer.WsTransport
