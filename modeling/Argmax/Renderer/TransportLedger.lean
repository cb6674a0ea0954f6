import Argmax.Renderer.WsTransport

/-!
# What the transport owes its requests

`Ledger s held` relates the requests whose promise is open to the registry of actions and to
what went out. It does not say where a request is. Taking a request out of a list, changing
its timers and putting it elsewhere therefore leave the ledger, and what is left are a few
events: a request is made, it is sent, its promise ends.
-/

namespace Argmax.Renderer.WsTransport

open Argmax.Lib Argmax.Renderer.RemoteOperations

/-- Everything that went out, last first. -/
def State.allSends (s : State) : List Send := s.sends ++ s.earlierSends

/-- What the registry has of an action that a request waits for. -/
def EntryOf (s : State) (r : PendingRequest) (o : RemoteOperation) : Prop :=
  ∃ e, s.storage.entry o = some e ∧ e.identity = o ∧ e.request = r.request ∧
    e.owner = s.operationOwner ∧ e.uncertain = false ∧ e.sent = r.sent

/-- The outcome of a sent action is known, the user gave it up, or the registry has it. -/
def Accounted (s : State) (a : Send) (o : RemoteOperation) : Prop :=
  o ∈ s.known ∨ o ∈ s.givenUp ∨
    ∃ e, s.storage.entry o = some e ∧ e.identity = o ∧ e.request = a.request ∧ e.sent = true

structure Ledger (s : State) (held : List PendingRequest) : Prop where
  nodup : (held.map PendingRequest.id).Nodup
  idLt : ∀ r ∈ held, r.id < s.nextRequestId
  idOpen : ∀ r ∈ held, r.id ∉ s.settled.map Prod.fst
  settledOnce : (s.settled.map Prod.fst).Nodup
  settledLt : ∀ i ∈ s.settled.map Prod.fst, i < s.nextRequestId
  ownerLt : s.operationOwner < s.storage.nextUuid
  entryOwnerLt : ∀ o e, s.storage.entry o = some e → e.owner < s.storage.nextUuid
  entryMutation : ∀ o e, s.storage.entry o = some e → e.request.channel ∉ readChannels
  /-- An entry nobody waits for can be asked for again, but for the refused ones. -/
  entryFree : ∀ o e, s.storage.entry o = some e → e.uncertain = true ∨
    e.owner ≠ s.operationOwner ∨ e.identity ∈ s.refused ∨ ∃ r ∈ held, r.operation = some e.identity
  entryOf : ∀ r ∈ held, ∀ o, r.operation = some o → EntryOf s r o
  operationOnce : ∀ r ∈ held, ∀ r' ∈ held, ∀ o, r.operation = some o → r'.operation = some o →
    r = r'
  accounted : ∀ a ∈ s.allSends, ∀ o, a.operation = some o → Accounted s a o
  sendDrawn : ∀ a ∈ s.allSends, ∀ o, a.operation = some o → o.operationId < s.storage.nextUuid
  sendLt : ∀ a ∈ s.sends, a.id < s.nextRequestId
  sendOf : ∀ a ∈ s.sends, ∀ r ∈ held, r.id = a.id →
    r.sent = true ∧ a.operation = r.operation ∧ a.request = r.request
  sendsAgree : ∀ a ∈ s.sends, ∀ b ∈ s.sends, a.id = b.id → a = b
  plainOnce : ((s.sends.filter fun a => a.operation.isNone).map Send.id).Nodup
  /-- Only actions are sent again after an answer. -/
  retryAction : ∀ timer ∈ s.timers, ∀ id, timer.2 = .retry id → id < s.nextRequestId ∧
    ∀ r ∈ held, r.id = id → r.operation ≠ none
  /-- Only reads are fetched. -/
  fetchRead : ∀ fetch ∈ s.fetches, fetch.1 < s.nextRequestId ∧
    ∀ r ∈ held, r.id = fetch.1 → r.operation = none

/-! ## Moves -/

variable {s : State} {held : List PendingRequest} {r : PendingRequest} {o : RemoteOperation}
  {storage : Storage}

theorem Ledger.perm {held' : List PendingRequest} (h : Ledger s held) (hp : held'.Perm held) :
    Ledger s held' where
  nodup := (hp.map _).nodup_iff.mpr h.nodup
  idLt r hr := h.idLt r (hp.mem_iff.mp hr)
  idOpen r hr := h.idOpen r (hp.mem_iff.mp hr)
  settledOnce := h.settledOnce
  settledLt := h.settledLt
  ownerLt := h.ownerLt
  entryOwnerLt := h.entryOwnerLt
  entryMutation := h.entryMutation
  entryFree o e he := by simpa only [hp.mem_iff] using h.entryFree o e he
  entryOf r hr := h.entryOf r (hp.mem_iff.mp hr)
  operationOnce r hr r' hr' := h.operationOnce r (hp.mem_iff.mp hr) r' (hp.mem_iff.mp hr')
  accounted := h.accounted
  sendDrawn := h.sendDrawn
  sendLt := h.sendLt
  sendOf a ha r hr := h.sendOf a ha r (hp.mem_iff.mp hr)
  sendsAgree := h.sendsAgree
  plainOnce := h.plainOnce
  retryAction := by simpa only [hp.mem_iff] using h.retryAction
  fetchRead := by simpa only [hp.mem_iff] using h.fetchRead

/-- What a change of a request may not touch. -/
def SameRequest (r r' : PendingRequest) : Prop :=
  r.id = r'.id ∧ r.request = r'.request ∧ r.operation = r'.operation ∧ r.sent = r'.sent

/-- Timers are not in the ledger. -/
theorem Ledger.map (h : Ledger s held) {f : PendingRequest → PendingRequest}
    (hf : ∀ r ∈ held, SameRequest (f r) r) :
    Ledger s (held.map f) where
  nodup := by
    rw [List.map_map, show held.map (PendingRequest.id ∘ f) = held.map PendingRequest.id from
      List.map_congr_left fun r hr => (hf r hr).1]
    exact h.nodup
  idLt := List.forall_mem_map.mpr fun r hr => (hf r hr).1 ▸ h.idLt r hr
  idOpen := List.forall_mem_map.mpr fun r hr => (hf r hr).1 ▸ h.idOpen r hr
  settledOnce := h.settledOnce
  settledLt := h.settledLt
  ownerLt := h.ownerLt
  entryOwnerLt := h.entryOwnerLt
  entryMutation := h.entryMutation
  entryFree o e he := by
    rcases h.entryFree o e he with hfree | hfree | hfree | ⟨r, hr, hop⟩
    · exact .inl hfree
    · exact .inr (.inl hfree)
    · exact .inr (.inr (.inl hfree))
    · exact .inr (.inr (.inr ⟨f r, List.mem_map_of_mem hr, (hf r hr).2.2.1.trans hop⟩))
  entryOf := List.forall_mem_map.mpr fun r hr o ho => by
    have hr' := h.entryOf r hr o ((hf r hr).2.2.1.symm.trans ho)
    simpa only [EntryOf, (hf r hr).2.1, (hf r hr).2.2.2] using hr'
  operationOnce := List.forall_mem_map.mpr fun r hr =>
    List.forall_mem_map.mpr fun r' hr' o ho ho' => by
      have ho := (hf r hr).2.2.1.symm.trans ho
      rw [h.operationOnce r hr r' hr' o ho ((hf r' hr').2.2.1.symm.trans ho')]
  accounted := h.accounted
  sendDrawn := h.sendDrawn
  sendLt := h.sendLt
  sendOf a ha := List.forall_mem_map.mpr fun r hr hid => by
    obtain ⟨hid', hreq, hop, hsent⟩ := hf r hr
    rw [hreq, hop, hsent]
    exact h.sendOf a ha r hr (hid'.symm.trans hid)
  sendsAgree := h.sendsAgree
  plainOnce := h.plainOnce
  retryAction timer ht id htimer := by
    obtain ⟨hlt, hact⟩ := h.retryAction timer ht id htimer
    refine ⟨hlt, List.forall_mem_map.mpr fun r hr hid => ?_⟩
    rw [(hf r hr).2.2.1]
    exact hact r hr ((hf r hr).1.symm.trans hid)
  fetchRead fetch hfetch := by
    obtain ⟨hlt, hread⟩ := h.fetchRead fetch hfetch
    refine ⟨hlt, List.forall_mem_map.mpr fun r hr hid => ?_⟩
    rw [(hf r hr).2.2.1]
    exact hread r hr ((hf r hr).1.symm.trans hid)

theorem Ledger.change {r' : PendingRequest} (h : Ledger s (r :: held)) (hsame : SameRequest r' r) :
    Ledger s (r' :: held) := by
  have hnodup := h.nodup
  rw [List.map_cons, List.nodup_cons] at hnodup
  have hne : ∀ x ∈ held, x.id ≠ r.id := fun x hx hid => hnodup.1 (hid ▸ List.mem_map_of_mem hx)
  have hmap : (r :: held).map (fun x => if x.id = r.id then r' else x) = r' :: held := by
    rw [List.map_cons, if_pos rfl, List.map_congr_left fun x hx => if_neg (hne x hx), List.map_id']
  rw [← hmap]
  refine h.map (List.forall_mem_cons.mpr ⟨?_, fun x hx => ?_⟩)
  · rw [if_pos rfl]
    exact hsame
  · rw [if_neg (hne x hx)]
    exact ⟨rfl, rfl, rfl, rfl⟩

/-- An entry says which identity it has, so equal operation ids are one identity. -/
theorem Ledger.operation_eq (h : Ledger s held) {o' : RemoteOperation} {e : UnresolvedOperation}
    (hr : r ∈ held) (ho' : r.operation = some o') (he : s.storage.entry o = some e)
    (hid : e.identity = o) (heq : o.operationId = o'.operationId) : o = o' := by
  obtain ⟨e', he', hid', -⟩ := h.entryOf r hr o' ho'
  rw [Storage.entry, ← heq] at he'
  obtain rfl : e' = e := Option.some.inj (he'.symm.trans he)
  exact hid.symm.trans hid'

theorem Ledger.mutation (h : Ledger s held) (hr : r ∈ held) (ho : r.operation = some o) :
    r.request.channel ∉ readChannels := by
  obtain ⟨e, he, -, hreq, -⟩ := h.entryOf r hr o ho
  exact hreq ▸ h.entryMutation o e he

/-- No other open request has the identity of the first. -/
theorem Ledger.operationId_ne {r' : PendingRequest} (h : Ledger s (r :: held))
    {o' : RemoteOperation} (hr' : r' ∈ held) (ho : r'.operation = some o)
    (ho' : r.operation = some o') : o.operationId ≠ o'.operationId := by
  intro heq
  obtain ⟨e, he, hid, -⟩ := h.entryOf r' (List.mem_cons_of_mem _ hr') o ho
  obtain rfl := h.operation_eq List.mem_cons_self ho' he hid heq
  have hrr := h.operationOnce r' (List.mem_cons_of_mem _ hr') r List.mem_cons_self o ho ho'
  have hnodup := h.nodup
  rw [List.map_cons, List.nodup_cons] at hnodup
  exact hnodup.1 (hrr ▸ List.mem_map_of_mem hr')

/-! ## A promise ends -/

/-- The registry after the end of a request: it has no entry of the action left and did not
lose one that was sent, or it has one that can be asked for again. -/
def Released (s : State) (r : PendingRequest) : Prop :=
  ∀ o, r.operation = some o →
    (s.storage.entry o = none ∧ (o ∈ s.known ∨ r.sent = false)) ∨
    (∃ e, s.storage.entry o = some e ∧ e.identity = o ∧ e.request = r.request ∧
      e.owner = s.operationOwner ∧ e.sent = r.sent ∧ (e.uncertain = true ∨ o ∈ s.refused))

/-- **A promise ends.** The other entries of the registry stay. -/
theorem Ledger.close {t : State} {how : Settlement} (h : Ledger s (r :: held))
    (howner : t.operationOwner = s.operationOwner) (hnext : t.nextRequestId = s.nextRequestId)
    (hsettled : t.settled = s.settled) (hsends : t.sends = s.sends)
    (hearlier : t.earlierSends = s.earlierSends) (hgiven : t.givenUp = s.givenUp)
    (huuid : t.storage.nextUuid = s.storage.nextUuid) (hknown : ∀ o ∈ s.known, o ∈ t.known)
    (hrefused : ∀ o ∈ s.refused, o ∈ t.refused) (htimers : t.timers = s.timers)
    (hfetches : t.fetches = s.fetches)
    (hother : ∀ o, (∀ o', r.operation = some o' → o.operationId ≠ o'.operationId) →
      t.storage.entry o = s.storage.entry o) (hown : Released t r) :
    Ledger (t.settle r.id how) held := by
  have hnodup := h.nodup
  rw [List.map_cons, List.nodup_cons] at hnodup
  have hall : t.allSends = s.allSends := by simp [State.allSends, hsends, hearlier]
  -- An entry afterwards is the entry of the request or an entry from before.
  have hentry : ∀ o e, t.storage.entry o = some e →
      (s.storage.entry o = some e ∧ ∀ o', r.operation = some o' → o.operationId ≠ o'.operationId) ∨
      (r.operation = some e.identity ∧ e.request = r.request ∧ e.owner = s.operationOwner ∧
        (e.uncertain = true ∨ e.identity ∈ t.refused)) := by
    intro o e he
    by_cases hne : ∀ o', r.operation = some o' → o.operationId ≠ o'.operationId
    · exact .inl ⟨(hother o hne).symm.trans he, hne⟩
    · push Not at hne
      obtain ⟨o', ho', hid⟩ := hne
      have he' : t.storage.entry o' = some e := by
        rw [Storage.entry, ← hid]
        exact he
      rcases hown o' ho' with ⟨hnone, -⟩ | ⟨e', hsome, rfl, hreq, hown', -, hfree⟩
      · rw [hnone] at he'
        cases he'
      · obtain rfl : e' = e := Option.some.inj (hsome.symm.trans he')
        exact .inr ⟨ho', hreq, hown'.trans howner, hfree⟩
  constructor
  case nodup => exact hnodup.2
  case idLt =>
    intro r' hr'
    simpa [State.settle, hnext] using h.idLt r' (List.mem_cons_of_mem _ hr')
  case idOpen =>
    intro r' hr'
    simp only [State.settle, List.map_cons, List.mem_cons, not_or, hsettled]
    refine ⟨fun heq => hnodup.1 (heq ▸ List.mem_map_of_mem hr'), ?_⟩
    exact h.idOpen r' (List.mem_cons_of_mem _ hr')
  case settledOnce =>
    simp only [State.settle, List.map_cons, List.nodup_cons, hsettled]
    exact ⟨h.idOpen r List.mem_cons_self, h.settledOnce⟩
  case settledLt =>
    simp only [State.settle, List.map_cons, List.forall_mem_cons, hsettled, hnext]
    exact ⟨h.idLt r List.mem_cons_self, h.settledLt⟩
  case ownerLt => simpa [State.settle, howner, huuid] using h.ownerLt
  case entryOwnerLt =>
    intro o e he
    simp only [State.settle, huuid] at he ⊢
    rcases hentry o e he with ⟨he, -⟩ | ⟨-, -, hown', -⟩
    · exact h.entryOwnerLt o e he
    · exact hown' ▸ h.ownerLt
  case entryMutation =>
    intro o e he
    rcases hentry o e he with ⟨he, -⟩ | ⟨ho, hreq, -, -⟩
    · exact h.entryMutation o e he
    · exact hreq ▸ h.mutation List.mem_cons_self ho
  case entryFree =>
    intro o e he
    rcases hentry o e he with ⟨he, hne⟩ | ⟨-, -, -, hfree | hfree⟩
    · rcases h.entryFree o e he with hfree | hfree | hfree | ⟨r', hr', hop⟩
      · exact .inl hfree
      · exact .inr (.inl (by simpa [State.settle, howner] using hfree))
      · exact .inr (.inr (.inl (hrefused _ hfree)))
      · rcases List.mem_cons.mp hr' with rfl | hr'
        · exact absurd (Storage.entry_eq_some.mp he).2.symm (hne _ hop)
        · exact .inr (.inr (.inr ⟨r', hr', hop⟩))
    · exact .inl hfree
    · exact .inr (.inr (.inl hfree))
  case entryOf =>
    intro r' hr' o ho
    obtain ⟨e, he, hid, hrest⟩ := h.entryOf r' (List.mem_cons_of_mem _ hr') o ho
    refine ⟨e, ?_, hid, by simpa [State.settle, howner] using hrest⟩
    exact (hother o fun o' ho' => h.operationId_ne hr' ho ho').trans he
  case operationOnce =>
    intro r₁ h₁ r₂ h₂
    exact h.operationOnce r₁ (List.mem_cons_of_mem _ h₁) r₂ (List.mem_cons_of_mem _ h₂)
  case accounted =>
    intro a ha o ho
    have ha' : a ∈ s.allSends := hall ▸ ha
    rcases h.accounted a ha' o ho with hk | hg | ⟨e, he, hid, hreq, hsent⟩
    · exact .inl (hknown o hk)
    · exact .inr (.inl (by simpa [State.settle, hgiven] using hg))
    · by_cases hne : ∀ o', r.operation = some o' → o.operationId ≠ o'.operationId
      · exact .inr (.inr ⟨e, (hother o hne).trans he, hid, hreq, hsent⟩)
      · push Not at hne
        obtain ⟨o', ho', heq⟩ := hne
        obtain rfl := h.operation_eq List.mem_cons_self ho' he hid heq
        obtain ⟨e', he', hid', hreq', -, -, hsent'⟩ := h.entryOf r List.mem_cons_self o ho'
        obtain rfl : e' = e := Option.some.inj (he'.symm.trans he)
        rcases hown o ho' with ⟨-, hk | hunsent⟩ | ⟨e, he, hide, hreqe, -, hsente, -⟩
        · exact .inl hk
        · rw [hsent', hunsent] at hsent
          cases hsent
        · exact .inr (.inr ⟨e, he, hide, hreqe.trans (hreq'.symm.trans hreq),
            hsente.trans (hsent'.symm.trans hsent)⟩)
  case sendDrawn =>
    intro a ha o ho
    simpa [State.settle, huuid] using h.sendDrawn a (hall ▸ ha) o ho
  case sendLt => simpa [State.settle, hsends, hnext] using h.sendLt
  case sendOf =>
    intro a ha r' hr'
    exact h.sendOf a (by simpa [State.settle, hsends] using ha) r' (List.mem_cons_of_mem _ hr')
  case sendsAgree => simpa [State.settle, hsends] using h.sendsAgree
  case plainOnce => simpa [State.settle, hsends] using h.plainOnce
  case retryAction =>
    intro timer ht id htimer
    obtain ⟨hlt, hact⟩ := h.retryAction timer (htimers ▸ ht) id htimer
    exact ⟨Nat.lt_of_lt_of_eq hlt hnext.symm, (List.forall_mem_cons.mp hact).2⟩
  case fetchRead =>
    intro fetch hfetch
    obtain ⟨hlt, hread⟩ := h.fetchRead fetch (hfetches ▸ hfetch)
    exact ⟨Nat.lt_of_lt_of_eq hlt hnext.symm, (List.forall_mem_cons.mp hread).2⟩

/-! ## A request is sent -/

/-- **A request goes out.** A request without an identity did not go out before. -/
theorem Ledger.transmit (h : Ledger s (r :: held)) (hplain : r.operation = none → r.sent = false)
    (huuid : storage.nextUuid = s.storage.nextUuid)
    (hother : ∀ o, (∀ o', r.operation = some o' → o.operationId ≠ o'.operationId) →
      storage.entry o = s.storage.entry o)
    (hown : ∀ o, r.operation = some o →
      EntryOf { s with storage := storage } { r with sent := true } o) :
    Ledger (transmit { s with storage := storage } r) ({ r with sent := true } :: held) := by
  have hnodup := h.nodup
  rw [List.map_cons, List.nodup_cons] at hnodup
  have hentry : ∀ o e, storage.entry o = some e →
      (s.storage.entry o = some e ∧ ∀ o', r.operation = some o' → o.operationId ≠ o'.operationId) ∨
      (r.operation = some e.identity ∧ e.request = r.request ∧ e.owner = s.operationOwner) := by
    intro o e he
    by_cases hne : ∀ o', r.operation = some o' → o.operationId ≠ o'.operationId
    · exact .inl ⟨(hother o hne).symm.trans he, hne⟩
    · push Not at hne
      obtain ⟨o', ho', hid⟩ := hne
      rw [Storage.entry, hid] at he
      obtain ⟨e', he', rfl, hreq, hown', -, -⟩ := hown o' ho'
      obtain rfl : e' = e := Option.some.inj (he'.symm.trans he)
      exact .inr ⟨ho', hreq, hown'⟩
  have hsent : ∀ b ∈ s.sends, b.id = r.id → b = ⟨r.id, r.request, r.operation⟩ := by
    intro b hb hid
    obtain ⟨-, hop, hreq⟩ := h.sendOf b hb r List.mem_cons_self hid.symm
    rw [← hid, ← hreq, ← hop]
  constructor
  case nodup => exact h.nodup
  case idLt => exact List.forall_mem_cons.mpr (List.forall_mem_cons.mp h.idLt)
  case idOpen => exact List.forall_mem_cons.mpr (List.forall_mem_cons.mp h.idOpen)
  case settledOnce => exact h.settledOnce
  case settledLt => exact h.settledLt
  case ownerLt => exact Nat.lt_of_lt_of_eq h.ownerLt huuid.symm
  case entryOwnerLt =>
    intro o e he
    refine Nat.lt_of_lt_of_eq ?_ huuid.symm
    rcases hentry o e he with ⟨he, -⟩ | ⟨-, -, hown'⟩
    · exact h.entryOwnerLt o e he
    · exact hown' ▸ h.ownerLt
  case entryMutation =>
    intro o e he
    rcases hentry o e he with ⟨he, -⟩ | ⟨ho, hreq, -⟩
    · exact h.entryMutation o e he
    · exact hreq ▸ h.mutation List.mem_cons_self ho
  case entryFree =>
    intro o e he
    rcases hentry o e he with ⟨he, -⟩ | ⟨ho, -, -⟩
    · rcases h.entryFree o e he with hfree | hfree | hfree | ⟨r', hr', hop⟩
      · exact .inl hfree
      · exact .inr (.inl hfree)
      · exact .inr (.inr (.inl hfree))
      · refine .inr (.inr (.inr ?_))
        rcases List.mem_cons.mp hr' with rfl | hr'
        · exact ⟨_, List.mem_cons_self, hop⟩
        · exact ⟨r', List.mem_cons_of_mem _ hr', hop⟩
    · exact .inr (.inr (.inr ⟨_, List.mem_cons_self, ho⟩))
  case entryOf =>
    refine List.forall_mem_cons.mpr ⟨hown, fun r' hr' o ho => ?_⟩
    obtain ⟨e, he, hid, hrest⟩ := h.entryOf r' (List.mem_cons_of_mem _ hr') o ho
    exact ⟨e, (hother o fun o' ho' => h.operationId_ne hr' ho ho').trans he, hid, hrest⟩
  case operationOnce =>
    have hne : ∀ r' ∈ held, ∀ o, r.operation = some o → r'.operation ≠ some o :=
      fun r' hr' o ho ho' => h.operationId_ne hr' ho' ho rfl
    refine List.forall_mem_cons.mpr ⟨List.forall_mem_cons.mpr ⟨fun _ _ _ => rfl, ?_⟩, ?_⟩
    · exact fun r' hr' o ho ho' => absurd ho' (hne r' hr' o ho)
    · refine fun r₁ h₁ => List.forall_mem_cons.mpr ⟨fun o ho ho' => ?_, fun r₂ h₂ => ?_⟩
      · exact absurd ho (hne r₁ h₁ o ho')
      · exact h.operationOnce r₁ (List.mem_cons_of_mem _ h₁) r₂ (List.mem_cons_of_mem _ h₂)
  case accounted =>
    intro a ha o ho
    rcases List.mem_cons.mp (show a ∈ _ :: s.allSends from ha) with rfl | ha
    · obtain ⟨e, he, hid, hreq, -, -, hsent⟩ := hown o ho
      exact .inr (.inr ⟨e, he, hid, hreq, hsent⟩)
    · rcases h.accounted a ha o ho with hk | hg | ⟨e, he, hid, hreq, hesent⟩
      · exact .inl hk
      · exact .inr (.inl hg)
      · by_cases hne : ∀ o', r.operation = some o' → o.operationId ≠ o'.operationId
        · exact .inr (.inr ⟨e, (hother o hne).trans he, hid, hreq, hesent⟩)
        · push Not at hne
          obtain ⟨o', ho', heq⟩ := hne
          obtain rfl := h.operation_eq List.mem_cons_self ho' he hid heq
          obtain ⟨e', he', -, hreq', -⟩ := h.entryOf r List.mem_cons_self o ho'
          obtain rfl : e' = e := Option.some.inj (he'.symm.trans he)
          obtain ⟨e, he, hide, hreqe, -, -, hsente⟩ := hown o ho'
          exact .inr (.inr ⟨e, he, hide, hreqe.trans (hreq'.symm.trans hreq), hsente⟩)
  case sendDrawn =>
    intro a ha o ho
    refine Nat.lt_of_lt_of_eq ?_ huuid.symm
    rcases List.mem_cons.mp (show a ∈ _ :: s.allSends from ha) with rfl | ha
    · obtain ⟨e, he, -, -⟩ := h.entryOf r List.mem_cons_self o ho
      obtain ⟨hmem, hid⟩ := Storage.entry_eq_some.mp he
      exact hid ▸ s.storage.drawn e hmem
    · exact h.sendDrawn a ha o ho
  case sendLt => exact List.forall_mem_cons.mpr ⟨h.idLt r List.mem_cons_self, h.sendLt⟩
  case sendOf =>
    refine List.forall_mem_cons.mpr ⟨List.forall_mem_cons.mpr ⟨fun _ => ⟨rfl, rfl, rfl⟩, ?_⟩, ?_⟩
    · intro r' hr' hid
      have hid : r'.id = r.id := hid
      exact absurd (hid ▸ List.mem_map_of_mem hr') hnodup.1
    · refine fun a ha => List.forall_mem_cons.mpr ⟨fun hid => ?_, fun r' hr' => ?_⟩
      · exact ⟨rfl, (h.sendOf a ha r List.mem_cons_self hid).2⟩
      · exact h.sendOf a ha r' (List.mem_cons_of_mem _ hr')
  case sendsAgree =>
    refine List.forall_mem_cons.mpr ⟨List.forall_mem_cons.mpr ⟨fun _ => rfl, ?_⟩, ?_⟩
    · exact fun b hb hid => (hsent b hb hid.symm).symm
    · refine fun a ha => List.forall_mem_cons.mpr ⟨fun hid => hsent a ha hid, fun b hb => ?_⟩
      exact h.sendsAgree a ha b hb
  case plainOnce =>
    simp only [WsTransport.transmit, List.filter_cons]
    split
    · rename_i hnone
      rw [List.map_cons, List.nodup_cons]
      refine ⟨fun hmem => ?_, h.plainOnce⟩
      obtain ⟨a, ha, hid⟩ := List.mem_map.mp hmem
      have := (h.sendOf a (List.mem_filter.mp ha).1 r List.mem_cons_self hid.symm).1
      rw [hplain (Option.isNone_iff_eq_none.mp hnone)] at this
      cases this
    · exact h.plainOnce
  case retryAction =>
    intro timer ht id htimer
    obtain ⟨hlt, hact⟩ := h.retryAction timer ht id htimer
    exact ⟨hlt, List.forall_mem_cons.mpr (List.forall_mem_cons.mp hact)⟩
  case fetchRead =>
    intro fetch hfetch
    obtain ⟨hlt, hread⟩ := h.fetchRead fetch hfetch
    exact ⟨hlt, List.forall_mem_cons.mpr (List.forall_mem_cons.mp hread)⟩

/-! ## A request is made -/

/-- No open request has the identity of an entry that can be asked for again. -/
theorem Ledger.reusable_ne (h : Ledger s held) {request : Request} {e : UnresolvedOperation}
    (he : reusable s.storage request s.operationOwner = some e) (hr : r ∈ held)
    (ho : r.operation = some o) : o.operationId ≠ e.identity.operationId := by
  intro heq
  obtain ⟨hmem, -, hfree⟩ := reusable_eq_some he
  obtain ⟨e', he', -, -, howner, hunc, -⟩ := h.entryOf r hr o ho
  have he'' : s.storage.entry o = some e := by
    rw [Storage.entry, heq]
    exact Storage.entry_of_mem hmem
  obtain rfl : e' = e := Option.some.inj (he'.symm.trans he'')
  rcases hfree with hfree | hfree
  · rw [hunc] at hfree
    cases hfree
  · exact hfree howner

/-- **A request is made.** Its identity is that of no open request, the entries of the open
requests stay, and an entry is only lost when the user gave it up. -/
theorem Ledger.add {givenUp : List RemoteOperation} (h : Ledger s held)
    (hid : r.id = s.nextRequestId) (hgiven : ∀ o ∈ s.givenUp, o ∈ givenUp)
    (huuid : s.storage.nextUuid ≤ storage.nextUuid)
    (hmut : ∀ o, r.operation = some o → r.request.channel ∉ readChannels)
    (hold : ∀ o e, storage.entry o = some e →
      s.storage.entry o = some e ∨ r.operation = some e.identity)
    (hkept : ∀ o e, s.storage.entry o = some e → e.identity ∈ givenUp ∨
      ∃ e', storage.entry o = some e' ∧ e'.identity = e.identity ∧ e'.request = e.request ∧
        e'.sent = e.sent)
    (hown : ∀ o, r.operation = some o → EntryOf { s with storage := storage } r o)
    (hlive : ∀ r' ∈ held, ∀ o, r'.operation = some o →
      r.operation ≠ some o ∧ storage.entry o = s.storage.entry o) :
    Ledger { s with
      nextRequestId := s.nextRequestId + 1, storage := storage, givenUp := givenUp }
      (r :: held) := by
  have hlt : ∀ r' ∈ held, r'.id ≠ r.id := fun r' hr' => hid ▸ Nat.ne_of_lt (h.idLt r' hr')
  constructor
  case nodup =>
    rw [List.map_cons, List.nodup_cons]
    refine ⟨fun hmem => ?_, h.nodup⟩
    obtain ⟨r', hr', heq⟩ := List.mem_map.mp hmem
    exact hlt r' hr' heq
  case idLt =>
    refine List.forall_mem_cons.mpr ⟨hid ▸ Nat.lt_succ_self _, fun r' hr' => ?_⟩
    exact Nat.lt_succ_of_lt (h.idLt r' hr')
  case idOpen =>
    refine List.forall_mem_cons.mpr ⟨fun hmem => ?_, h.idOpen⟩
    exact absurd (h.settledLt _ hmem) (by omega)
  case settledOnce => exact h.settledOnce
  case settledLt => exact fun i hi => Nat.lt_succ_of_lt (h.settledLt i hi)
  case ownerLt => exact Nat.lt_of_lt_of_le h.ownerLt huuid
  case entryOwnerLt =>
    intro o e he
    rcases hold o e he with he' | ho
    · exact Nat.lt_of_lt_of_le (h.entryOwnerLt o e he') huuid
    · obtain ⟨e', he', -, -, howner, -⟩ := hown _ ho
      have hentry : storage.entry e.identity = some e :=
        Storage.entry_of_mem (Storage.entry_eq_some.mp he).1
      obtain rfl : e' = e := Option.some.inj (he'.symm.trans hentry)
      exact Nat.lt_of_le_of_lt (Nat.le_of_eq howner) (Nat.lt_of_lt_of_le h.ownerLt huuid)
  case entryMutation =>
    intro o e he
    rcases hold o e he with he' | ho
    · exact h.entryMutation o e he'
    · obtain ⟨e', he', -, hreq, -⟩ := hown _ ho
      have hentry : storage.entry e.identity = some e :=
        Storage.entry_of_mem (Storage.entry_eq_some.mp he).1
      obtain rfl : e' = e := Option.some.inj (he'.symm.trans hentry)
      exact hreq ▸ hmut _ ho
  case entryFree =>
    intro o e he
    rcases hold o e he with he' | ho
    · rcases h.entryFree o e he' with hfree | hfree | hfree | ⟨r', hr', hop⟩
      · exact .inl hfree
      · exact .inr (.inl hfree)
      · exact .inr (.inr (.inl hfree))
      · exact .inr (.inr (.inr ⟨r', List.mem_cons_of_mem _ hr', hop⟩))
    · exact .inr (.inr (.inr ⟨r, List.mem_cons_self, ho⟩))
  case entryOf =>
    refine List.forall_mem_cons.mpr ⟨hown, fun r' hr' o ho => ?_⟩
    obtain ⟨e, he, hrest⟩ := h.entryOf r' hr' o ho
    exact ⟨e, (hlive r' hr' o ho).2.trans he, hrest⟩
  case operationOnce =>
    refine List.forall_mem_cons.mpr ⟨List.forall_mem_cons.mpr ⟨fun _ _ _ => rfl, ?_⟩, ?_⟩
    · exact fun r' hr' o ho ho' => absurd ho (hlive r' hr' o ho').1
    · refine fun r₁ h₁ => List.forall_mem_cons.mpr ⟨fun o ho ho' => ?_, h.operationOnce r₁ h₁⟩
      exact absurd ho' (hlive r₁ h₁ o ho).1
  case accounted =>
    intro a ha o ho
    rcases h.accounted a ha o ho with hk | hg | ⟨e, he, rfl, hreq, hsent⟩
    · exact .inl hk
    · exact .inr (.inl (hgiven o hg))
    · rcases hkept _ e he with hg | ⟨e', he', hid', hreq', hsent'⟩
      · exact .inr (.inl hg)
      · exact .inr (.inr ⟨e', he', hid', hreq'.trans hreq, hsent'.trans hsent⟩)
  case sendDrawn =>
    exact fun a ha o ho => Nat.lt_of_lt_of_le (h.sendDrawn a ha o ho) huuid
  case sendLt => exact fun a ha => Nat.lt_succ_of_lt (h.sendLt a ha)
  case sendOf =>
    refine fun a ha => List.forall_mem_cons.mpr ⟨fun heq => ?_, h.sendOf a ha⟩
    exact absurd (h.sendLt a ha) (by omega)
  case sendsAgree => exact h.sendsAgree
  case plainOnce => exact h.plainOnce
  case retryAction =>
    intro timer ht id htimer
    obtain ⟨hlt, hact⟩ := h.retryAction timer ht id htimer
    exact ⟨Nat.lt_succ_of_lt hlt, List.forall_mem_cons.mpr ⟨fun heq => by omega, hact⟩⟩
  case fetchRead =>
    intro fetch hfetch
    obtain ⟨hlt, hread⟩ := h.fetchRead fetch hfetch
    exact ⟨Nat.lt_succ_of_lt hlt, List.forall_mem_cons.mpr ⟨fun heq => by omega, hread⟩⟩

/-- The request asks again for an action of the registry. -/
theorem Ledger.addReused {e : UnresolvedOperation} (h : Ledger s held)
    (hid : r.id = s.nextRequestId) (he : reusable s.storage r.request s.operationOwner = some e)
    (hop : r.operation = some e.identity) (hmut : r.request.channel ∉ readChannels)
    (hstorage : storage = s.storage.takeOver e.identity s.operationOwner)
    (hsent : r.sent = remoteOperationWasSent storage e.identity) :
    Ledger { s with nextRequestId := s.nextRequestId + 1, storage := storage } (r :: held) := by
  obtain ⟨hmem, hreq, -⟩ := reusable_eq_some he
  have hin : s.storage.entry e.identity = some e := Storage.entry_of_mem hmem
  have hentry : ∀ o, storage.entry o = (s.storage.entry o).map fun e' =>
      if o.operationId = e.identity.operationId then
        { e' with owner := s.operationOwner, uncertain := false } else e' := fun o =>
    hstorage ▸ Storage.entry_takeOver
  have hnow : storage.entry e.identity =
      some { e with owner := s.operationOwner, uncertain := false } := by
    simp [hentry, hin]
  refine h.add hid (fun _ ho => ho) (hstorage ▸ Nat.le_refl _) (fun _ _ => hmut) ?_ ?_ ?_ ?_
  · intro o e' he'
    rw [hentry, Option.map_eq_some_iff] at he'
    obtain ⟨e₀, he₀, rfl⟩ := he'
    split
    · rename_i heq
      rw [Storage.entry, heq] at he₀
      obtain rfl : e₀ = e := Option.some.inj (he₀.symm.trans hin)
      exact .inr hop
    · exact .inl he₀
  · intro o e' he'
    refine .inr ⟨_, (hentry o).trans (by rw [he', Option.map_some]), ?_⟩
    split <;> exact ⟨rfl, rfl, rfl⟩
  · intro o ho
    obtain rfl : e.identity = o := Option.some.inj (hop.symm.trans ho)
    refine ⟨_, hnow, rfl, hreq, rfl, rfl, ?_⟩
    simp [hsent, remoteOperationWasSent, hnow]
  · intro r' hr' o ho
    have hne := h.reusable_ne he hr' ho
    refine ⟨fun heq => hne ?_, by simp [hentry, hne]⟩
    rw [Option.some.inj (hop.symm.trans heq)]

/-- The request is an action that the registry does not have, or whose entry the user gave
up. -/
theorem Ledger.addRegistered {givenUp : List RemoteOperation} (h : Ledger s held) (old : Storage)
    (hid : r.id = s.nextRequestId) (hgiven : ∀ o ∈ s.givenUp, o ∈ givenUp)
    (huuid : old.nextUuid = s.storage.nextUuid)
    (hold : ∀ o e, old.entry o = some e → s.storage.entry o = some e)
    (hkept : ∀ o e, s.storage.entry o = some e → e.identity ∈ givenUp ∨ old.entry o = some e)
    (hlive : ∀ r' ∈ held, ∀ o, r'.operation = some o → old.entry o = s.storage.entry o)
    (hregister : (o, storage) = old.register r.request s.operationOwner)
    (hop : r.operation = some o) (hmut : r.request.channel ∉ readChannels)
    (hsent : r.sent = remoteOperationWasSent storage o) :
    Ledger { s with
      nextRequestId := s.nextRequestId + 1, storage := storage, givenUp := givenUp }
      (r :: held) := by
  obtain ⟨ho, hst⟩ := Prod.ext_iff.mp hregister
  dsimp only at ho hst
  have hge : s.storage.nextUuid ≤ o.operationId :=
    huuid ▸ ho ▸ Storage.register_operationId_ge r.request s.operationOwner
  have hlt : o.operationId < storage.nextUuid :=
    ho ▸ hst ▸ Storage.register_operationId_lt r.request s.operationOwner
  have hentry : ∀ o', storage.entry o' = if o'.operationId = o.operationId
      then some ⟨r.request, o, false, s.operationOwner, false, false⟩ else old.entry o' :=
    fun o' => by rw [hst, ho, Storage.entry_register]
  have hnew : ∀ o' e, s.storage.entry o' = some e → o'.operationId ≠ o.operationId := by
    intro o' e he
    obtain ⟨hmem, hid'⟩ := Storage.entry_eq_some.mp he
    have := s.storage.drawn e hmem
    omega
  refine h.add hid hgiven (by omega) (fun _ _ => hmut) ?_ ?_ ?_ ?_
  · intro o' e he
    rw [hentry] at he
    split at he
    · cases he
      exact .inr hop
    · exact .inl (hold o' e he)
  · intro o' e he
    rcases hkept o' e he with hg | hk
    · exact .inl hg
    · exact .inr ⟨e, by rw [hentry, if_neg (hnew o' e he), hk], rfl, rfl, rfl⟩
  · intro o' ho'
    obtain rfl : o = o' := Option.some.inj (hop.symm.trans ho')
    refine ⟨_, (hentry o).trans (if_pos rfl), rfl, rfl, rfl, rfl, ?_⟩
    simp [hsent, remoteOperationWasSent, hentry]
  · intro r' hr' o' ho'
    obtain ⟨e, he, -⟩ := h.entryOf r' hr' o' ho'
    have hne := hnew o' e he
    refine ⟨fun heq => hne ?_, ?_⟩
    · rw [Option.some.inj (hop.symm.trans heq)]
    · rw [hentry, if_neg hne, hlive r' hr' o' ho']

/-- A promise that ends as it begins. -/
theorem Ledger.skip {how : Settlement} (h : Ledger s held) :
    Ledger ({ s with nextRequestId := s.nextRequestId + 1 }.settle s.nextRequestId how) held where
  nodup := h.nodup
  idLt r hr := Nat.lt_succ_of_lt (h.idLt r hr)
  idOpen r hr := by
    simp only [State.settle, List.map_cons, List.mem_cons, not_or]
    exact ⟨Nat.ne_of_lt (h.idLt r hr), h.idOpen r hr⟩
  settledOnce := by
    simp only [State.settle, List.map_cons, List.nodup_cons]
    exact ⟨fun hmem => Nat.lt_irrefl _ (h.settledLt _ hmem), h.settledOnce⟩
  settledLt := by
    simp only [State.settle, List.map_cons, List.forall_mem_cons]
    exact ⟨Nat.lt_succ_self _, fun i hi => Nat.lt_succ_of_lt (h.settledLt i hi)⟩
  ownerLt := h.ownerLt
  entryOwnerLt := h.entryOwnerLt
  entryMutation := h.entryMutation
  entryFree := h.entryFree
  entryOf := h.entryOf
  operationOnce := h.operationOnce
  accounted := h.accounted
  sendDrawn := h.sendDrawn
  sendLt a ha := Nat.lt_succ_of_lt (h.sendLt a ha)
  sendOf := h.sendOf
  sendsAgree := h.sendsAgree
  plainOnce := h.plainOnce
  retryAction timer ht id htimer :=
    (h.retryAction timer ht id htimer).imp_left fun hlt => Nat.lt_succ_of_lt hlt
  fetchRead fetch hfetch := (h.fetchRead fetch hfetch).imp_left fun hlt => Nat.lt_succ_of_lt hlt

/-! ## A page loads -/

/-- Every entry that the page finds can be asked for again. -/
theorem Ledger.load (h : Ledger s held) :
    Ledger (createWsTransport s.storage (s.sends ++ s.earlierSends) s.known s.refused s.givenUp)
      [] where
  nodup := List.nodup_nil
  idLt := by simp
  idOpen := by simp
  settledOnce := by simp [createWsTransport, openSocket]
  settledLt := by simp [createWsTransport, openSocket]
  ownerLt := Nat.lt_succ_self _
  entryOwnerLt o e he := Nat.lt_succ_of_lt (h.entryOwnerLt o e he)
  entryMutation := h.entryMutation
  entryFree o e he := .inr (.inl (Nat.ne_of_lt (h.entryOwnerLt o e he)))
  entryOf := by simp
  operationOnce := by simp
  accounted a ha := by
    exact h.accounted a ha
  sendDrawn a ha o ho := by
    exact Nat.lt_succ_of_lt (h.sendDrawn a ha o ho)
  sendLt := by simp [createWsTransport, openSocket]
  sendOf := by simp
  sendsAgree := by simp [createWsTransport, openSocket]
  plainOnce := by simp [createWsTransport, openSocket]
  retryAction := by simp [createWsTransport, openSocket]
  fetchRead := by simp [createWsTransport, openSocket]

theorem ledger_start : Ledger State.start [] := by
  constructor <;>
    simp [State.start, createWsTransport, openSocket, Storage.draw, Storage.empty, Storage.entry,
      State.allSends]

end Argmax.Renderer.WsTransport
