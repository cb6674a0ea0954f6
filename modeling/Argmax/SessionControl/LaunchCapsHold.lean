import Argmax.SessionControl.LaunchCounts
import Mathlib.Data.List.Perm.Subperm

/-!
# The caps on launches hold: the runs

What `LaunchCounts` says of one step is an invariant of every ordered run: whose session a row is
and who has the lock, where each session that was started is counted, and how deep it is.
-/

namespace Argmax.SessionControl.LaunchCaps

open Argmax.Lib Argmax.Persistence.LaunchReceipts

/-! ## The store -/

/-- A session that was started has a row, and so has its launcher. What a receipt names was
started for its caller, once there is a row. -/
structure Store (db : Database) (starts : List Start) (drawn : ℕ) : Prop where
  rows : ∀ id, (db.sessions.find? id).isSome → id < drawn
  receipts : ∀ receipt ∈ db.receipts, receipt.sessionId < drawn
  present : ∀ start ∈ starts, (db.sessions.find? start.child).isSome ∧
    (db.sessions.find? start.parent).isSome
  once : (starts.map Start.child).Nodup
  distinct : Distinct db
  named : ∀ receipt ∈ db.receipts, (db.sessions.find? receipt.sessionId).isSome →
    ∃ start ∈ starts, start.child = receipt.sessionId ∧ start.parent = receipt.callerSessionId

variable {parent call depth : ℕ} {exempt : Bool} {request : String} {receipt : LaunchReceipt}
  {s' : State} {c : Call} {new : Option Call} {key : BudgetKey} {arcId : Option ℕ} {stage : Stage}

namespace Store

variable {db db' : Database} {starts : List Start} {drawn : ℕ}

theorem mono (h : Store db starts drawn) {drawn' : ℕ} (hle : drawn ≤ drawn') :
    Store db starts drawn' where
  rows := fun id hid => Nat.lt_of_lt_of_le (h.rows id hid) hle
  receipts := fun receipt hreceipt => Nat.lt_of_lt_of_le (h.receipts receipt hreceipt) hle
  present := h.present
  once := h.once
  distinct := h.distinct
  named := h.named

theorem none_of_drawn (h : Store db starts drawn) : db.sessions.find? drawn = none := by
  by_contra hne
  exact Nat.lt_irrefl _ (h.rows drawn (Option.isSome_iff_ne_none.mpr hne))

/-- The rows may change, when none comes or goes. -/
theorem of_rows (h : Store db starts drawn) (hreceipts : db'.receipts = db.receipts)
    (hrows : ∀ id, (db'.sessions.find? id).isSome = (db.sessions.find? id).isSome) :
    Store db' starts drawn where
  rows := fun id hid => h.rows id (by rwa [← hrows])
  receipts := fun receipt hreceipt => h.receipts receipt (hreceipts ▸ hreceipt)
  present := fun start hstart => by
    rw [hrows, hrows]
    exact h.present start hstart
  once := h.once
  distinct := by
    intro receipt hreceipt other hother
    rw [hreceipts] at hreceipt hother
    exact h.distinct receipt hreceipt other hother
  named := fun receipt hreceipt hrow =>
    h.named receipt (hreceipts ▸ hreceipt) (by rwa [← hrows])

theorem settles (h : Store db starts drawn) (hsettles : Settles db db') :
    Store db' starts drawn where
  rows := by simpa [hsettles.sessions] using h.rows
  receipts := fun receipt' hreceipt' => by
    obtain ⟨receipt, hreceipt, _, hsession⟩ := hsettles.before receipt' hreceipt'
    exact hsession ▸ h.receipts receipt hreceipt
  present := by simpa [hsettles.sessions] using h.present
  once := h.once
  distinct := hsettles.distinct h.distinct
  named := fun receipt' hreceipt' hrow => by
    obtain ⟨receipt, hreceipt, hkey, hsession⟩ := hsettles.before receipt' hreceipt'
    rw [hsettles.sessions, ← hsession] at hrow
    obtain ⟨start, hstart, hchild, hparent⟩ := h.named receipt hreceipt hrow
    exact ⟨start, hstart, hchild.trans hsession, hparent.trans (congrArg Prod.fst hkey)⟩

theorem isSome_reconcile (id : ℕ) :
    (db.reconcileUncertainLineage.sessions.find? id).isSome = (db.sessions.find? id).isSome := by
  simp [find?_reconcile]

theorem reconcile (h : Store db starts drawn) :
    Store db.reconcileUncertainLineage starts drawn := h.of_rows rfl isSome_reconcile

/-- A row is written for an id that no receipt names. -/
theorem opened (h : Store db starts drawn) :
    Store { db with sessions := db.sessions.put ⟨drawn, none, launchKindAgent⟩ } starts
      (drawn + 1) where
  rows := fun id hid => by
    by_cases hdrawn : drawn = id
    · omega
    · rw [Table.find?_put, if_neg hdrawn] at hid
      exact Nat.lt_succ_of_lt (h.rows id hid)
  receipts := fun receipt hreceipt => Nat.lt_succ_of_lt (h.receipts receipt hreceipt)
  present := fun start hstart => by
    have ⟨hchild, hparent⟩ := h.present start hstart
    have := h.rows _ hchild
    have := h.rows _ hparent
    rw [Table.find?_put, Table.find?_put, if_neg (by simp only; omega), if_neg (by simp only; omega)]
    exact ⟨hchild, hparent⟩
  once := h.once
  distinct := h.distinct
  named := fun receipt hreceipt hrow => by
    have := h.receipts receipt hreceipt
    rw [Table.find?_put, if_neg (by simp only; omega)] at hrow
    exact h.named receipt hreceipt hrow

/-- A session is written for its caller. Only the caller's receipt names it. -/
theorem written (h : Store db starts drawn) {child : ℕ} (hfree : db.sessions.find? child = none)
    (hchild : child < drawn) (hparent : (db.sessions.find? parent).isSome)
    (hcaller : ∀ receipt ∈ db.receipts, receipt.sessionId = child →
      receipt.callerSessionId = parent) :
    Store { db with sessions := db.sessions.put ⟨child, none, launchKindAgent⟩ }
      (⟨child, parent, exempt⟩ :: starts) drawn where
  rows := fun id hid => by
    by_cases heq : child = id
    · omega
    · rw [Table.find?_put, if_neg heq] at hid
      exact h.rows id hid
  receipts := h.receipts
  present := fun start hstart => by
    have hkept : ∀ id, (db.sessions.find? id).isSome →
        ((db.sessions.put ⟨child, none, launchKindAgent⟩).find? id).isSome := by
      intro id hid
      rw [Table.find?_put]
      split <;> simp [hid]
    rcases List.mem_cons.mp hstart with rfl | hstart
    · exact ⟨by simp [Table.find?_put], hkept _ hparent⟩
    · obtain ⟨hchild, hparent⟩ := h.present start hstart
      exact ⟨hkept _ hchild, hkept _ hparent⟩
  once := by
    rw [List.map_cons, List.nodup_cons]
    refine ⟨?_, h.once⟩
    intro hmem
    obtain ⟨start, hstart, heq⟩ := List.mem_map.mp hmem
    have := (h.present start hstart).1
    simp [heq, hfree] at this
  distinct := h.distinct
  named := fun receipt hreceipt hrow => by
    by_cases heq : receipt.sessionId = child
    · exact ⟨_, List.mem_cons_self, heq.symm, (hcaller receipt hreceipt heq).symm⟩
    · rw [Table.find?_put, if_neg (Ne.symm heq)] at hrow
      obtain ⟨start, hstart, hnames⟩ := h.named receipt hreceipt hrow
      exact ⟨start, List.mem_cons_of_mem _ hstart, hnames⟩

/-- A claim draws an id that nothing has. -/
theorem claimed (h : Store db starts drawn) {requestHash : String}
    (hclaim : db.claimReceipt parent request requestHash drawn = .ok (.claimed receipt, db')) :
    Store db' starts (drawn + 1) := by
  obtain ⟨hmem, hkey, hid, hstatus, hsessions, hbefore, _⟩ := claimed_cases hclaim
  refine ⟨?_, ?_, ?_, h.once, ?_, ?_⟩
  · rw [hsessions]
    exact fun id hrow => Nat.lt_succ_of_lt (h.rows id hrow)
  · intro other hother
    rcases hbefore other hother with rfl | hother
    · omega
    · exact Nat.lt_succ_of_lt (h.receipts other hother)
  · simpa [hsessions] using h.present
  · intro other hother other' hother' heq
    rcases hbefore other hother with rfl | hold <;> rcases hbefore other' hother' with rfl | hold'
    · rfl
    · have := h.receipts other' hold'
      omega
    · have := h.receipts other hold
      omega
    · exact h.distinct other hold other' hold' heq
  · intro other hother hrow
    rw [hsessions] at hrow
    rcases hbefore other hother with rfl | hold
    · rw [hid, h.none_of_drawn] at hrow
      simp at hrow
    · exact h.named other hold hrow

end Store

/-! ## The calls -/

/-- What a call knows of its session: it is the call's own, it has a row once it is written, and
the receipt of a call that has one names it. -/
structure Calls (s : State) : Prop where
  drawn : ∀ call c, s.calls call = some c → c.sessionId < s.drawn
  parents : ∀ call c, s.calls call = some c → (s.db.sessions.find? c.parent).isSome
  apart : ∀ call c other c', s.calls call = some c → s.calls other = some c' →
    c.sessionId = c'.sessionId → call = other
  pending : ∀ call c request, s.calls call = some c → c.request = some request →
    Pending s.db c.parent request c.sessionId
  unkeyed : ∀ call c, s.calls call = some c → c.request = none →
    ∀ receipt ∈ s.db.receipts, receipt.sessionId ≠ c.sessionId
  unwritten : ∀ call c, s.calls call = some c → c.stage.isUnwritten = true →
    s.db.sessions.find? c.sessionId = none
  written : ∀ call c, s.calls call = some c → c.stage.isWritten = true →
    Unlaunched s.db c.sessionId ∧
      ∃ start ∈ s.starts, start.child = c.sessionId ∧ start.parent = c.parent
  keyed : ∀ call c, s.calls call = some c → c.stage.isOver = true → c.request ≠ none

/-- Calls come from calls that were there, and none of them goes back. -/
def CallsFrom (s s' : State) : Prop :=
  ∀ call c', s'.calls call = some c' → ∃ c, s.calls call = some c ∧ c'.parent = c.parent ∧
    c'.request = c.request ∧ c'.sessionId = c.sessionId ∧
    (c'.stage.isUnwritten = true → c.stage.isUnwritten = true) ∧
    (c'.stage.isWritten = true → c.stage.isWritten = true) ∧
    (c'.stage.isOver = true → c.stage.isOver = true ∨ c.request ≠ none)

namespace CallsFrom

variable {s : State}

theorem of_eq (h : s'.calls = s.calls) : CallsFrom s s' := by
  intro call c hc
  exact ⟨c, h ▸ hc, rfl, rfl, rfl, id, id, .inl⟩

/-- One call goes on, or is over. -/
theorem of_update (h : s'.calls = Function.update s.calls call new) (hc : s.calls call = some c)
    (hnew : ∀ c', new = some c' → c'.parent = c.parent ∧ c'.request = c.request ∧
      c'.sessionId = c.sessionId ∧ (c'.stage.isUnwritten = true → c.stage.isUnwritten = true) ∧
      (c'.stage.isWritten = true → c.stage.isWritten = true) ∧
      (c'.stage.isOver = true → c.stage.isOver = true ∨ c.request ≠ none)) : CallsFrom s s' := by
  intro other c' hc'
  rw [h, update_eq_some] at hc'
  rcases hc' with ⟨rfl, hsome⟩ | ⟨_, hkept⟩
  · exact ⟨c, hc, hnew c' hsome⟩
  · exact ⟨c', hkept, rfl, rfl, rfl, id, id, .inl⟩

end CallsFrom

namespace Calls

variable {s s' : State}

section

variable (h : Calls s)
include h

/-- The receipt that a call has is the only one that names its session. -/
theorem caller (hdistinct : Distinct s.db) (hc : s.calls call = some c)
    (hreceipt : receipt ∈ s.db.receipts) (hid : receipt.sessionId = c.sessionId) :
    receipt.callerSessionId = c.parent ∧ receipt.status = .pending := by
  cases hrequest : c.request with
  | none => exact absurd hid (h.unkeyed call c hc hrequest receipt hreceipt)
  | some request =>
    obtain ⟨own, hown, hkey, hsession, hstatus⟩ := h.pending call c request hc hrequest
    obtain rfl := hdistinct receipt hreceipt own hown (hid.trans hsession.symm)
    exact ⟨congrArg Prod.fst hkey, hstatus⟩

/-- The session of a call that is not over is named by no uncertain receipt. -/
theorem not_uncertain (hdistinct : Distinct s.db) (hc : s.calls call = some c)
    (parent : ℕ) : ¬ Uncertain s.db parent c.sessionId := by
  rintro ⟨receipt, hreceipt, _, hid, hstatus⟩
  have := (h.caller hdistinct hc hreceipt hid).2
  simp [hstatus] at this

/-- Two calls that have receipts have different ones. -/
theorem key_ne {other : ℕ} {c' : Call} {request' : String}
    (hc : s.calls call = some c) (hc' : s.calls other = some c')
    (hrequest : c.request = some request) (hrequest' : c'.request = some request')
    (hne : call ≠ other) : (c.parent, request) ≠ (c'.parent, request') := by
  intro heq
  obtain ⟨receipt, hreceipt, hkey, hid, _⟩ := h.pending call c request hc hrequest
  obtain ⟨receipt', hreceipt', hkey', hid', _⟩ := h.pending other c' request' hc' hrequest'
  obtain rfl := Table.eq_of_key hreceipt hreceipt' (hkey.trans (heq.trans hkey'.symm))
  exact hne (h.apart call c other c' hc hc' (hid.symm.trans hid'))

/-- What the calls know is left when nothing of their sessions changes. -/
theorem of_from (hfrom : CallsFrom s s') (hdrawn : s.drawn ≤ s'.drawn)
    (hrows : ∀ id, (s.db.sessions.find? id).isSome → (s'.db.sessions.find? id).isSome)
    (hpending : ∀ call c request, s'.calls call = some c → c.request = some request →
      Pending s.db c.parent request c.sessionId → Pending s'.db c.parent request c.sessionId)
    (hreceipts : ∀ receipt' ∈ s'.db.receipts, ∃ receipt ∈ s.db.receipts,
      receipt.sessionId = receipt'.sessionId)
    (hnone : ∀ call c, s.calls call = some c → c.stage.isUnwritten = true →
      s'.db.sessions.find? c.sessionId = s.db.sessions.find? c.sessionId)
    (hkept : ∀ call c, s'.calls call = some c → c.stage.isWritten = true →
      Unlaunched s.db c.sessionId → Unlaunched s'.db c.sessionId)
    (hstarts : s.starts ⊆ s'.starts) : Calls s' where
  drawn := fun call c' hc' => by
    obtain ⟨c, hc, _, _, hid, _⟩ := hfrom call c' hc'
    have := h.drawn call c hc
    omega
  parents := fun call c' hc' => by
    obtain ⟨c, hc, hparent, _⟩ := hfrom call c' hc'
    exact hparent ▸ hrows _ (h.parents call c hc)
  apart := fun call c other c' hc hc' heq => by
    obtain ⟨before, hbefore, _, _, hid, _⟩ := hfrom call c hc
    obtain ⟨before', hbefore', _, _, hid', _⟩ := hfrom other c' hc'
    exact h.apart call before other before' hbefore hbefore' (hid.symm.trans (heq.trans hid'))
  pending := fun call c' request hc' hrequest => by
    obtain ⟨c, hc, hparent, hsame, hid, _⟩ := hfrom call c' hc'
    have := h.pending call c request hc (hsame ▸ hrequest)
    rw [← hparent, ← hid] at this
    exact hpending call c' request hc' hrequest this
  unkeyed := fun call c' hc' hrequest receipt' hreceipt' => by
    obtain ⟨c, hc, _, hsame, hid, _⟩ := hfrom call c' hc'
    obtain ⟨receipt, hreceipt, hsession⟩ := hreceipts receipt' hreceipt'
    rw [← hsession, hid]
    exact h.unkeyed call c hc (hsame ▸ hrequest) receipt hreceipt
  unwritten := fun call c' hc' hstage => by
    obtain ⟨c, hc, _, _, hid, hun, _⟩ := hfrom call c' hc'
    rw [hid, hnone call c hc (hun hstage)]
    exact h.unwritten call c hc (hun hstage)
  written := fun call c' hc' hstage => by
    obtain ⟨c, hc, hparent, _, hid, _, hwritten, _⟩ := hfrom call c' hc'
    obtain ⟨hrow, start, hstart, hchild, hlauncher⟩ := h.written call c hc (hwritten hstage)
    refine ⟨hkept call c' hc' hstage (hid ▸ hrow), start, hstarts hstart, ?_, ?_⟩
    · rw [hchild, hid]
    · rw [hlauncher, hparent]
  keyed := fun call c' hc' hstage => by
    obtain ⟨c, hc, _, hsame, _, _, _, hover⟩ := hfrom call c' hc'
    rw [hsame]
    rcases hover hstage with hwas | hrequest
    · exact h.keyed call c hc hwas
    · exact hrequest

/-- Only the calls change. -/
theorem of_calls (hfrom : CallsFrom s s') (hdb : s'.db = s.db)
    (hdrawn : s.drawn ≤ s'.drawn) (hstarts : s'.starts = s.starts) : Calls s' := by
  apply h.of_from hfrom hdrawn
  · simp [hdb]
  · simp [hdb]
  · rw [hdb]
    exact fun receipt hreceipt => ⟨receipt, hreceipt, rfl⟩
  · simp [hdb]
  · simp [hdb]
  · simp [hstarts]

theorem reconcile (hdistinct : Distinct s.db) : Calls (LaunchCaps.reconcile s) := by
  have hfrom : CallsFrom s (LaunchCaps.reconcile s) := .of_eq rfl
  apply h.of_from hfrom (Nat.le_refl _)
  · intro id hid
    exact (Store.isSome_reconcile id).trans hid
  · intro call c request _ _ hpending
    exact hpending
  · exact fun receipt hreceipt => ⟨receipt, hreceipt, rfl⟩
  · intro call c hc hstage
    have hnone := h.unwritten call c hc hstage
    rw [hnone]
    exact find?_reconcile_isNone c.sessionId |>.mpr hnone
  · intro call c hc _ hrow
    exact hrow.reconcile (h.not_uncertain hdistinct hc)
  · exact List.Subset.refl _

/-- A call is over once its receipt is settled. The receipts of the others stay as they are. -/
theorem settled (hc : s.calls call = some c) (hrequest : c.request = some request)
    (outcome : Database.Outcome) :
    Calls (setCall { s with db := s.db.settle c.parent request outcome } call none) := by
  have hsettles : Settles s.db (s.db.settle c.parent request outcome) :=
    .settle c.parent request outcome
  have hfrom : CallsFrom s
      (setCall { s with db := s.db.settle c.parent request outcome } call none) :=
    .of_update rfl hc (by simp)
  apply h.of_from hfrom (Nat.le_refl _)
  · intro id hid
    exact hid
  · intro other c' request' hc' hrequest' hpending
    rw [setCall, update_eq_some] at hc'
    rcases hc' with ⟨_, hnone⟩ | ⟨hne, hkept⟩
    · simp at hnone
    · exact hpending.settle (h.key_ne hkept hc hrequest' hrequest hne) outcome
  · intro receipt' hreceipt'
    obtain ⟨receipt, hreceipt, _, hid⟩ := hsettles.before receipt' hreceipt'
    exact ⟨receipt, hreceipt, hid⟩
  · intro other c' _ _
    rfl
  · intro other c' _ _ hrow
    exact hrow
  · exact List.Subset.refl _

/-- A row is written that is no call's session, nor named by a receipt. -/
theorem opened (hstore : Store s.db s.starts s.drawn) (arcId : Option ℕ) :
    Calls (step s (.openSession arcId)) := by
  have hfrom : CallsFrom s (step s (.openSession arcId)) := .of_eq rfl
  have hput : ∀ id, id < s.drawn →
      (step s (.openSession arcId)).db.sessions.find? id = s.db.sessions.find? id := by
    intro id hid
    exact (Table.find?_put id).trans (if_neg (by simp only; omega))
  apply h.of_from hfrom (Nat.le_succ _)
  · intro id hid
    rw [hput id (hstore.rows id hid)]
    exact hid
  · intro call c request _ _ hpending
    exact hpending
  · exact fun receipt hreceipt => ⟨receipt, hreceipt, rfl⟩
  · intro call c hc _
    exact hput _ (h.drawn call c hc)
  · intro call c hc _ ⟨row, hrow, hnone⟩
    refine ⟨row, ?_, hnone⟩
    rw [hput _ (h.drawn call c hc)]
    exact hrow
  · exact List.Subset.refl _

/-- A call begins, with an id that nothing else has. -/
theorem begins (hstore : Store s.db s.starts s.drawn) (call : ℕ) {new : Call}
    {db : Database} (hid : new.sessionId = s.drawn) (hstage : new.stage = .entered)
    (hparent : (s.db.sessions.find? new.parent).isSome) (hsessions : db.sessions = s.db.sessions)
    (hreceipt : ∀ request, new.request = some request → Pending db new.parent request new.sessionId)
    (hfree : new.request = none → ∀ receipt ∈ db.receipts, receipt.sessionId ≠ new.sessionId)
    (hkept : ∀ parent request id, Pending s.db parent request id → Pending db parent request id)
    (hbefore : ∀ receipt ∈ db.receipts, receipt.sessionId = s.drawn ∨ receipt ∈ s.db.receipts) :
    Calls { setCall s call (some new) with
      db := db
      drawn := s.drawn + 1 } where
  drawn := forall_update (by simp [hid]) fun other c _ hc => Nat.lt_succ_of_lt (h.drawn other c hc)
  parents := by
    simp only [hsessions]
    exact forall_update hparent fun other c _ hc => h.parents other c hc
  apart := fun a c b c' hc hc' heq => by
    rcases update_eq_some.mp hc with ⟨rfl, hnew⟩ | ⟨hne, hkept⟩ <;>
      rcases update_eq_some.mp hc' with ⟨rfl, hnew'⟩ | ⟨hne', hkept'⟩
    · rfl
    · cases hnew
      have := h.drawn b c' hkept'
      omega
    · cases hnew'
      have := h.drawn a c hkept
      omega
    · exact h.apart a c b c' hkept hkept' heq
  pending := fun other c request hc =>
    @forall_update _ _ _ _ _ (fun _ c => c.request = some request → _) _ (hreceipt request)
      (fun other c _ hc hrequest => hkept _ _ _ (h.pending other c request hc hrequest)) other c hc
  unkeyed := forall_update hfree fun other c _ hc hrequest receipt hreceipt => by
    have := h.drawn other c hc
    rcases hbefore receipt hreceipt with hdrawn | hold
    · omega
    · exact h.unkeyed other c hc hrequest receipt hold
  unwritten := by
    simp only [hsessions]
    exact forall_update (fun _ => hid ▸ hstore.none_of_drawn) fun other c _ hc =>
      h.unwritten other c hc
  written := by
    simp only [Unlaunched, hsessions]
    exact forall_update (by simp [hstage, Stage.isWritten]) fun other c _ hc => h.written other c hc
  keyed := forall_update (by simp [hstage, Stage.isOver]) fun other c _ hc => h.keyed other c hc

theorem launched (hstore : Store s.db s.starts s.drawn) (call : ℕ)
    (hparent : (s.db.sessions.find? parent).isSome) :
    Calls { setCall s call (some ⟨parent, none, s.drawn, .entered⟩) with
      drawn := s.drawn + 1 } :=
  h.begins hstore call rfl rfl hparent rfl (by simp)
    (fun _ receipt hreceipt => Nat.ne_of_lt (hstore.receipts receipt hreceipt))
    (fun _ _ _ => id) fun _ => .inr

theorem claimed (hstore : Store s.db s.starts s.drawn) (call : ℕ)
    {requestHash : String} {db : Database} (hparent : (s.db.sessions.find? parent).isSome)
    (hclaim : s.db.claimReceipt parent request requestHash s.drawn = .ok (.claimed receipt, db)) :
    Calls { setCall s call (some ⟨parent, some request, receipt.sessionId, .entered⟩) with
      db := db
      drawn := s.drawn + 1 } := by
  obtain ⟨hmem, hkey, hid, hstatus, hsessions, hbefore, hafter⟩ := claimed_cases hclaim
  refine h.begins hstore call hid rfl hparent hsessions ?_ (by simp) ?_ ?_
  · intro request' hrequest
    cases hrequest
    exact ⟨receipt, hmem, hkey, rfl, hstatus⟩
  · rintro parent request id ⟨own, hown, hkeyed⟩
    exact ⟨own, hafter own hown (by simp [hkeyed.2.2]), hkeyed⟩
  · intro other hother
    refine (hbefore other hother).imp_left ?_
    rintro rfl
    exact hid

/-- A call writes its session. -/
theorem writes (hc : s.calls call = some c)
    (hstage : c.stage = .checked key depth arcId exempt) :
    Calls (setCall (writeSession s c arcId exempt) call
      (some { c with stage := .written key depth })) := by
  have hfree : s.db.sessions.find? c.sessionId = none :=
    h.unwritten call c hc (by simp [hstage, Stage.isUnwritten])
  have hput : ∀ id, id ≠ c.sessionId →
      (s.db.sessions.put ⟨c.sessionId, none, launchKindAgent⟩).find? id =
        s.db.sessions.find? id := by
    intro id hid
    rw [Table.find?_put, if_neg (Ne.symm hid)]
  -- The call has the same parent, receipt and session as before.
  have hsame : ∀ other c', (setCall (writeSession s c arcId exempt) call
      (some { c with stage := .written key depth })).calls other = some c' →
      ∃ before, s.calls other = some before ∧ c'.parent = before.parent ∧
        c'.request = before.request ∧ c'.sessionId = before.sessionId := by
    exact forall_update ⟨c, hc, rfl, rfl, rfl⟩ fun other c' _ hc' => ⟨c', hc', rfl, rfl, rfl⟩
  refine ⟨?_, ?_, ?_, ?_, ?_, ?_, ?_, ?_⟩
  · intro other c' hc'
    obtain ⟨before, hbefore, _, _, hid⟩ := hsame other c' hc'
    rw [hid]
    exact h.drawn other before hbefore
  · intro other c' hc'
    obtain ⟨before, hbefore, hparent, _, _⟩ := hsame other c' hc'
    have hrow := h.parents other before hbefore
    rw [← hparent] at hrow
    have hne : c'.parent ≠ c.sessionId := by
      intro heq
      simp [heq, hfree] at hrow
    simpa only [setCall, writeSession, hput _ hne] using hrow
  · intro a c₁ b c₂ h₁ h₂ heq
    obtain ⟨before, hbefore, _, _, hid⟩ := hsame a c₁ h₁
    obtain ⟨before', hbefore', _, _, hid'⟩ := hsame b c₂ h₂
    exact h.apart a before b before' hbefore hbefore' (hid.symm.trans (heq.trans hid'))
  · intro other c' request hc' hrequest
    obtain ⟨before, hbefore, hparent, hreq, hid⟩ := hsame other c' hc'
    have := h.pending other before request hbefore (hreq ▸ hrequest)
    rwa [← hparent, ← hid] at this
  · intro other c' hc' hrequest receipt hreceipt
    obtain ⟨before, hbefore, _, hreq, hid⟩ := hsame other c' hc'
    rw [hid]
    exact h.unkeyed other before hbefore (hreq ▸ hrequest) receipt hreceipt
  · refine forall_update (by simp [Stage.isUnwritten]) fun other c' hne hc' hun => ?_
    have hid : c'.sessionId ≠ c.sessionId := fun heq => hne (h.apart other c' call c hc' hc heq)
    simpa only [setCall, writeSession, hput _ hid] using h.unwritten other c' hc' hun
  · refine forall_update (fun _ => ?_) fun other c' hne hc' hwritten => ?_
    · refine ⟨⟨⟨c.sessionId, none, launchKindAgent⟩, ?_, rfl⟩,
        ⟨c.sessionId, c.parent, exempt⟩, List.mem_cons_self, rfl, rfl⟩
      exact (Table.find?_put c.sessionId).trans (if_pos rfl)
    · have hid : c'.sessionId ≠ c.sessionId := fun heq => hne (h.apart other c' call c hc' hc heq)
      obtain ⟨⟨row, hrow, hnone⟩, start, hstart, hnames⟩ := h.written other c' hc' hwritten
      refine ⟨⟨row, ?_, hnone⟩, start, List.mem_cons_of_mem _ hstart, hnames⟩
      simpa only [setCall, writeSession, hput _ hid] using hrow
  · exact forall_update (by simp [Stage.isOver]) fun other c' _ hc' => h.keyed other c' hc'

end

end Calls

/-! ## Leaving -/

section Leave

variable {s : State} {call : ℕ} {c : Call} {stage : Stage}

/-- What is left of a call that ends its launch. -/
theorem eq_of_over {c' : Call} (h : c.over stage = some c') :
    c' = { c with stage := stage } ∧ c.request ≠ none := by
  rw [Call.over] at h
  split at h
  · rename_i hsome
    exact ⟨(Option.some.inj h).symm, Option.isSome_iff_ne_none.mp hsome⟩
  · simp at h

theorem callsFrom_leave (hc : s.calls call = some c) (hover : stage.isOver = true) :
    CallsFrom s (leave s call c stage) := by
  have hun : stage.isUnwritten = false ∧ stage.isWritten = false := by
    cases stage <;> simp_all [Stage.isOver, Stage.isUnwritten, Stage.isWritten]
  refine .of_update rfl hc ?_
  intro c' hnew
  obtain ⟨rfl, hrequest⟩ := eq_of_over hnew
  simp [hun, hrequest]

theorem Calls.leave (h : Calls s) (hc : s.calls call = some c) (hover : stage.isOver = true) :
    Calls (LaunchCaps.leave s call c stage) :=
  h.of_calls (callsFrom_leave hc hover) rfl (Nat.le_refl _) rfl

end Leave

/-! ## Recording -/

section Record

variable {s : State} {child parent depth : ℕ}

/-- The row that is recorded, and the others. -/
theorem find?_recordSessionLaunch (id : ℕ) :
    (recordSessionLaunch s child parent depth).db.sessions.find? id =
      (s.db.sessions.find? id).map fun row =>
        if row.id = child then
          { row with launchedBySessionId := some parent, launchKind := launchKindAgent }
        else row := by
  rw [recordSessionLaunch, Table.find?_update]

theorem find?_recordSessionLaunch_of_ne {id : ℕ} (h : id ≠ child) :
    (recordSessionLaunch s child parent depth).db.sessions.find? id = s.db.sessions.find? id := by
  rw [find?_recordSessionLaunch]
  cases hrow : s.db.sessions.find? id with
  | none => rfl
  | some row =>
    have hid : row.id = id := Table.key_of_find? hrow
    simp [hid, h]

theorem isSome_recordSessionLaunch (id : ℕ) :
    ((recordSessionLaunch s child parent depth).db.sessions.find? id).isSome =
      (s.db.sessions.find? id).isSome := by
  simp [find?_recordSessionLaunch]

theorem recorded_recordSessionLaunch (h : (s.db.sessions.find? child).isSome) :
    Recorded (recordSessionLaunch s child parent depth).db parent child := by
  obtain ⟨row, hrow⟩ := Option.isSome_iff_exists.mp h
  have hid : row.id = child := Table.key_of_find? hrow
  refine ⟨{ row with launchedBySessionId := some parent, launchKind := launchKindAgent }, ?_,
    rfl, rfl⟩
  simp [find?_recordSessionLaunch, hrow, hid]

/-- The launch of a call is recorded. -/
theorem Calls.recorded (h : Calls s) (hc : s.calls call = some c)
    (hstage : c.stage = .written key depth) :
    Calls (LaunchCaps.leave (recordSessionLaunch s c.sessionId c.parent depth) call c
      .recorded) := by
  have hfrom : CallsFrom s (LaunchCaps.leave
      (recordSessionLaunch s c.sessionId c.parent depth) call c .recorded) := by
    refine .of_update rfl hc ?_
    intro c' hnew
    obtain ⟨rfl, hrequest⟩ := eq_of_over hnew
    simp [Stage.isUnwritten, Stage.isWritten, hrequest]
  -- The other calls have other sessions.
  have hother : ∀ other c', s.calls other = some c' → other ≠ call →
      c'.sessionId ≠ c.sessionId := fun other c' hc' hne heq =>
    hne (h.apart other c' call c hc' hc heq)
  apply h.of_from hfrom (Nat.le_refl _)
  · intro id hid
    exact (@isSome_recordSessionLaunch s c.sessionId c.parent depth id).trans hid
  · intro other c' request _ _ hpending
    exact hpending
  · exact fun receipt hreceipt => ⟨receipt, hreceipt, rfl⟩
  · intro other c' hc' hun
    have hne : other ≠ call := by
      rintro rfl
      rw [hc] at hc'
      cases hc'
      simp [hstage, Stage.isUnwritten] at hun
    exact @find?_recordSessionLaunch_of_ne s c.sessionId c.parent depth _ (hother other c' hc' hne)
  · rintro other c' hc' hwritten ⟨row, hrow, hnone⟩
    rcases update_eq_some.mp hc' with ⟨rfl, hnew⟩ | ⟨hne, hkept⟩
    · obtain ⟨rfl, _⟩ := eq_of_over hnew
      simp [Stage.isWritten] at hwritten
    · refine ⟨row, ?_, hnone⟩
      exact (@find?_recordSessionLaunch_of_ne s c.sessionId c.parent depth _
        (hother other c' hkept hne)).trans hrow
  · exact List.Subset.refl _

end Record

/-! ## Where a start is counted -/

/-- A session that was started is recorded, or it is named by an uncertain receipt of its launcher,
or its call is not over. -/
inductive Counted (s : State) (start : Start) : Prop where
  | recorded (h : Recorded s.db start.parent start.child)
  | uncertain (hrow : Unlaunched s.db start.child)
      (h : Uncertain s.db start.parent start.child)
  | inCall (call : ℕ) (c : Call) (hcall : s.calls call = some c)
      (hid : c.sessionId = start.child) (hparent : c.parent = start.parent)
      (hrow : Unlaunched s.db start.child)
      (hstage : c.stage.isWritten = true ∨ c.stage.isBroken = true)

namespace Counted

variable {s s' : State} {start : Start}

/-- The call that has written the session stays, as one that has. -/
def KeepsCall (s s' : State) (start : Start) : Prop :=
  ∀ call c, s.calls call = some c → c.sessionId = start.child →
    c.stage.isWritten = true ∨ c.stage.isBroken = true →
    ∃ c', s'.calls call = some c' ∧ c'.sessionId = c.sessionId ∧ c'.parent = c.parent ∧
      (c'.stage.isWritten = true ∨ c'.stage.isBroken = true)

section

variable (h : Counted s start)
include h

/-- A start is counted as before when the store says the same of it, and so does its call. -/
theorem of_same
    (hrecorded : Recorded s.db start.parent start.child → Recorded s'.db start.parent start.child)
    (hrow : Unlaunched s.db start.child → Unlaunched s'.db start.child)
    (huncertain : Uncertain s.db start.parent start.child →
      Uncertain s'.db start.parent start.child)
    (hcalls : KeepsCall s s' start) :
    Counted s' start := by
  cases h with
  | recorded h => exact .recorded (hrecorded h)
  | uncertain hunlaunched h => exact .uncertain (hrow hunlaunched) (huncertain h)
  | inCall call c hcall hid hparent hunlaunched hstage =>
    obtain ⟨c', hcall', hid', hparent', hstage'⟩ := hcalls call c hcall hid hstage
    exact .inCall call c' hcall' (hid'.trans hid) (hparent'.trans hparent) (hrow hunlaunched)
      hstage'

/-- Only calls change that have no session that was started, or stay with theirs. -/
theorem of_calls (hdb : s'.db = s.db) (hcalls : KeepsCall s s' start) : Counted s' start :=
  h.of_same (hdb ▸ id) (hdb ▸ id) (hdb ▸ id) hcalls

theorem of_eq (hdb : s'.db = s.db) (hcalls : s'.calls = s.calls) : Counted s' start :=
  h.of_calls hdb fun _ c hc _ hstage => ⟨c, by rw [hcalls, hc], rfl, rfl, hstage⟩

/-- One call is replaced, and it has not written its session. -/
theorem restage (hdb : s'.db = s.db)
    (hcalls : s'.calls = Function.update s.calls call new)
    (hfree : ∀ c, s.calls call = some c → c.sessionId = start.child →
      c.stage.isWritten = false ∧ c.stage.isBroken = false) : Counted s' start := by
  apply h.of_calls hdb
  intro other c hc hid hstage
  by_cases hother : other = call
  · subst hother
    have ⟨hwritten, hbroken⟩ := hfree c hc hid
    simp [hwritten, hbroken] at hstage
  · exact ⟨c, by simp [hcalls, hother, hc], rfl, rfl, hstage⟩

/-- A repair records what an uncertain receipt names, and leaves the rest. -/
theorem reconcile (hcalls : Calls s) (hdistinct : Distinct s.db) :
    Counted (LaunchCaps.reconcile s) start := by
  cases h with
  | recorded h => exact .recorded h.reconcile
  | uncertain hrow h => exact .recorded (h.recorded hdistinct hrow)
  | inCall call c hcall hid hparent hrow hstage =>
    have hnone := hcalls.not_uncertain hdistinct hcall
    rw [hid] at hnone
    exact .inCall call c hcall hid hparent (hrow.reconcile hnone) hstage

/-- The receipt of a call is settled, and the call is over. -/
theorem settled (hcalls : Calls s) {outcome : Database.Outcome}
    (hc : s.calls call = some c) (hrequest : c.request = some request)
    (hover : c.stage.isOver = true)
    (houtcome : c.stage.isBroken = true → outcome = .uncertain ∨
      s.db.sessions.find? c.sessionId = none) :
    Counted (setCall { s with db := s.db.settle c.parent request outcome } call none) start := by
  have hsettles : Settles s.db (s.db.settle c.parent request outcome) :=
    .settle c.parent request outcome
  cases h with
  | recorded h => exact .recorded (hsettles.recorded.mpr h)
  | uncertain hrow h => exact .uncertain (hsettles.unlaunched.mpr hrow) (hsettles.uncertain' h)
  | inCall other c' hcall hid hparent hrow hstage =>
    by_cases hother : other = call
    · subst hother
      obtain rfl := Option.some.inj (hc.symm.trans hcall)
      -- The call broke off, so its receipt is marked.
      have hbroken : c.stage.isBroken = true := by
        rcases hstage with hwritten | hbroken
        · cases hcase : c.stage <;> simp_all [Stage.isOver, Stage.isWritten]
        · exact hbroken
      rcases houtcome hbroken with rfl | hnone
      · have hpending := hcalls.pending other c request hc hrequest
        rw [hid, hparent] at hpending
        refine .uncertain (hsettles.unlaunched.mpr hrow) ?_
        rw [hparent]
        exact hpending.marked
      · obtain ⟨row, hfind, _⟩ := hrow
        rw [hid, hfind] at hnone
        simp at hnone
    · refine .inCall other c' ?_ hid hparent (hsettles.unlaunched.mpr hrow) hstage
      exact update_eq_some.mpr (.inr ⟨hother, hcall⟩)

/-- At boot the receipts of what was not recorded name it, and it is recorded. -/
theorem restarted (hcalls : Calls s) (hdistinct : Distinct s.db)
    (hreceipt : ∀ call c, s.calls call = some c → c.stage.isWritten = true → c.request ≠ none) :
    Counted (step s .restart) start := by
  have hsettles := Settles.orphans s.db
  -- What was not recorded is named by a receipt that is uncertain by now.
  have hnamed : Unlaunched s.db start.child →
      Uncertain (orphansSettled s.db) start.parent start.child →
      Recorded (orphansSettled s.db).reconcileUncertainLineage start.parent start.child :=
    fun hrow h => h.recorded (hsettles.distinct hdistinct) (hsettles.unlaunched.mpr hrow)
  cases h with
  | recorded h => exact .recorded (hsettles.recorded.mpr h).reconcile
  | uncertain hrow h => exact .recorded (hnamed hrow (hsettles.uncertain' h))
  | inCall call c hcall hid hparent hrow hstage =>
    have hrequest : c.request ≠ none := by
      rcases hstage with hwritten | hbroken
      · exact hreceipt call c hcall hwritten
      · apply hcalls.keyed call c hcall
        cases hcase : c.stage <;> simp_all [Stage.isOver, Stage.isBroken]
    obtain ⟨request, hrequest⟩ := Option.ne_none_iff_exists'.mp hrequest
    have hpending := hcalls.pending call c request hcall hrequest
    rw [hid, hparent] at hpending
    obtain ⟨row, hfind, _⟩ := hrow
    exact .recorded (hnamed ⟨row, hfind, ‹_›⟩ (hpending.orphaned (by simp [hfind])))

/-- A call that ends its launch keeps what it has written in view. -/
theorem leave (hc : s.calls call = some c) (hlive : c.stage.isBroken = false)
    (hbroken : stage.isBroken = true) (hreceipt : c.stage.isWritten = true → c.request ≠ none) :
    Counted (LaunchCaps.leave s call c stage) start := by
  have hdb : (LaunchCaps.leave s call c stage).db = s.db := rfl
  apply h.of_calls hdb
  intro other c' hcall _ hstage
  by_cases hother : other = call
  · subst hother
    obtain rfl := Option.some.inj (hc.symm.trans hcall)
    have hwritten : c.stage.isWritten = true := by simpa [hlive] using hstage
    have hsome : c.request.isSome = true := Option.isSome_iff_ne_none.mpr (hreceipt hwritten)
    refine ⟨{ c with stage := stage }, update_eq_some.mpr (.inl ⟨rfl, ?_⟩), rfl, rfl, .inr hbroken⟩
    rw [Call.over, if_pos hsome]
  · exact ⟨c', update_eq_some.mpr (.inr ⟨hother, hcall⟩), rfl, rfl, hstage⟩

/-- The launch of a call is recorded. -/
theorem recordedBy (hcalls : Calls s)
    (honce : (s.starts.map Start.child).Nodup) (hstart : start ∈ s.starts)
    (hc : s.calls call = some c) (hstage : c.stage = .written key depth) :
    Counted (LaunchCaps.leave (recordSessionLaunch s c.sessionId c.parent depth) call c .recorded)
      start := by
  have hwritten := hcalls.written call c hc (by simp [hstage, Stage.isWritten])
  obtain ⟨⟨row, hrow, hnone⟩, own, hown, hchild, hparent⟩ := hwritten
  by_cases hsame : start.child = c.sessionId
  · -- It is the start of this call.
    obtain rfl := List.inj_on_of_nodup_map honce hstart hown (hsame.trans hchild.symm)
    have := @recorded_recordSessionLaunch s c.sessionId c.parent depth (by simp [hrow])
    rw [← hchild, ← hparent] at this
    refine .recorded ?_
    rw [← hchild, ← hparent]
    exact this
  · have hkept : ∀ row, s.db.sessions.find? start.child = some row →
        (recordSessionLaunch s c.sessionId c.parent depth).db.sessions.find? start.child =
          some row := by
      intro row hrow
      rw [find?_recordSessionLaunch_of_ne hsame, hrow]
    apply h.of_same
    · rintro ⟨row, hrow, hnames⟩
      exact ⟨row, hkept row hrow, hnames⟩
    · rintro ⟨row, hrow, hnames⟩
      exact ⟨row, hkept row hrow, hnames⟩
    · exact id
    · intro other c' hcall hid hcase
      have hother : other ≠ call := by
        rintro rfl
        obtain rfl := Option.some.inj (hc.symm.trans hcall)
        exact hsame hid.symm
      exact ⟨c', update_eq_some.mpr (.inr ⟨hother, hcall⟩), rfl, rfl, hcase⟩

/-- A row is written that is not the start's. -/
theorem put {id : ℕ} (hne : start.child ≠ id)
    (hsessions : s'.db.sessions = s.db.sessions.put ⟨id, none, launchKindAgent⟩)
    (hreceipts : s'.db.receipts = s.db.receipts)
    (hcalls : KeepsCall s s' start) : Counted s' start := by
  have hkept : s'.db.sessions.find? start.child = s.db.sessions.find? start.child := by
    rw [hsessions, Table.find?_put, if_neg (Ne.symm hne)]
  apply h.of_same
  · simp [Recorded, hkept]
  · simp [Unlaunched, hkept]
  · simp [Uncertain, hreceipts]
  · exact hcalls

/-- A call with a receipt begins. -/
theorem claimed {requestHash : String} {db : Database}
    (hfree : s.calls call = none)
    (hclaim : s.db.claimReceipt parent request requestHash s.drawn = .ok (.claimed receipt, db)) :
    Counted { setCall s call (some ⟨parent, some request, receipt.sessionId, .entered⟩) with
      db := db
      drawn := s.drawn + 1 } start := by
  obtain ⟨_, _, _, _, hsessions, _, hafter⟩ := claimed_cases hclaim
  apply h.of_same
  · simp [Recorded, hsessions]
  · simp [Unlaunched, hsessions]
  · rintro ⟨other, hother, hparent, hid, hstatus⟩
    exact ⟨other, hafter other hother (by simp [hstatus]), hparent, hid, hstatus⟩
  · intro other c hcall _ hstage
    have hother : other ≠ call := by
      rintro rfl
      simp [hfree] at hcall
    exact ⟨c, update_eq_some.mpr (.inr ⟨hother, hcall⟩), rfl, rfl, hstage⟩

end

end Counted

/-! ## Locks -/

/-- A call has read the key of its caller's budget, and a lock is held by one call. -/
structure Locks (s : State) : Prop where
  key : ∀ call c key, s.calls call = some c → c.stage.key? = some key → key = budgetKey s c.parent
  held : ∀ call c key, s.calls call = some c → c.stage.lock? = some key → s.locks key = some call

namespace Locks

variable {s s' : State}

/-- The lock that a call holds is the key that it read. -/
theorem key_of_lock (h : stage.lock? = some key) : stage.key? = some key := by
  cases stage <;> simp_all [Stage.lock?, Stage.key?]

/-- Two calls of one caller do not hold its lock at once. -/
theorem eq_of_locked (h : Locks s) {other : ℕ} {c' : Call} {key' : BudgetKey}
    (hc : s.calls call = some c) (hc' : s.calls other = some c') (hparent : c'.parent = c.parent)
    (hlock : c.stage.lock? = some key) (hlock' : c'.stage.lock? = some key') : call = other := by
  have hkey := h.key call c key hc (key_of_lock hlock)
  have hkey' := h.key other c' key' hc' (key_of_lock hlock')
  have heq : key = key' := by rw [hkey, hkey', hparent]
  have hheld := h.held call c key hc hlock
  rw [heq, h.held other c' key' hc' hlock'] at hheld
  exact (Option.some.inj hheld).symm

/-- Calls come from calls with the same key and the same lock, or from none. -/
theorem of_calls (h : Locks s) (hlocks : s'.locks = s.locks)
    (hkeys : ∀ call c, s'.calls call = some c → c.stage.key? ≠ none →
      budgetKey s' c.parent = budgetKey s c.parent)
    (hcalls : ∀ call c', s'.calls call = some c' → c'.stage.key? = none ∨
      ∃ c, s.calls call = some c ∧ c'.parent = c.parent ∧ c'.stage.key? = c.stage.key? ∧
        c'.stage.lock? = c.stage.lock?) : Locks s' where
  key := fun call c' key hc' hkey => by
    rcases hcalls call c' hc' with hnone | ⟨c, hc, hparent, hsame, _⟩
    · simp [hnone] at hkey
    · rw [hkeys call c' hc' (by simp [hkey]), hparent]
      exact h.key call c key hc (hsame ▸ hkey)
  held := fun call c' key hc' hlock => by
    rcases hcalls call c' hc' with hnone | ⟨c, hc, _, _, hsame⟩
    · simp [key_of_lock hlock] at hnone
    · rw [hlocks]
      exact h.held call c key hc (hsame ▸ hlock)

/-- One call goes on under its lock. -/
theorem restage (h : Locks s) {new : Call} (hc : s.calls call = some c)
    (hcalls : s'.calls = Function.update s.calls call (some new)) (hlocks : s'.locks = s.locks)
    (harc : ∀ call c, s'.calls call = some c → s'.arcId c.parent = s.arcId c.parent)
    (hparent : new.parent = c.parent) (hkey : new.stage.key? = c.stage.key?)
    (hlock : new.stage.lock? = c.stage.lock?) : Locks s' := by
  apply h.of_calls hlocks
  · intro other c' hc' _
    simp [budgetKey, harc other c' hc']
  · intro other c' hc'
    rw [hcalls, update_eq_some] at hc'
    rcases hc' with ⟨rfl, hnew⟩ | ⟨_, hkept⟩
    · obtain rfl := Option.some.inj hnew
      exact .inr ⟨c, hc, hparent, hkey, hlock⟩
    · exact .inr ⟨c', hkept, rfl, rfl, rfl⟩

/-- A call lets go of its lock. No other call has it. -/
theorem leave (h : Locks s) (hc : s.calls call = some c) (hover : stage.isOver = true) :
    Locks (LaunchCaps.leave s call c stage) := by
  have hnone : stage.key? = none := by
    cases stage <;> simp_all [Stage.isOver, Stage.key?]
  constructor
  · intro other c' key hc' hkey
    rcases update_eq_some.mp hc' with ⟨rfl, hnew⟩ | ⟨_, hkept⟩
    · obtain ⟨rfl, _⟩ := eq_of_over hnew
      simp [hnone] at hkey
    · exact h.key other c' key hkept hkey
  · intro other c' key hc' hlock
    rcases update_eq_some.mp hc' with ⟨rfl, hnew⟩ | ⟨hne, hkept⟩
    · obtain ⟨rfl, _⟩ := eq_of_over hnew
      have := key_of_lock hlock
      simp [hnone] at this
    · have hheld := h.held other c' key hkept hlock
      have hfree : c.stage.lock? ≠ some key := by
        intro hown
        rw [h.held call c key hc hown] at hheld
        exact hne (Option.some.inj hheld).symm
      simpa [LaunchCaps.leave, hfree] using hheld

/-- A call reads its key. -/
theorem waits (h : Locks s) :
    Locks (setCall s call (some { c with stage := .waiting (budgetKey s c.parent) })) where
  key := fun other c' key hc' => by
    refine forall_update (fun hkey => ?_) (fun other c' _ hc' => h.key other c' key hc') other c' hc'
    exact (by simpa [Stage.key?] using hkey : budgetKey s c.parent = key).symm
  held := fun other c' key hc' =>
    forall_update (by simp [Stage.lock?]) (fun other c' _ hc' => h.held other c' key hc') other c' hc'

/-- A call takes a lock that is free. -/
theorem locked (h : Locks s) (hc : s.calls call = some c) (hstage : c.stage = .waiting key)
    (hfree : s.locks key = none) :
    Locks { setCall s call (some { c with stage := .locked key }) with
      locks := Function.update s.locks key (some call) } := by
  constructor
  · intro other c' key' hc' hkey
    rcases update_eq_some.mp hc' with ⟨rfl, hnew⟩ | ⟨_, hkept⟩
    · cases hnew
      exact h.key other c key' hc (by simpa [hstage, Stage.key?] using hkey)
    · exact h.key other c' key' hkept hkey
  · intro other c' key' hc' hlock
    rcases update_eq_some.mp hc' with ⟨rfl, hnew⟩ | ⟨_, hkept⟩
    · cases hnew
      have : key = key' := by simpa [Stage.lock?] using hlock
      simp [this]
    · have hheld := h.held other c' key' hkept hlock
      have hne : key' ≠ key := by
        rintro rfl
        simp [hfree] at hheld
      simpa [hne] using hheld

end Locks

/-! ## Levels -/

namespace Stage

/-- The depth that a call has read and that it has yet to record. -/
def depth? : Stage → Option ℕ
  | .counted _ depth _ _ _ | .checked _ depth _ _ | .written _ depth => some depth
  | .entered | .waiting _ | .locked _ | .recorded | .failed _ _ | .dropped => none

end Stage

/-- If a session was started for a caller, its launch is recorded. -/
def Grounded (s : State) (id : ℕ) : Prop :=
  ∀ start ∈ s.starts, start.child = id → ∃ row, s.db.sessions.find? id = some row ∧
    row.launchedBySessionId ≠ none

/-- A session is one level below its launcher, and its recorded depth is no smaller. -/
structure Levels (s : State) : Prop where
  started : ∀ start ∈ s.starts, s.level start.child = s.level start.parent + 1 ∧
    s.level start.child ≤ maxLaunchDepth
  top : ∀ id, (∀ start ∈ s.starts, start.child ≠ id) → s.level id = 0
  recorded : ∀ id row, s.db.sessions.find? id = some row → row.launchedBySessionId ≠ none →
    s.level id ≤ s.launchDepth id
  parents : ∀ start ∈ s.starts, Grounded s start.parent
  calls : ∀ call c depth, s.calls call = some c → c.stage.depth? = some depth →
    Grounded s c.parent ∧ s.level c.parent + 1 ≤ depth ∧ depth ≤ maxLaunchDepth

namespace Levels

variable {s s' : State}

/-- The recorded depth of a session that may launch is its level at least. -/
theorem level_le (h : Levels s) {id : ℕ} (hgrounded : Grounded s id) :
    s.level id ≤ s.launchDepth id := by
  by_cases hstart : ∃ start ∈ s.starts, start.child = id
  · obtain ⟨start, hmem, hchild⟩ := hstart
    obtain ⟨row, hrow, hlauncher⟩ := hgrounded start hmem hchild
    exact h.recorded id row hrow hlauncher
  · simp only [not_exists, not_and] at hstart
    rw [h.top id hstart]
    exact Nat.zero_le _

/-- The sessions stay as they are, and no call has read another depth. -/
theorem of_calls (h : Levels s) (hsessions : s'.db.sessions = s.db.sessions)
    (hlevel : s'.level = s.level) (hdepth : s'.launchDepth = s.launchDepth)
    (hstarts : s'.starts = s.starts)
    (hcalls : ∀ call c', s'.calls call = some c' → c'.stage.depth? = none ∨
      ∃ c, s.calls call = some c ∧ c'.parent = c.parent ∧ c'.stage.depth? = c.stage.depth?) :
    Levels s' := by
  have hgrounded : ∀ id, Grounded s' id ↔ Grounded s id := by
    simp [Grounded, hsessions, hstarts]
  constructor
  · simpa [hlevel, hstarts] using h.started
  · simpa [hlevel, hstarts] using h.top
  · simpa [hlevel, hdepth, hsessions] using h.recorded
  · simpa [hstarts, hgrounded] using h.parents
  · intro call c' depth hc' hread
    rcases hcalls call c' hc' with hnone | ⟨c, hc, hparent, hsame⟩
    · simp [hnone] at hread
    · rw [hgrounded, hlevel, hparent]
      exact h.calls call c depth hc (hsame ▸ hread)

/-- One call goes on with the depth that it read, or is over. -/
theorem restage (h : Levels s) (hc : s.calls call = some c)
    (hsessions : s'.db.sessions = s.db.sessions) (hlevel : s'.level = s.level)
    (hdepth : s'.launchDepth = s.launchDepth) (hstarts : s'.starts = s.starts)
    (hcalls : s'.calls = Function.update s.calls call new)
    (hnew : ∀ c', new = some c' → c'.stage.depth? = none ∨
      (c'.parent = c.parent ∧ c'.stage.depth? = c.stage.depth?)) : Levels s' := by
  apply h.of_calls hsessions hlevel hdepth hstarts
  intro other c' hc'
  rw [hcalls, update_eq_some] at hc'
  rcases hc' with ⟨rfl, hsome⟩ | ⟨_, hkept⟩
  · rcases hnew c' hsome with hnone | ⟨hparent, hsame⟩
    · exact .inl hnone
    · exact .inr ⟨c, hc, hparent, hsame⟩
  · exact .inr ⟨c', hkept, rfl, rfl⟩

/-- A call reads its depth. -/
theorem counts (h : Levels s) (hcalls : Calls s) (hc : s.calls call = some c)
    (hstage : stage.depth? = some (s.launchDepth c.parent + 1))
    (hdepth : s.launchDepth c.parent + 1 ≤ maxLaunchDepth)
    (hrecorded : ∀ start ∈ s.starts, start.child = c.parent → ∀ row,
      s.db.sessions.find? c.parent = some row → row.launchedBySessionId ≠ none) :
    Levels (setCall s call (some { c with stage := stage })) := by
  have hgrounded : Grounded s c.parent := by
    intro start hstart hchild
    obtain ⟨row, hrow⟩ := Option.isSome_iff_exists.mp (hcalls.parents call c hc)
    exact ⟨row, hrow, hrecorded start hstart hchild row hrow⟩
  refine ⟨h.started, h.top, h.recorded, h.parents, ?_⟩
  intro other c' depth hc' hread
  rcases update_eq_some.mp hc' with ⟨rfl, hnew⟩ | ⟨_, hkept⟩
  · cases hnew
    rw [hstage, Option.some.injEq] at hread
    have hle := h.level_le hgrounded
    refine ⟨hgrounded, ?_, by omega⟩
    rw [← hread]
    exact Nat.succ_le_succ hle
  · exact h.calls other c' depth hkept hread

/-- A row is written that is neither a launcher nor started before. -/
theorem opened (h : Levels s) (hstore : Store s.db s.starts s.drawn) (hcalls : Calls s)
    (arcId : Option ℕ) : Levels (step s (.openSession arcId)) := by
  have hold : ∀ id, (s.db.sessions.find? id).isSome → id ≠ s.drawn := by
    intro id hid
    have := hstore.rows id hid
    omega
  have hput : ∀ id, id ≠ s.drawn →
      (step s (.openSession arcId)).db.sessions.find? id = s.db.sessions.find? id := by
    intro id hid
    exact (Table.find?_put id).trans (if_neg (Ne.symm hid))
  have hgrounded : ∀ id, id ≠ s.drawn → Grounded s id → Grounded (step s (.openSession arcId)) id := by
    intro id hid hgrounded start hstart hchild
    rw [hput id hid]
    exact hgrounded start hstart hchild
  constructor
  · intro start hstart
    obtain ⟨hchild, hparent⟩ := hstore.present start hstart
    simp only [step, Function.update_of_ne (hold _ hchild), Function.update_of_ne (hold _ hparent)]
    exact h.started start hstart
  · intro id hid
    by_cases heq : id = s.drawn
    · simp [step, heq]
    · simp only [step, Function.update_of_ne heq]
      exact h.top id hid
  · intro id row hrow hlauncher
    by_cases heq : id = s.drawn
    · subst heq
      have : (step s (.openSession arcId)).db.sessions.find? s.drawn =
          some ⟨s.drawn, none, launchKindAgent⟩ := (Table.find?_put s.drawn).trans (if_pos rfl)
      rw [this] at hrow
      cases hrow
      simp at hlauncher
    · rw [hput id heq] at hrow
      simp only [step, Function.update_of_ne heq]
      exact h.recorded id row hrow hlauncher
  · intro start hstart
    exact hgrounded _ (hold _ (hstore.present start hstart).2) (h.parents start hstart)
  · intro call c depth hc hread
    have hne := hold _ (hcalls.parents call c hc)
    obtain ⟨hground, hle, hmax⟩ := h.calls call c depth hc hread
    refine ⟨hgrounded _ hne hground, ?_, hmax⟩
    simpa only [step, Function.update_of_ne hne] using hle

/-- A repair records a depth that is one more than the launcher's. -/
theorem reconcile (h : Levels s) (hstore : Store s.db s.starts s.drawn) :
    Levels (LaunchCaps.reconcile s) := by
  have hgrounded : ∀ id, Grounded s id → Grounded (LaunchCaps.reconcile s) id := by
    intro id hgrounded start hstart hchild
    obtain ⟨row, hrow, hlauncher⟩ := hgrounded start hstart hchild
    refine ⟨row, ?_, hlauncher⟩
    exact (find?_reconcile s.db id).trans (by simp [hrow, hlauncher])
  refine ⟨h.started, h.top, ?_, fun start hstart => hgrounded _ (h.parents start hstart), ?_⟩
  · intro id row' hrow' hlauncher
    have hrow' : s.db.reconcileUncertainLineage.sessions.find? id = some row' := hrow'
    rw [find?_reconcile, Option.map_eq_some_iff] at hrow'
    obtain ⟨row, hrow, rfl⟩ := hrow'
    have hid : row.id = id := Table.key_of_find? hrow
    show s.level id ≤ repairedDepth s.db s.launchDepth id
    by_cases hnone : row.launchedBySessionId = none
    · cases hcase : s.db.uncertainLauncher id with
      | none => simp [hnone, hid, hcase] at hlauncher
      | some launcher =>
        obtain ⟨receipt, hreceipt, hcaller, hsession, _⟩ :=
          (uncertainLauncher_eq_some hstore.distinct).mp hcase
        obtain ⟨start, hstart, hchild, hparent⟩ :=
          hstore.named receipt hreceipt (by simp [hsession, hrow])
        rw [hsession] at hchild
        rw [hcaller] at hparent
        have hlevel := (h.started start hstart).1
        have hle := h.level_le (h.parents start hstart)
        have hpresent := (hstore.present start hstart).2
        rw [hparent] at hlevel hle hpresent
        simp only [repairedDepth, hrow, hcase, hnone, Option.isNone_none, if_true, hpresent]
        rw [← hchild]
        omega
    · simp only [repairedDepth, hrow]
      cases s.db.uncertainLauncher id <;> simp [hnone, h.recorded id row hrow hnone]
  · intro call c depth hc hread
    obtain ⟨hground, hle, hmax⟩ := h.calls call c depth hc hread
    exact ⟨hgrounded _ hground, hle, hmax⟩

/-- A call writes its session, which is one level below the caller. -/
theorem writes (h : Levels s) (hstore : Store s.db s.starts s.drawn) (hcalls : Calls s)
    (hc : s.calls call = some c) (hstage : c.stage = .checked key depth arcId exempt) :
    Levels (setCall (writeSession s c arcId exempt) call
      (some { c with stage := .written key depth })) := by
  have hfree : s.db.sessions.find? c.sessionId = none :=
    hcalls.unwritten call c hc (by simp [hstage, Stage.isUnwritten])
  have hold : ∀ id, (s.db.sessions.find? id).isSome → id ≠ c.sessionId := by
    rintro id hid rfl
    simp [hfree] at hid
  have hput : ∀ id, id ≠ c.sessionId →
      (s.db.sessions.put ⟨c.sessionId, none, launchKindAgent⟩).find? id =
        s.db.sessions.find? id := by
    intro id hid
    rw [Table.find?_put, if_neg (Ne.symm hid)]
  obtain ⟨hground, hle, hmax⟩ := h.calls call c depth hc (by simp [hstage, Stage.depth?])
  have hparent := hold _ (hcalls.parents call c hc)
  -- The launcher of the new session is none that was started just now.
  have hgrounded : ∀ id, id ≠ c.sessionId → Grounded s id →
      Grounded (setCall (writeSession s c arcId exempt) call
        (some { c with stage := .written key depth })) id := by
    intro id hid hground start hstart hchild
    rcases List.mem_cons.mp hstart with rfl | hstart
    · exact absurd hchild.symm hid
    · obtain ⟨row, hrow, hlauncher⟩ := hground start hstart hchild
      exact ⟨row, (hput id hid).trans hrow, hlauncher⟩
  constructor
  · intro start hstart
    simp only [setCall, writeSession]
    rcases List.mem_cons.mp hstart with rfl | hstart
    · simp only [Function.update_self, Function.update_of_ne hparent, true_and]
      omega
    · obtain ⟨hchild, hlauncher⟩ := hstore.present start hstart
      rw [Function.update_of_ne (hold _ hchild), Function.update_of_ne (hold _ hlauncher)]
      exact h.started start hstart
  · intro id hid
    have hne : id ≠ c.sessionId := fun heq =>
      hid ⟨c.sessionId, c.parent, exempt⟩ List.mem_cons_self heq.symm
    simp only [setCall, writeSession, Function.update_of_ne hne]
    exact h.top id fun start hstart => hid start (List.mem_cons_of_mem _ hstart)
  · intro id row hrow hlauncher
    have hrow : (s.db.sessions.put ⟨c.sessionId, none, launchKindAgent⟩).find? id = some row := hrow
    by_cases hne : id = c.sessionId
    · rw [Table.find?_put, if_pos hne.symm] at hrow
      cases hrow
      simp at hlauncher
    · rw [hput id hne] at hrow
      simp only [setCall, writeSession, Function.update_of_ne hne]
      exact h.recorded id row hrow hlauncher
  · intro start hstart
    rcases List.mem_cons.mp hstart with rfl | hstart
    · exact hgrounded _ hparent hground
    · exact hgrounded _ (hold _ (hstore.present start hstart).2) (h.parents start hstart)
  · intro other c' depth' hc' hread
    have hcall : ∃ before, s.calls other = some before ∧ c'.parent = before.parent ∧
        before.stage.depth? = some depth' := by
      rcases update_eq_some.mp hc' with ⟨rfl, hnew⟩ | ⟨_, hkept⟩
      · cases hnew
        exact ⟨c, hc, rfl, by simpa [hstage, Stage.depth?] using hread⟩
      · exact ⟨c', hkept, rfl, hread⟩
    obtain ⟨before, hbefore, hsame, hdepth⟩ := hcall
    have hne := hold _ (hcalls.parents other before hbefore)
    obtain ⟨hground, hle, hmax⟩ := h.calls other before depth' hbefore hdepth
    rw [hsame]
    refine ⟨hgrounded _ hne hground, ?_, hmax⟩
    simpa only [setCall, writeSession, Function.update_of_ne hne] using hle

/-- A launch is recorded with the depth that its call has read. -/
theorem records (h : Levels s) (hcalls : Calls s) (hc : s.calls call = some c)
    (hstage : c.stage = .written key depth) :
    Levels (leave (recordSessionLaunch s c.sessionId c.parent depth) call c .recorded) := by
  obtain ⟨⟨row, hrow, hnone⟩, start, hstart, hchild, hparent⟩ :=
    hcalls.written call c hc (by simp [hstage, Stage.isWritten])
  obtain ⟨hground, hle, hmax⟩ := h.calls call c depth hc (by simp [hstage, Stage.depth?])
  have hgrounded : ∀ id, Grounded s id →
      Grounded (leave (recordSessionLaunch s c.sessionId c.parent depth) call c .recorded) id := by
    intro id hground start hstart hchild
    obtain ⟨row', hrow', hlauncher⟩ := hground start hstart hchild
    have hne : id ≠ c.sessionId := by
      rintro rfl
      rw [hrow] at hrow'
      cases hrow'
      exact hlauncher hnone
    have hkept := @find?_recordSessionLaunch_of_ne s c.sessionId c.parent depth id hne
    exact ⟨row', hkept.trans hrow', hlauncher⟩
  refine ⟨h.started, h.top, ?_, fun start hstart => hgrounded _ (h.parents start hstart), ?_⟩
  · intro id row' hrow' hlauncher
    by_cases hne : id = c.sessionId
    · have hlevel := (h.started start hstart).1
      rw [hchild, hparent] at hlevel
      simp only [leave, setCall, recordSessionLaunch, hne, Function.update_self]
      omega
    · have hrow' : (recordSessionLaunch s c.sessionId c.parent depth).db.sessions.find? id =
          some row' := hrow'
      rw [find?_recordSessionLaunch_of_ne hne] at hrow'
      simp only [leave, setCall, recordSessionLaunch, Function.update_of_ne hne]
      exact h.recorded id row' hrow' hlauncher
  · intro other c' depth' hc' hread
    rcases update_eq_some.mp hc' with ⟨rfl, hnew⟩ | ⟨_, hkept⟩
    · obtain ⟨rfl, _⟩ := eq_of_over hnew
      simp [Stage.depth?] at hread
    · obtain ⟨hground, hle, hmax⟩ := h.calls other c' depth' hkept hread
      exact ⟨hgrounded _ hground, hle, hmax⟩

end Levels

/-! ## The caps -/

/-- How many sessions were started for a caller. -/
def startedFor (s : State) (parent : ℕ) : ℕ :=
  s.starts.countP fun start => start.parent = parent

/-- A caller that does not coordinate its Arc has launches left while a call of it has passed its
check. -/
structure Caps (s : State) : Prop where
  launches : ∀ newer start older, s.starts = newer ++ start :: older → start.exempt = false →
    older.countP (fun other => other.parent = start.parent) < maxLaunchesPerSession
  checked : ∀ call c key depth arcId, s.calls call = some c →
    c.stage = .checked key depth arcId false → startedFor s c.parent < maxLaunchesPerSession

/-- No call has just passed its check. -/
theorem Caps.of_calls {s : State} (h : Caps s) (hstarts : s'.starts = s.starts)
    (hcalls : ∀ call c key depth arcId, s'.calls call = some c →
      c.stage = .checked key depth arcId false → s.calls call = some c) : Caps s' where
  launches := by simpa [hstarts] using h.launches
  checked := fun call c key depth arcId hc hstage => by
    have := h.checked call c key depth arcId (hcalls call c key depth arcId hc hstage) hstage
    simpa [startedFor, hstarts] using this

/-- One call goes on to a stage that is not behind its check. -/
theorem Caps.restage {s : State} (h : Caps s) (hstarts : s'.starts = s.starts)
    (hcalls : s'.calls = Function.update s.calls call new)
    (hnew : ∀ c, new = some c → ∀ key depth arcId, c.stage ≠ .checked key depth arcId false) :
    Caps s' := by
  apply h.of_calls hstarts
  intro other c key depth arcId hc hstage
  rw [hcalls, update_eq_some] at hc
  rcases hc with ⟨rfl, hsome⟩ | ⟨_, hkept⟩
  · exact absurd hstage (hnew c hsome key depth arcId)
  · exact hkept

/-- What holds in every state of an ordered run. -/
structure Inv (s : State) : Prop where
  store : Store s.db s.starts s.drawn
  calls : Calls s
  counted : ∀ start ∈ s.starts, Counted s start
  locks : Locks s
  levels : Levels s
  caps : Caps s

namespace Inv

variable {s : State}

theorem start : Inv State.start where
  store := ⟨by simp [State.start], by simp [State.start], by simp [State.start],
    by simp [State.start], by simp [State.start, Distinct], by simp [State.start]⟩
  calls := ⟨by simp [State.start], by simp [State.start], by simp [State.start],
    by simp [State.start], by simp [State.start], by simp [State.start], by simp [State.start],
    by simp [State.start]⟩
  counted := by simp [State.start]
  locks := ⟨by simp [State.start], by simp [State.start]⟩
  levels := ⟨by simp [State.start], by simp [State.start], by simp [State.start],
    by simp [State.start], by simp [State.start]⟩
  caps := ⟨by simp [State.start], by simp [State.start]⟩

section

variable (h : Inv s)
include h

/-- A check counts whatever was started for the caller. -/
theorem startedFor_le {launched : List ℕ} (hc : s.calls call = some c)
    (hstage : c.stage = .counted key depth launched arcId exempt)
    (hsame : launchedBy s c.parent ⊆ launched)
    (hbroken : ∀ other c', s.calls other = some c' → c'.parent = c.parent →
      c'.stage.isBroken = true → s.db.sessions.find? c'.sessionId = none) :
    startedFor s c.parent ≤ launched.length + s.db.countUnrecordedLaunches c.parent := by
  -- The sessions started for the caller, and those that the check counts.
  have hsub : (s.starts.filter fun start => start.parent = c.parent).map Start.child ⊆
      launched ++ (s.db.receipts.rows.filter fun receipt =>
        receipt.callerSessionId == c.parent && receipt.status == .uncertain &&
          s.db.sessions.rows.any fun session =>
            session.id == receipt.sessionId && session.launchedBySessionId.isNone).map
        LaunchReceipt.sessionId := by
    intro child hchild
    simp only [List.mem_map, List.mem_filter, decide_eq_true_eq] at hchild
    obtain ⟨start, ⟨hstart, hparent⟩, rfl⟩ := hchild
    rw [List.mem_append]
    cases h.counted start hstart with
    | recorded hrecorded =>
      obtain ⟨row, hrow, hlauncher, hkind⟩ := hrecorded
      left
      apply hsame
      simp only [launchedBy, List.mem_map, List.mem_filter, Bool.and_eq_true, beq_iff_eq]
      exact ⟨row, ⟨Table.mem_of_find? hrow, hparent ▸ hlauncher, hkind⟩, Table.key_of_find? hrow⟩
    | uncertain hrow huncertain =>
      obtain ⟨receipt, hreceipt, hcaller, hsession, hstatus⟩ := huncertain
      obtain ⟨row, hfind, hnone⟩ := hrow
      right
      simp only [List.mem_map, List.mem_filter, Bool.and_eq_true, beq_iff_eq, List.any_eq_true]
      refine ⟨receipt, ⟨hreceipt, ⟨hcaller.trans hparent, hstatus⟩, row, Table.mem_of_find? hfind,
        ?_, by simp [hnone]⟩, hsession⟩
      rw [hsession]
      exact Table.key_of_find? hfind
    | inCall other c' hcall hid hparent' hrow hstage' =>
      have hsameParent : c'.parent = c.parent := hparent'.trans hparent
      rcases hstage' with hwritten | hover
      · -- Both calls would hold the lock of the caller.
        have hlock : ∃ key', c'.stage.lock? = some key' := by
          cases hcase : c'.stage <;> simp_all [Stage.isWritten, Stage.lock?]
        obtain ⟨key', hlock⟩ := hlock
        have hsameCall := h.locks.eq_of_locked hc hcall hsameParent (by rw [hstage]; rfl) hlock
        subst hsameCall
        obtain rfl := Option.some.inj (hc.symm.trans hcall)
        simp [hstage, Stage.isWritten] at hwritten
      · obtain ⟨row, hfind, _⟩ := hrow
        have := hbroken other c' hcall hsameParent hover
        simp [hid, hfind] at this
  have hnodup : ((s.starts.filter fun start => start.parent = c.parent).map Start.child).Nodup :=
    h.store.once.sublist (List.filter_sublist.map Start.child)
  have hle := (List.subperm_of_subset hnodup hsub).length_le
  simpa [startedFor, List.countP_eq_length_filter, Database.countUnrecordedLaunches] using hle

/-- A call that has yet to write its session goes on. -/
theorem restage (hc : s.calls call = some c) (hbefore : c.stage.isUnwritten = true)
    (hafter : stage.isUnwritten = true) (hdb : s'.db = s.db) (hstarts : s'.starts = s.starts)
    (hdrawn : s'.drawn = s.drawn)
    (hcalls : s'.calls = Function.update s.calls call (some { c with stage := stage }))
    (hlocks : Locks s') (hlevels : Levels s') (hcaps : Caps s') : Inv s' := by
  have hstages : stage.isWritten = false ∧ stage.isOver = false := by
    cases stage <;> simp_all [Stage.isUnwritten, Stage.isWritten, Stage.isOver]
  have hfrom : CallsFrom s s' := by
    refine .of_update hcalls hc ?_
    intro c' hnew
    cases hnew
    simp [hbefore, hstages]
  refine ⟨?_, h.calls.of_calls hfrom hdb (Nat.le_of_eq hdrawn.symm) hstarts, ?_, hlocks, hlevels, hcaps⟩
  · rw [hdb, hstarts, hdrawn]
    exact h.store
  · intro start hstart
    rw [hstarts] at hstart
    refine (h.counted start hstart).restage hdb hcalls ?_
    intro c' hc' _
    cases hcase : c.stage <;> simp_all [Stage.isUnwritten, Stage.isWritten, Stage.isBroken]

/-- A call begins or is over, and the others go on. -/
theorem renewed
    (hcalls : ∀ call c, s'.calls call = some c → c.stage = .entered ∨ s.calls call = some c)
    (hsessions : s'.db.sessions = s.db.sessions) (hstarts : s'.starts = s.starts)
    (hlevel : s'.level = s.level) (hdepth : s'.launchDepth = s.launchDepth)
    (harc : s'.arcId = s.arcId) (hlocks : s'.locks = s.locks)
    (hstore : Store s'.db s'.starts s'.drawn) (hknown : Calls s')
    (hcounted : ∀ start ∈ s.starts, Counted s' start) : Inv s' := by
  refine ⟨hstore, hknown, hstarts ▸ hcounted, ?_, ?_, ?_⟩
  · apply h.locks.of_calls hlocks
    · intro call c _ _
      simp [budgetKey, harc]
    · intro call c hc
      rcases hcalls call c hc with hentered | hkept
      · exact .inl (by simp [hentered, Stage.key?])
      · exact .inr ⟨c, hkept, rfl, rfl, rfl⟩
  · apply h.levels.of_calls hsessions hlevel hdepth hstarts
    intro call c hc
    rcases hcalls call c hc with hentered | hkept
    · exact .inl (by simp [hentered, Stage.depth?])
    · exact .inr ⟨c, hkept, rfl, rfl⟩
  · apply h.caps.of_calls hstarts
    intro call c key depth arcId hc hchecked
    rcases hcalls call c hc with hentered | hkept
    · simp [hentered] at hchecked
    · exact hkept

/-- A repair keeps what holds. -/
theorem reconcile : Inv (LaunchCaps.reconcile s) where
  store := h.store.reconcile
  calls := h.calls.reconcile h.store.distinct
  counted := fun start hstart =>
    (h.counted start hstart).reconcile h.calls h.store.distinct
  locks := h.locks.of_calls rfl (fun _ _ _ _ => rfl) fun _ c hc => .inr ⟨c, hc, rfl, rfl, rfl⟩
  levels := h.levels.reconcile h.store
  caps := h.caps.of_calls rfl fun _ _ _ _ _ hc _ => hc

/-- The receipt of a call is settled, and the call is over. -/
theorem settled {outcome : Database.Outcome} (hc : s.calls call = some c)
    (hrequest : c.request = some request) (hover : c.stage.isOver = true)
    (houtcome : c.stage.isBroken = true → outcome = .uncertain ∨
      s.db.sessions.find? c.sessionId = none) :
    Inv (setCall { s with db := s.db.settle c.parent request outcome } call none) :=
  h.renewed (fun _ _ hc => .inr (update_none_eq_some.mp hc).2) rfl rfl rfl rfl rfl rfl
    (h.store.settles (.settle _ _ _))
    (h.calls.settled hc hrequest outcome)
    fun start hstart => (h.counted start hstart).settled h.calls hc hrequest hover houtcome

/-- A call that ends its launch. -/
theorem leave (hc : s.calls call = some c) (hlive : c.stage.isBroken = false)
    (hbroken : stage.isBroken = true) (hreceipt : c.stage.isWritten = true → c.request ≠ none) :
    Inv (LaunchCaps.leave s call c stage) := by
  have hstage : stage.isOver = true ∧ stage.depth? = none ∧
      ∀ key depth arcId, stage ≠ .checked key depth arcId false := by
    cases stage <;> simp_all [Stage.isBroken, Stage.isOver, Stage.depth?]
  refine ⟨h.store, h.calls.leave hc hstage.1, ?_, h.locks.leave hc hstage.1, ?_, ?_⟩
  · exact fun start hstart => (h.counted start hstart).leave hc hlive hbroken hreceipt
  · refine h.levels.restage hc rfl rfl rfl rfl rfl ?_
    intro c' hnew
    obtain ⟨rfl, _⟩ := eq_of_over hnew
    exact .inl hstage.2.1
  · refine h.caps.restage rfl rfl ?_
    intro c' hnew
    obtain ⟨rfl, _⟩ := eq_of_over hnew
    exact hstage.2.2

/-- A call writes its session. -/
theorem writes (hc : s.calls call = some c)
    (hstage : c.stage = .checked key depth arcId exempt) :
    Inv (setCall (writeSession s c arcId exempt) call
      (some { c with stage := .written key depth })) := by
  have hfree : s.db.sessions.find? c.sessionId = none :=
    h.calls.unwritten call c hc (by simp [hstage, Stage.isUnwritten])
  have hold : ∀ id, (s.db.sessions.find? id).isSome → id ≠ c.sessionId := by
    rintro id hid rfl
    simp [hfree] at hid
  have hcalls := h.calls.writes hc hstage
  refine ⟨?_, hcalls, ?_, ?_, h.levels.writes h.store h.calls hc hstage, ?_⟩
  · exact h.store.written hfree (h.calls.drawn call c hc) (h.calls.parents call c hc)
      fun receipt hreceipt hid => (h.calls.caller h.store.distinct hc hreceipt hid).1
  · intro start hstart
    rcases List.mem_cons.mp hstart with rfl | hstart
    · refine .inCall call _ (update_eq_some.mpr (.inl ⟨rfl, rfl⟩)) rfl rfl ?_ (.inl rfl)
      exact (hcalls.written call _ (update_eq_some.mpr (.inl ⟨rfl, rfl⟩)) rfl).1
    · refine (h.counted start hstart).put (hold _ (h.store.present start hstart).1) rfl rfl ?_
      intro other c' hc' hid hcase
      have hother : other ≠ call := by
        rintro rfl
        obtain rfl := Option.some.inj (hc.symm.trans hc')
        simp [hstage, Stage.isWritten, Stage.isBroken] at hcase
      exact ⟨c', update_eq_some.mpr (.inr ⟨hother, hc'⟩), rfl, rfl, hcase⟩
  · refine h.locks.restage hc rfl rfl ?_ rfl (by simp [hstage, Stage.key?])
      (by simp [hstage, Stage.lock?])
    intro other c' hc'
    have hparent : c'.parent ≠ c.sessionId := by
      rcases update_eq_some.mp hc' with ⟨rfl, hnew⟩ | ⟨_, hkept⟩
      · cases hnew
        exact hold _ (h.calls.parents _ c hc)
      · exact hold _ (h.calls.parents other c' hkept)
    simp [setCall, writeSession, Function.update_of_ne hparent]
  · constructor
    · intro newer start older hstarts hexempt
      cases newer with
      | nil =>
        obtain ⟨rfl, rfl⟩ := List.cons.inj hstarts
        subst hexempt
        exact h.caps.checked call c key depth arcId hc hstage
      | cons first newer =>
        obtain ⟨_, hrest⟩ := List.cons.inj hstarts
        exact h.caps.launches newer start older hrest hexempt
    · intro other c' key' depth' arcId' hc' hchecked
      rcases update_eq_some.mp hc' with ⟨rfl, hnew⟩ | ⟨hne, hkept⟩
      · cases hnew
        simp at hchecked
      · -- A call of the same caller would hold the same lock.
        have hparent : c'.parent ≠ c.parent := by
          intro heq
          exact hne (h.locks.eq_of_locked hc hkept heq (by rw [hstage]; rfl)
            (by rw [hchecked]; rfl)).symm
        have := h.caps.checked other c' key' depth' arcId' hkept hchecked
        simpa [startedFor, setCall, writeSession, Ne.symm hparent] using this

/-- The launch of a call is recorded. -/
theorem records (hc : s.calls call = some c) (hstage : c.stage = .written key depth) :
    Inv (LaunchCaps.leave (recordSessionLaunch s c.sessionId c.parent depth) call c .recorded) where
  store := h.store.of_rows rfl (@isSome_recordSessionLaunch s c.sessionId c.parent depth)
  calls := h.calls.recorded hc hstage
  counted := fun start hstart =>
    (h.counted start hstart).recordedBy h.calls h.store.once hstart hc hstage
  locks := by
    have hlocks : Locks (recordSessionLaunch s c.sessionId c.parent depth) :=
      h.locks.of_calls rfl (fun _ _ _ _ => rfl) fun _ c hc => .inr ⟨c, hc, rfl, rfl, rfl⟩
    exact hlocks.leave hc rfl
  levels := h.levels.records h.calls hc hstage
  caps := by
    refine h.caps.restage rfl rfl ?_
    intro c' hnew
    obtain ⟨rfl, _⟩ := eq_of_over hnew
    simp

/-- At boot no call is left, and what was not recorded is. -/
theorem restarted
    (hreceipt : ∀ call c, s.calls call = some c → c.stage.isWritten = true → c.request ≠ none) :
    Inv (step s .restart) := by
  have hsettles := Settles.orphans s.db
  have hstore := h.store.settles hsettles
  have hlevels : Levels { s with db := orphansSettled s.db } :=
    h.levels.of_calls hsettles.sessions rfl rfl rfl fun _ c hc => .inr ⟨c, hc, rfl, rfl⟩
  refine ⟨hstore.reconcile, ?_, ?_, ?_, ?_, ?_⟩
  · refine ⟨?_, ?_, ?_, ?_, ?_, ?_, ?_, ?_⟩ <;> simp [step]
  · exact fun start hstart =>
      (h.counted start hstart).restarted h.calls h.store.distinct hreceipt
  · refine ⟨?_, ?_⟩ <;> simp [step]
  · exact (hlevels.reconcile hstore).of_calls rfl rfl rfl rfl (by simp [step])
  · exact h.caps.of_calls rfl (by simp [step])

/-- **What an ordered step does keeps what holds.** -/
theorem effect (heffect : Effect s s') : Inv s' := by
  cases heffect with
  | idle => exact h
  | opened arcId =>
    have hold : ∀ id, (s.db.sessions.find? id).isSome → id ≠ s.drawn := by
      intro id hid
      have := h.store.rows id hid
      omega
    refine ⟨h.store.opened, h.calls.opened h.store arcId, ?_, ?_,
      h.levels.opened h.store h.calls arcId, h.caps.of_calls rfl fun _ _ _ _ _ hc _ => hc⟩
    · intro start hstart
      exact (h.counted start hstart).put (hold _ (h.store.present start hstart).1) rfl rfl
        fun call c hc _ hstage => ⟨c, hc, rfl, rfl, hstage⟩
    · refine h.locks.of_calls rfl ?_ fun call c hc => .inr ⟨c, hc, rfl, rfl, rfl⟩
      intro call c hc _
      simp [budgetKey, step, Function.update_of_ne (hold _ (h.calls.parents call c hc))]
  | arcSet id arcId hfree =>
    refine ⟨h.store, h.calls.of_calls (.of_eq rfl) rfl (Nat.le_refl _) rfl,
      fun start hstart => (h.counted start hstart).of_eq rfl rfl, ?_,
      h.levels.of_calls rfl rfl rfl rfl fun call c hc => .inr ⟨c, hc, rfl, rfl⟩,
      h.caps.of_calls rfl fun _ _ _ _ _ hc _ => hc⟩
    refine h.locks.of_calls rfl ?_ fun call c hc => .inr ⟨c, hc, rfl, rfl, rfl⟩
    intro call c hc hkey
    have hne : c.parent ≠ id := fun heq => hkey (hfree call c hc heq)
    simp [budgetKey, Function.update_of_ne hne]
  | coordinated coordinator =>
    exact ⟨h.store, h.calls.of_calls (.of_eq rfl) rfl (Nat.le_refl _) rfl,
      fun start hstart => (h.counted start hstart).of_eq rfl rfl,
      h.locks.of_calls rfl (fun _ _ _ _ => rfl) fun _ c hc => .inr ⟨c, hc, rfl, rfl, rfl⟩,
      h.levels.of_calls rfl rfl rfl rfl fun call c hc => .inr ⟨c, hc, rfl, rfl⟩,
      h.caps.of_calls rfl fun _ _ _ _ _ hc _ => hc⟩
  | drew =>
    exact ⟨h.store.mono (Nat.le_succ _), h.calls.of_calls (.of_eq rfl) rfl (Nat.le_succ _) rfl,
      fun start hstart => (h.counted start hstart).of_eq rfl rfl,
      h.locks.of_calls rfl (fun _ _ _ _ => rfl) fun _ c hc => .inr ⟨c, hc, rfl, rfl, rfl⟩,
      h.levels.of_calls rfl rfl rfl rfl fun call c hc => .inr ⟨c, hc, rfl, rfl⟩,
      h.caps.of_calls rfl fun _ _ _ _ _ hc _ => hc⟩
  | launched call parent hfree hparent =>
    refine h.renewed (forall_update (.inl rfl) fun _ _ _ => .inr) rfl rfl rfl rfl rfl rfl
      (h.store.mono (Nat.le_succ _))
      (h.calls.launched h.store call hparent) ?_
    intro start hstart
    exact (h.counted start hstart).restage rfl rfl (by simp [hfree])
  | claimed call parent request requestHash receipt db hfree hparent hclaim =>
    have hsessions := (claimed_cases hclaim).2.2.2.2.1
    exact h.renewed (forall_update (.inl rfl) fun _ _ _ => .inr) hsessions rfl rfl rfl rfl rfl
      (h.store.claimed hclaim)
      (h.calls.claimed h.store call hparent hclaim)
      fun start hstart => (h.counted start hstart).claimed hfree hclaim
  | waits call c hcall hstage =>
    refine h.restage hcall (by simp [hstage, Stage.isUnwritten]) rfl rfl rfl rfl rfl
      h.locks.waits ?_ ?_
    · exact h.levels.restage hcall rfl rfl rfl rfl rfl (by simp [Stage.depth?])
    · exact h.caps.restage rfl rfl (by simp)
  | locks call c key hcall hstage hfree =>
    refine h.restage hcall (by simp [hstage, Stage.isUnwritten]) rfl rfl rfl rfl rfl
      (h.locks.locked hcall hstage hfree) ?_ ?_
    · exact h.levels.restage hcall rfl rfl rfl rfl rfl (by simp [Stage.depth?])
    · exact h.caps.restage rfl rfl (by simp)
  | counts call c key launched arcId exempt hcall hstage hdepth hrecorded =>
    refine h.restage hcall (by simp [hstage, Stage.isUnwritten]) rfl rfl rfl rfl rfl ?_
      (h.levels.counts h.calls hcall rfl hdepth hrecorded) (h.caps.restage rfl rfl (by simp))
    exact h.locks.restage hcall rfl rfl (fun _ _ _ => rfl) rfl (by simp [hstage, Stage.key?])
      (by simp [hstage, Stage.lock?])
  | checks call c key depth launched arcId exempt hcall hstage hcap hsame hbroken =>
    have hle := h.startedFor_le hcall hstage hsame hbroken
    refine h.restage hcall (by simp [hstage, Stage.isUnwritten]) rfl rfl rfl rfl rfl ?_ ?_ ?_
    · exact h.locks.restage hcall rfl rfl (fun _ _ _ => rfl) rfl (by simp [hstage, Stage.key?])
        (by simp [hstage, Stage.lock?])
    · exact h.levels.restage hcall rfl rfl rfl rfl rfl (by simp [hstage, Stage.depth?])
    · refine ⟨h.caps.launches, ?_⟩
      intro other c' key' depth' arcId' hc' hchecked
      rcases update_eq_some.mp hc' with ⟨rfl, hnew⟩ | ⟨_, hkept⟩
      · cases hnew
        simp only [Stage.checked.injEq] at hchecked
        exact Nat.lt_of_le_of_lt hle (hcap hchecked.2.2.2)
      · exact h.caps.checked other c' key' depth' arcId' hkept hchecked
  | writes call c key depth arcId exempt hcall hstage => exact h.writes hcall hstage
  | records call c key depth hcall hstage => exact h.records hcall hstage
  | leaves call c stage hcall hlive hbroken hreceipt => exact h.leave hcall hlive hbroken hreceipt
  | settles call c request outcome hcall hrequest hover houtcome =>
    exact h.settled hcall hrequest hover houtcome
  | guards call c request hcall hrequest hover =>
    exact (h.settled hcall hrequest hover fun _ => .inl rfl).reconcile
  | loses call c hcall hover hlost =>
    refine h.renewed (fun _ _ hc => .inr (update_none_eq_some.mp hc).2) rfl rfl rfl rfl rfl rfl
      h.store ?_ ?_
    · exact h.calls.of_calls (.of_update rfl hcall (by simp)) rfl (Nat.le_refl _) rfl
    · intro start hstart
      refine (h.counted start hstart).restage rfl rfl ?_
      intro c' hc' hid
      have hrow := (h.store.present start hstart).1
      cases hcase : c.stage <;> simp_all [Stage.isOver, Stage.isWritten, Stage.isBroken]
  | repaired => exact h.reconcile
  | restarted hreceipt => exact h.restarted hreceipt

end

end Inv

/-! ## Main result -/

end Argmax.SessionControl.LaunchCaps
