import Argmax.SessionControl.LaunchCaps

/-!
# The caps on launches hold

A session that was started for a caller is recorded under it, or it is named by an uncertain
receipt of the caller, or its call is not over. Calls of one caller hold one lock, so a check
that meets no broken call of the caller counts whatever was started for it.

A check misses what another check cannot see either: a session whose call broke and is not
settled, or never has a receipt to settle; and a session that another lock let in, when the
caller's Arc changes between two calls. A session that launches before its own launch is recorded
counts its depth from the top.
-/

namespace Argmax.SessionControl.LaunchCaps

open Argmax.Lib Argmax.Persistence.LaunchReceipts

/-! ## What holds -/

namespace Stage

def isWritten : Stage → Bool
  | .written _ _ => true
  | _ => false

end Stage

/-- An Arc is changed while no call of the session goes by its key. A caller's own launch is
recorded when it launches. Its lineage is the same at both reads of a check, and no call of it
that is broken has written its session and is not settled. A call that has written its session
has a receipt when it breaks off or the app ends, and the receipt of a broken one is settled. -/
def Ordered (s : State) : Act → Prop
  | .setArc id _ => ∀ call c, s.calls call = some c → c.parent = id → c.stage.key? = none
  | .proceed call => ∀ c, s.calls call = some c →
    match c.stage with
    | .locked _ => ∀ start ∈ s.starts, start.child = c.parent → ∀ row,
      s.db.sessions.find? c.parent = some row → row.launchedBySessionId ≠ none
    | .counted _ _ launched _ _ => launchedBy s c.parent ⊆ launched ∧
      ∀ other c', s.calls other = some c' → c'.parent = c.parent → c'.stage.isBroken = true →
        s.db.sessions.find? c'.sessionId = none
    | _ => True
  | .fail call _ _ | .drop call => ∀ c, s.calls call = some c → c.stage.isWritten = true →
    c.request ≠ none
  | .settle call settlement => ∀ c, s.calls call = some c → c.stage.isBroken = true →
    settlement = .lost → s.db.sessions.find? c.sessionId = none
  | .restart => ∀ call c, s.calls call = some c → c.stage.isWritten = true → c.request ≠ none
  | _ => True

/-! ## Receipts and lineages -/

/-- The session is recorded under the caller. -/
def Recorded (db : Database) (parent child : ℕ) : Prop :=
  ∃ row, db.sessions.find? child = some row ∧ row.launchedBySessionId = some parent ∧
    row.launchKind = launchKindAgent

/-- The session is written, and nobody is recorded as its launcher. -/
def Unlaunched (db : Database) (child : ℕ) : Prop :=
  ∃ row, db.sessions.find? child = some row ∧ row.launchedBySessionId = none

/-- An uncertain receipt of the caller names the session. -/
def Uncertain (db : Database) (parent child : ℕ) : Prop :=
  ∃ receipt ∈ db.receipts, receipt.callerSessionId = parent ∧ receipt.sessionId = child ∧
    receipt.status = .uncertain

/-- The receipt of the caller's request names the session and is pending. -/
def Pending (db : Database) (parent : ℕ) (request : String) (child : ℕ) : Prop :=
  ∃ receipt ∈ db.receipts, receipt.key = (parent, request) ∧ receipt.sessionId = child ∧
    receipt.status = .pending

/-- No two receipts name one session. -/
def Distinct (db : Database) : Prop :=
  ∀ receipt ∈ db.receipts, ∀ other ∈ db.receipts, receipt.sessionId = other.sessionId →
    receipt = other

section Receipts

variable {db : Database} {parent child : ℕ}

theorem uncertainLauncher_eq_some (hdistinct : Distinct db) :
    db.uncertainLauncher child = some parent ↔ Uncertain db parent child := by
  simp only [Database.uncertainLauncher, Option.map_eq_some_iff]
  constructor
  · rintro ⟨receipt, hfind, rfl⟩
    have hsome := List.find?_some hfind
    simp only [Bool.and_eq_true, beq_iff_eq] at hsome
    exact ⟨receipt, List.mem_of_find?_eq_some hfind, rfl, hsome.1, hsome.2⟩
  · rintro ⟨receipt, hreceipt, rfl, rfl, hstatus⟩
    cases hfind : db.receipts.rows.find? fun other =>
        other.sessionId == receipt.sessionId && other.status == .uncertain with
    | none => simpa [hstatus] using List.find?_eq_none.mp hfind receipt hreceipt
    | some other =>
      have hsome := List.find?_some hfind
      simp only [Bool.and_eq_true, beq_iff_eq] at hsome
      exact ⟨other, rfl, congrArg _
        (hdistinct other (List.mem_of_find?_eq_some hfind) receipt hreceipt hsome.1)⟩

theorem uncertainLauncher_eq_none :
    db.uncertainLauncher child = none ↔ ∀ parent, ¬ Uncertain db parent child := by
  simp only [Database.uncertainLauncher, Option.map_eq_none_iff, List.find?_eq_none, Uncertain,
    not_exists, not_and]
  constructor
  · rintro h parent receipt hreceipt - rfl hstatus
    exact h receipt hreceipt (by simp [hstatus])
  · intro h receipt hreceipt hsome
    simp only [Bool.and_eq_true, beq_iff_eq] at hsome
    exact h _ receipt hreceipt rfl hsome.1 hsome.2

/-- What a repair leaves of a row. -/
theorem find?_reconcile (db : Database) (id : ℕ) :
    db.reconcileUncertainLineage.sessions.find? id =
      (db.sessions.find? id).map fun row =>
        if row.launchedBySessionId.isNone && (db.uncertainLauncher row.id).isSome then
          { row with
            launchedBySessionId := db.uncertainLauncher row.id, launchKind := launchKindAgent }
        else row := by
  rw [Database.reconcileUncertainLineage, Table.find?_update]
  rfl

theorem Recorded.reconcile (h : Recorded db parent child) :
    Recorded db.reconcileUncertainLineage parent child := by
  obtain ⟨row, hrow, hlauncher, hkind⟩ := h
  exact ⟨row, by simp [find?_reconcile, hrow, hlauncher], hlauncher, hkind⟩

/-- A repair records what an uncertain receipt names. -/
theorem Uncertain.recorded (hdistinct : Distinct db) (h : Uncertain db parent child)
    (hrow : Unlaunched db child) : Recorded db.reconcileUncertainLineage parent child := by
  obtain ⟨row, hrow, hnone⟩ := hrow
  have hlauncher := (uncertainLauncher_eq_some hdistinct).mpr h
  have hid : row.id = child := Table.key_of_find? hrow
  exact ⟨_, by simp [find?_reconcile, hrow, hnone, hid, hlauncher]; rfl, rfl, rfl⟩

/-- A row without a launcher stays so when no uncertain receipt names it. -/
theorem Unlaunched.reconcile (h : Unlaunched db child)
    (hnone : ∀ parent, ¬ Uncertain db parent child) :
    Unlaunched db.reconcileUncertainLineage child := by
  obtain ⟨row, hrow, hlauncher⟩ := h
  have hid : row.id = child := Table.key_of_find? hrow
  exact ⟨row, by simp [find?_reconcile, hrow, hid, uncertainLauncher_eq_none.mpr hnone], hlauncher⟩

theorem find?_reconcile_isNone (id : ℕ) :
    db.reconcileUncertainLineage.sessions.find? id = none ↔ db.sessions.find? id = none := by
  simp [find?_reconcile]

end Receipts

/-- The receipts are the same but for how far their launches have come. -/
structure Settles (db db' : Database) : Prop where
  sessions : db'.sessions = db.sessions
  before : ∀ receipt' ∈ db'.receipts, ∃ receipt ∈ db.receipts, receipt.key = receipt'.key ∧
    receipt.sessionId = receipt'.sessionId
  uncertain : ∀ receipt ∈ db.receipts, receipt.status = .uncertain → receipt ∈ db'.receipts

namespace Settles

variable {db db' : Database}

theorem trans {db'' : Database} (h : Settles db db') (h' : Settles db' db'') : Settles db db'' where
  sessions := h'.sessions.trans h.sessions
  before := fun receipt'' hreceipt'' => by
    obtain ⟨receipt', hreceipt', hkey', hsession'⟩ := h'.before receipt'' hreceipt''
    obtain ⟨receipt, hreceipt, hkey, hsession⟩ := h.before receipt' hreceipt'
    exact ⟨receipt, hreceipt, hkey.trans hkey', hsession.trans hsession'⟩
  uncertain := fun receipt hreceipt hstatus =>
    h'.uncertain receipt (h.uncertain receipt hreceipt hstatus) hstatus

theorem of_update {selected : LaunchReceipt → Bool} {f : LaunchReceipt → LaunchReceipt}
    (hf : ∀ receipt, (f receipt).key = receipt.key)
    (hsession : ∀ receipt, (f receipt).sessionId = receipt.sessionId)
    (hkept : ∀ receipt, receipt.status = .uncertain → selected receipt = false) :
    Settles db (db.updateReceipts selected f hf) where
  sessions := rfl
  before := fun receipt' hreceipt' => by
    simp only [Database.updateReceipts, Table.mem_update] at hreceipt'
    obtain ⟨receipt, hreceipt, rfl⟩ := hreceipt'
    by_cases hselected : selected receipt = true
    · exact ⟨receipt, hreceipt, by simp [hselected, hf], by simp [hselected, hsession]⟩
    · exact ⟨receipt, hreceipt, by simp [hselected], by simp [hselected]⟩
  uncertain := fun receipt hreceipt hstatus =>
    mem_updateReceipts_of_not_selected hf hreceipt (hkept receipt hstatus)

theorem settle (parent : ℕ) (request : String) (outcome : Database.Outcome) :
    Settles db (db.settle parent request outcome) :=
  of_update (Database.key_settled outcome) (fun receipt => by cases outcome <;> rfl)
    fun receipt hstatus => by simp [hstatus]

theorem orphans (db : Database) : Settles db (orphansSettled db) := by
  refine (of_update (f := Database.interrupted) (fun _ => rfl) (fun _ => rfl) ?_).trans
    (of_update (f := Database.unsettled) (fun _ => rfl) (fun _ => rfl) ?_)
  · exact fun receipt hstatus => by simp [hstatus]
  · exact fun receipt hstatus => by simp [hstatus]

theorem distinct (h : Settles db db') (hdistinct : Distinct db) : Distinct db' := by
  intro receipt' hreceipt' other' hother' heq
  obtain ⟨receipt, hreceipt, hkey, hsession⟩ := h.before receipt' hreceipt'
  obtain ⟨other, hother, hkey', hsession'⟩ := h.before other' hother'
  have hsame := hdistinct receipt hreceipt other hother (hsession.trans (heq.trans hsession'.symm))
  exact Table.eq_of_key hreceipt' hother' (hkey.symm.trans (hsame ▸ hkey'))

variable {parent child : ℕ}

theorem uncertain' (h : Settles db db') (huncertain : Uncertain db parent child) :
    Uncertain db' parent child := by
  obtain ⟨receipt, hreceipt, hparent, hchild, hstatus⟩ := huncertain
  exact ⟨receipt, h.uncertain receipt hreceipt hstatus, hparent, hchild, hstatus⟩

theorem recorded (h : Settles db db') : Recorded db' parent child ↔ Recorded db parent child := by
  simp [Recorded, h.sessions]

theorem unlaunched (h : Settles db db') : Unlaunched db' child ↔ Unlaunched db child := by
  simp [Unlaunched, h.sessions]

end Settles

section Pending

variable {db : Database} {parent child : ℕ} {request : String}

/-- The settlement of one receipt leaves the others pending. -/
theorem Pending.settle (h : Pending db parent request child) {parent' : ℕ} {request' : String}
    (hne : (parent, request) ≠ (parent', request')) (outcome : Database.Outcome) :
    Pending (db.settle parent' request' outcome) parent request child := by
  obtain ⟨receipt, hreceipt, hkey, hchild, hstatus⟩ := h
  exact ⟨receipt, mem_updateReceipts_of_not_selected (Database.key_settled outcome) hreceipt
    (by simp_all), hkey, hchild, hstatus⟩

/-- A pending receipt that is marked uncertain names its session. -/
theorem Pending.marked (h : Pending db parent request child) :
    Uncertain (db.settle parent request .uncertain) parent child := by
  obtain ⟨receipt, hreceipt, hkey, hchild, hstatus⟩ := h
  have hmem : Database.settled .uncertain receipt ∈
      (db.settle parent request .uncertain).receipts :=
    mem_updateReceipts_of_selected (f := Database.settled .uncertain)
      (Database.key_settled .uncertain) hreceipt (by simp [hkey, hstatus])
  exact ⟨_, hmem, congrArg Prod.fst hkey, hchild, rfl⟩

/-- At boot a pending receipt becomes uncertain when its session is written. -/
theorem Pending.orphaned (h : Pending db parent request child)
    (hrow : (db.sessions.find? child).isSome) : Uncertain (orphansSettled db) parent child := by
  obtain ⟨receipt, hreceipt, hkey, hchild, hstatus⟩ := h
  have hkept : receipt ∈ (db.updateReceipts
      (fun receipt => receipt.status == .pending && (db.sessions.find? receipt.sessionId).isNone)
      Database.interrupted fun _ => rfl).receipts :=
    mem_updateReceipts_of_not_selected (f := Database.interrupted) (fun _ => rfl) hreceipt
      (by simp [hchild, hrow])
  exact ⟨Database.unsettled receipt,
    mem_updateReceipts_of_selected (f := Database.unsettled) (fun _ => rfl) hkept
      (by simp [hstatus]),
    congrArg Prod.fst hkey, hchild, rfl⟩

end Pending

/-! ## Claims -/

section Claims

variable {db db' : Database} {parent fresh : ℕ} {request requestHash : String}
  {receipt : LaunchReceipt}
  (h : db.claimReceipt parent request requestHash fresh = .ok (.claimed receipt, db'))

include h

/-- What a claim leaves: the claimed receipt, and the others, which were there. -/
theorem claimed_cases :
    receipt ∈ db'.receipts ∧ receipt.key = (parent, request) ∧ receipt.sessionId = fresh ∧
      receipt.status = .pending ∧ db'.sessions = db.sessions ∧
      (∀ other ∈ db'.receipts, other = receipt ∨ other ∈ db.receipts) ∧
      ∀ other ∈ db.receipts, other.status ≠ .failed → other ∈ db'.receipts := by
  obtain ⟨hfree, new, rfl, hclaim, rfl⟩ | ⟨old, hfind, ⟨hfailed, -, hclaim, rfl⟩ | ⟨hclaim, -⟩⟩ :=
    claimReceipt_cases h
  · cases Claim.claimed.inj hclaim
    refine ⟨Table.mem_put.mpr (.inl rfl), rfl, rfl, rfl, rfl, fun other hother => ?_,
      fun other hother _ => ?_⟩
    · exact (Table.mem_put.mp hother).imp_right (·.1)
    · exact Table.mem_put.mpr (.inr ⟨hother, Table.find?_eq_none.mp hfree other hother⟩)
  · cases Claim.claimed.inj hclaim
    have hold := Table.mem_of_find? hfind
    have hkey : old.key = (parent, request) := Table.key_of_find? hfind
    refine ⟨mem_updateReceipts_of_selected (f := Database.reopened fresh) (fun _ => rfl) hold
      (by simp), hkey, rfl, rfl, rfl, fun other hother => ?_, fun other hother hstatus => ?_⟩
    · simp only [Database.updateReceipts, Table.mem_update] at hother
      obtain ⟨before, hbefore, rfl⟩ := hother
      by_cases hsame : before.key = old.key
      · left
        obtain rfl := Table.eq_of_key hbefore hold hsame
        simp
      · right
        simpa [hsame] using hbefore
    · refine mem_updateReceipts_of_not_selected (f := Database.reopened fresh) (fun _ => rfl)
        hother ?_
      have hne : other.key ≠ old.key := fun hsame =>
        hstatus (Table.eq_of_key hother hold hsame ▸ hfailed)
      simpa using hne
  · simp at hclaim

end Claims

/-! ## Effects -/

namespace Stage

/-- The call has yet to write its session. -/
def isUnwritten : Stage → Bool
  | .entered | .waiting _ | .locked _ | .counted _ _ _ _ _ | .checked _ _ _ _ => true
  | .written _ _ | .recorded | .failed _ _ | .dropped => false

end Stage

/-- What an ordered step can do. -/
inductive Effect (s : State) : State → Prop where
  | idle : Effect s s
  | opened (arcId : Option ℕ) : Effect s (step s (.openSession arcId))
  | arcSet (id : ℕ) (arcId : Option ℕ)
      (hfree : ∀ call c, s.calls call = some c → c.parent = id → c.stage.key? = none) :
      Effect s { s with arcId := Function.update s.arcId id arcId }
  | coordinated (coordinator : ℕ → Option ℕ) : Effect s { s with coordinator := coordinator }
  | drew : Effect s { s with drawn := s.drawn + 1 }
  | launched (call parent : ℕ) (hfree : s.calls call = none)
      (hparent : (s.db.sessions.find? parent).isSome) :
      Effect s { setCall s call (some ⟨parent, none, s.drawn, .entered⟩) with drawn := s.drawn + 1 }
  | claimed (call parent : ℕ) (request requestHash : String) (receipt : LaunchReceipt)
      (db : Database) (hfree : s.calls call = none) (hparent : (s.db.sessions.find? parent).isSome)
      (hclaim : s.db.claimReceipt parent request requestHash s.drawn = .ok (.claimed receipt, db)) :
      Effect s
        { setCall s call (some ⟨parent, some request, receipt.sessionId, .entered⟩) with
          db := db
          drawn := s.drawn + 1 }
  | waits (call : ℕ) (c : Call) (hcall : s.calls call = some c) (hstage : c.stage = .entered) :
      Effect s (setCall s call (some { c with stage := .waiting (budgetKey s c.parent) }))
  | locks (call : ℕ) (c : Call) (key : BudgetKey) (hcall : s.calls call = some c)
      (hstage : c.stage = .waiting key) (hfree : s.locks key = none) :
      Effect s
        { setCall s call (some { c with stage := .locked key }) with
          locks := Function.update s.locks key (some call) }
  | counts (call : ℕ) (c : Call) (key : BudgetKey) (launched : List ℕ) (arcId : Option ℕ)
      (exempt : Bool) (hcall : s.calls call = some c) (hstage : c.stage = .locked key)
      (hdepth : s.launchDepth c.parent + 1 ≤ maxLaunchDepth)
      (hrecorded : ∀ start ∈ s.starts, start.child = c.parent → ∀ row,
        s.db.sessions.find? c.parent = some row → row.launchedBySessionId ≠ none) :
      Effect s (setCall s call (some
        { c with stage := .counted key (s.launchDepth c.parent + 1) launched arcId exempt }))
  | checks (call : ℕ) (c : Call) (key : BudgetKey) (depth : ℕ) (launched : List ℕ)
      (arcId : Option ℕ) (exempt : Bool) (hcall : s.calls call = some c)
      (hstage : c.stage = .counted key depth launched arcId exempt)
      (hcap : exempt = false →
        launched.length + s.db.countUnrecordedLaunches c.parent < maxLaunchesPerSession)
      (hsame : launchedBy s c.parent ⊆ launched)
      (hbroken : ∀ other c', s.calls other = some c' → c'.parent = c.parent →
        c'.stage.isBroken = true → s.db.sessions.find? c'.sessionId = none) :
      Effect s (setCall s call (some { c with stage := .checked key depth arcId exempt }))
  | writes (call : ℕ) (c : Call) (key : BudgetKey) (depth : ℕ) (arcId : Option ℕ) (exempt : Bool)
      (hcall : s.calls call = some c) (hstage : c.stage = .checked key depth arcId exempt) :
      Effect s (setCall (writeSession s c arcId exempt) call
        (some { c with stage := .written key depth }))
  | records (call : ℕ) (c : Call) (key : BudgetKey) (depth : ℕ) (hcall : s.calls call = some c)
      (hstage : c.stage = .written key depth) :
      Effect s (leave (recordSessionLaunch s c.sessionId c.parent depth) call c .recorded)
  | leaves (call : ℕ) (c : Call) (stage : Stage) (hcall : s.calls call = some c)
      (hlive : c.stage.isBroken = false) (hbroken : stage.isBroken = true)
      (hreceipt : c.stage.isWritten = true → c.request ≠ none) :
      Effect s (leave s call c stage)
  | settles (call : ℕ) (c : Call) (request : String) (outcome : Database.Outcome)
      (hcall : s.calls call = some c) (hrequest : c.request = some request)
      (hover : c.stage.isOver = true)
      (houtcome : c.stage.isBroken = true → outcome = .uncertain ∨
        s.db.sessions.find? c.sessionId = none) :
      Effect s (setCall { s with db := s.db.settle c.parent request outcome } call none)
  | guards (call : ℕ) (c : Call) (request : String) (hcall : s.calls call = some c)
      (hrequest : c.request = some request) (hover : c.stage.isOver = true) :
      Effect s (setCall (reconcile (markUncertain s c.parent request)) call none)
  | loses (call : ℕ) (c : Call) (hcall : s.calls call = some c) (hover : c.stage.isOver = true)
      (hlost : c.stage.isBroken = true → s.db.sessions.find? c.sessionId = none) :
      Effect s (setCall s call none)
  | repaired : Effect s (reconcile s)
  | restarted
      (hreceipt : ∀ call c, s.calls call = some c → c.stage.isWritten = true → c.request ≠ none) :
      Effect s (step s .restart)

theorem effect_proceed {s : State} {call : ℕ} {c : Call} (hcall : s.calls call = some c)
    (hordered : Ordered s (.proceed call)) : Effect s (proceed s call c c.stage) := by
  have hordered := hordered c hcall
  cases hstage : c.stage with
  | entered => exact .waits call c hcall hstage
  | waiting key =>
    by_cases hfree : (s.locks key).isSome
    · simpa [proceed, hfree] using .idle
    · simpa [proceed, hfree] using .locks call c key hcall hstage (by simpa using hfree)
  | locked key =>
    simp only [hstage] at hordered
    by_cases hdepth : maxLaunchDepth < s.launchDepth c.parent + 1
    · simp only [proceed, hdepth]
      exact .leaves call c _ hcall (by rw [hstage]; rfl) rfl (by simp [hstage, Stage.isWritten])
    · simp only [proceed, hdepth]
      exact .counts call c key _ _ _ hcall hstage (by omega) hordered
  | counted key depth launched arcId exempt =>
    simp only [hstage] at hordered
    simp only [proceed]
    split
    · exact .leaves call c _ hcall (by rw [hstage]; rfl) rfl (by simp [hstage, Stage.isWritten])
    · rename_i hcap
      refine .checks call c key depth launched arcId exempt hcall hstage (fun hexempt => ?_)
        hordered.1 hordered.2
      simpa [hexempt] using hcap
  | checked key depth arcId exempt => exact .writes call c key depth arcId exempt hcall hstage
  | written key depth => exact .records call c key depth hcall hstage
  | recorded | failed | dropped => exact .idle

theorem effect_settle {s : State} {call : ℕ} {c : Call} {request : String}
    (hcall : s.calls call = some c) (hrequest : c.request = some request)
    (hover : c.stage.isOver = true) {settlement : Settlement}
    (hordered : Ordered s (.settle call settlement)) :
    Effect s (setCall (settleReceipt s c request settlement) call none) := by
  cases settlement with
  | settled resultJson =>
    simp only [settleReceipt]
    split
    · rename_i hstage
      exact .settles call c request _ hcall hrequest hover (by simp [hstage, Stage.isBroken])
    · split
      · exact .guards call c request hcall hrequest hover
      · rename_i hrow
        exact .settles call c request _ hcall hrequest hover fun _ => .inr (by simpa using hrow)
    · exact .guards call c request hcall hrequest hover
  | guarded => exact .guards call c request hcall hrequest hover
  | marked => exact .settles call c request _ hcall hrequest hover fun _ => .inl rfl
  | lost => exact .loses call c hcall hover fun hbroken => hordered c hcall hbroken rfl

/-- **What an ordered step can do.** -/
theorem effect_step {s : State} {a : Act} (hordered : Ordered s a) : Effect s (step s a) := by
  cases a with
  | openSession arcId => exact .opened arcId
  | setArc id arcId => exact .arcSet id arcId hordered
  | setCoordinator arcId id => exact .coordinated _
  | launch call parent request requestHash =>
    simp only [step]
    split
    · rename_i hparent
      simp only [Bool.and_eq_true, Option.isNone_iff_eq_none] at hparent
      cases request with
      | none => exact .launched call parent hparent.1 hparent.2
      | some request =>
        simp only [launch]
        split
        · exact .claimed call parent request requestHash _ _ hparent.1 hparent.2 ‹_›
        · exact .drew
        · exact .drew
    · exact .idle
  | proceed call =>
    simp only [step]
    split
    · exact effect_proceed ‹_› hordered
    · exact .idle
  | fail call code message =>
    simp only [step]
    split
    · split
      · exact .idle
      · rename_i hlive
        exact .leaves call _ _ ‹_› (by simpa only [Bool.not_eq_true] using hlive) rfl (hordered _ ‹_›)
    · exact .idle
  | drop call =>
    simp only [step]
    split
    · split
      · exact .idle
      · rename_i hlive
        exact .leaves call _ _ ‹_› (by simpa only [Bool.not_eq_true] using hlive) rfl (hordered _ ‹_›)
    · exact .idle
  | settle call settlement =>
    simp only [step]
    split
    · split
      · split
        · exact effect_settle ‹_› ‹_› ‹_› hordered
        · exact .idle
      · exact .idle
    · exact .idle
  | reconcile => exact .repaired
  | restart => exact .restarted hordered

end Argmax.SessionControl.LaunchCaps
