import Argmax.Error
import Argmax.Lib.Table
import Argmax.Lib.Transition

/-!
# Launch receipts

`persistence/launch_receipts.rs`. A launch that a session asks for under a key leaves a
receipt before it spends anything. Whoever is told that it claimed the key owns the launch
and settles the receipt, and at boot the receipts of a process that is gone are settled for
it. The key of a failed launch can be claimed again, for another session.

A session is its number among the sessions whose ids were drawn. Times are left out, and
so is the depth that a repaired lineage records.
-/

namespace Argmax.Persistence.LaunchReceipts

open Argmax.Lib

/-! ## Rows -/

inductive ReceiptStatus where
  | pending
  | completed
  | failed
  | uncertain
  deriving DecidableEq

structure LaunchReceipt where
  callerSessionId : ℕ
  clientRequestId : String
  requestHash : String
  status : ReceiptStatus
  sessionId : ℕ
  workspaceId : Option String
  resultJson : Option String
  errorCode : Option String
  errorMessage : Option String
  deriving DecidableEq

/-- The primary key. -/
def LaunchReceipt.key (receipt : LaunchReceipt) : ℕ × String :=
  (receipt.callerSessionId, receipt.clientRequestId)

inductive Claim where
  | claimed (receipt : LaunchReceipt)
  | existing (receipt : LaunchReceipt)

/-- The columns of `sessions` that the receipts are about. -/
structure SessionRow where
  id : ℕ
  launchedBySessionId : Option ℕ
  launchKind : String
  deriving DecidableEq

structure Database where
  receipts : Table LaunchReceipt.key
  sessions : Table SessionRow.id
  deriving DecidableEq

namespace Database

variable (db : Database)

/-! ## Claims -/

def findReceipt (callerSessionId : ℕ) (clientRequestId : String) : Option LaunchReceipt :=
  db.receipts.find? (callerSessionId, clientRequestId)

/-- The receipt of a launch that starts. -/
def newReceipt (callerSessionId : ℕ) (clientRequestId requestHash : String)
    (newSessionId : ℕ) : LaunchReceipt where
  callerSessionId := callerSessionId
  clientRequestId := clientRequestId
  requestHash := requestHash
  status := .pending
  sessionId := newSessionId
  workspaceId := none
  resultJson := none
  errorCode := none
  errorMessage := none

/-- A failed receipt that is claimed again. -/
def reopened (newSessionId : ℕ) (receipt : LaunchReceipt) : LaunchReceipt :=
  { receipt with
    status := .pending
    sessionId := newSessionId
    workspaceId := none
    errorCode := none
    errorMessage := none }

/-- An `UPDATE` of the receipts that meet a condition. -/
def updateReceipts (selected : LaunchReceipt → Bool) (f : LaunchReceipt → LaunchReceipt)
    (hf : ∀ receipt, (f receipt).key = receipt.key) : Database :=
  { db with
    receipts := db.receipts.update (fun receipt => if selected receipt then f receipt else receipt)
      (by intro receipt; split <;> simp [hf]) }

/-- `claim_receipt`. The caller's session must exist. -/
def claimReceipt (callerSessionId : ℕ) (clientRequestId requestHash : String)
    (newSessionId : ℕ) : ArgmaxResult (Claim × Database) :=
  match db.findReceipt callerSessionId clientRequestId with
  | none =>
    let receipt := newReceipt callerSessionId clientRequestId requestHash newSessionId
    if (db.sessions.find? callerSessionId).isSome then
      .ok (.claimed receipt, { db with receipts := db.receipts.put receipt })
    else .error (.service "SQLITE" "FOREIGN KEY constraint failed")
  | some receipt =>
    if receipt.status = .failed ∧ receipt.requestHash = requestHash then
      .ok (.claimed (reopened newSessionId receipt),
        db.updateReceipts (fun other => other.key == receipt.key) (reopened newSessionId)
          fun _ => rfl)
    else .ok (.existing receipt, db)

/-! ## Settlements -/

/-- How an owner settles its launch. -/
inductive Outcome where
  | completed (resultJson : String)
  | failed (errorCode errorMessage : String)
  | uncertain

/-- The receipt that an outcome leaves. -/
def settled (outcome : Outcome) (receipt : LaunchReceipt) : LaunchReceipt :=
  match outcome with
  | .completed resultJson =>
    { receipt with
      status := .completed, resultJson := some resultJson, errorCode := none, errorMessage := none }
  | .failed errorCode errorMessage =>
    { receipt with
      status := .failed, resultJson := none, errorCode := some errorCode
      errorMessage := some errorMessage }
  | .uncertain =>
    { receipt with
      status := .uncertain, resultJson := none, errorCode := none, errorMessage := none }

theorem key_settled (outcome : Outcome) (receipt : LaunchReceipt) :
    (settled outcome receipt).key = receipt.key := by
  cases outcome <;> rfl

/-- `settle`, of `complete_receipt`, `fail_receipt` and `mark_receipt_uncertain`. -/
def settle (callerSessionId : ℕ) (clientRequestId : String) (outcome : Outcome) : Database :=
  db.updateReceipts
    (fun receipt => receipt.key == (callerSessionId, clientRequestId) && receipt.status == .pending)
    (settled outcome) (key_settled outcome)

def withWorkspace (workspaceId : String) (receipt : LaunchReceipt) : LaunchReceipt :=
  { receipt with workspaceId := some workspaceId }

theorem key_withWorkspace (workspaceId : String) (receipt : LaunchReceipt) :
    (withWorkspace workspaceId receipt).key = receipt.key := rfl

def recordWorkspace (callerSessionId : ℕ) (clientRequestId workspaceId : String) : Database :=
  db.updateReceipts
    (fun receipt => receipt.key == (callerSessionId, clientRequestId) && receipt.status == .pending)
    (withWorkspace workspaceId) (key_withWorkspace workspaceId)

/-! ## Boots -/

/-- The launcher that an uncertain receipt names for a session. -/
def uncertainLauncher (sessionId : ℕ) : Option ℕ :=
  (db.receipts.rows.find? fun receipt =>
    receipt.sessionId == sessionId && receipt.status == .uncertain).map (·.callerSessionId)

def countUnrecordedLaunches (callerSessionId : ℕ) : ℕ :=
  db.receipts.rows.countP fun receipt =>
    receipt.callerSessionId == callerSessionId && receipt.status == .uncertain &&
      db.sessions.rows.any fun session =>
        session.id == receipt.sessionId && session.launchedBySessionId.isNone

def reconcileUncertainLineage : Database :=
  { db with
    sessions := db.sessions.update
      (fun session =>
        if session.launchedBySessionId.isNone && (db.uncertainLauncher session.id).isSome then
          { session with
            launchedBySessionId := db.uncertainLauncher session.id, launchKind := "agent" }
        else session)
      (by intro session; split <;> rfl) }

/-- The receipt of a launch that was interrupted before its session was written. -/
def interrupted (receipt : LaunchReceipt) : LaunchReceipt :=
  { receipt with
    status := .failed
    errorCode := some "LAUNCH_INTERRUPTED"
    errorMessage :=
      some "Argmax stopped before the session was created, so nothing was started." }

def unsettled (receipt : LaunchReceipt) : LaunchReceipt := { receipt with status := .uncertain }

theorem key_interrupted (receipt : LaunchReceipt) : (interrupted receipt).key = receipt.key := rfl

theorem key_unsettled (receipt : LaunchReceipt) : (unsettled receipt).key = receipt.key := rfl

def recoverOrphanedReceipts : Database :=
  let db := db.updateReceipts
    (fun receipt => receipt.status == .pending && (db.sessions.find? receipt.sessionId).isNone)
    interrupted key_interrupted
  let db := db.updateReceipts (fun receipt => receipt.status == .pending) unsettled key_unsettled
  db.reconcileUncertainLineage

end Database

variable {receipt : LaunchReceipt} {s : State}

/-! ## What the updates do -/

section Updates

variable {db : Database} {selected : LaunchReceipt → Bool} {f : LaunchReceipt → LaunchReceipt}
  (hf : ∀ receipt, (f receipt).key = receipt.key)

theorem mem_updateReceipts_of_selected (h : receipt ∈ db.receipts)
    (hselected : selected receipt = true) :
    f receipt ∈ (db.updateReceipts selected f hf).receipts := by
  simp only [Database.updateReceipts, Table.mem_update]
  exact ⟨receipt, h, by simp [hselected]⟩

theorem mem_updateReceipts_of_not_selected (h : receipt ∈ db.receipts)
    (hselected : selected receipt = false) :
    receipt ∈ (db.updateReceipts selected f hf).receipts := by
  simp only [Database.updateReceipts, Table.mem_update]
  exact ⟨receipt, h, by simp [hselected]⟩

/-- An update that selects nothing changes nothing. -/
theorem updateReceipts_of_none (h : ∀ receipt ∈ db.receipts, selected receipt = false) :
    db.updateReceipts selected f hf = db := by
  have hmap : db.receipts.rows.map (fun receipt => if selected receipt then f receipt else receipt) =
      db.receipts.rows := by
    rw [List.map_congr_left (g := id) fun receipt hreceipt => by simp [h receipt hreceipt]]
    exact List.map_id _
  obtain ⟨⟨rows, hunique⟩, sessions⟩ := db
  simpa [Database.updateReceipts, Table.update] using hmap

end Updates

/-- What a claim comes to. -/
theorem claimReceipt_cases {db db' : Database} {callerSessionId newSessionId : ℕ}
    {clientRequestId requestHash : String} {claim : Claim}
    (h : db.claimReceipt callerSessionId clientRequestId requestHash newSessionId =
      .ok (claim, db')) :
    (db.findReceipt callerSessionId clientRequestId = none ∧
      ∃ receipt, receipt = Database.newReceipt callerSessionId clientRequestId requestHash
        newSessionId ∧ claim = .claimed receipt ∧
          db' = { db with receipts := db.receipts.put receipt }) ∨
    ∃ receipt, db.findReceipt callerSessionId clientRequestId = some receipt ∧
      ((receipt.status = .failed ∧ receipt.requestHash = requestHash ∧
          claim = .claimed (Database.reopened newSessionId receipt) ∧
          db' = db.updateReceipts (fun other => other.key == receipt.key)
            (Database.reopened newSessionId) fun _ => rfl) ∨
        claim = .existing receipt ∧ db' = db) := by
  rw [Database.claimReceipt] at h
  cases hfind : db.findReceipt callerSessionId clientRequestId with
  | none =>
    simp only [hfind] at h
    split at h
    · obtain ⟨rfl, rfl⟩ := Prod.mk.inj (Except.ok.inj h)
      exact .inl ⟨rfl, _, rfl, rfl, rfl⟩
    · simp at h
  | some receipt =>
    simp only [hfind] at h
    split at h
    · rename_i hfailed
      obtain ⟨rfl, rfl⟩ := Prod.mk.inj (Except.ok.inj h)
      exact .inr ⟨receipt, rfl, .inl ⟨hfailed.1, hfailed.2, rfl, rfl⟩⟩
    · obtain ⟨rfl, rfl⟩ := Prod.mk.inj (Except.ok.inj h)
      exact .inr ⟨receipt, rfl, .inr ⟨rfl, rfl⟩⟩

/-- A boot leaves a receipt that neither of its updates selects, and gives a pending one what
the first that selects it gives. -/
theorem mem_recoverOrphanedReceipts {db : Database} {after : LaunchReceipt} :
    after ∈ db.recoverOrphanedReceipts.receipts ↔
      ∃ receipt ∈ db.receipts, after =
        if receipt.status = .pending then
          if (db.sessions.find? receipt.sessionId).isSome then Database.unsettled receipt
          else Database.interrupted receipt
        else receipt := by
  simp only [Database.recoverOrphanedReceipts, Database.reconcileUncertainLineage,
    Database.updateReceipts, Table.mem_update, exists_exists_and_eq_and]
  refine exists_congr fun receipt => and_congr_right fun _ => ?_
  rw [eq_comm]
  by_cases hstatus : receipt.status = .pending
  · by_cases hsession : db.sessions.find? receipt.sessionId = none
    · simp [hstatus, hsession, Database.interrupted]
    · simp [Option.isSome_iff_ne_none, hsession]
  · simp [hstatus]

/-! ## Runs -/

/-- Who was told that it claimed a key, and for which session. -/
structure Owner where
  callerSessionId : ℕ
  clientRequestId : String
  sessionId : ℕ
  deriving DecidableEq

def Owner.key (owner : Owner) : ℕ × String := (owner.callerSessionId, owner.clientRequestId)

structure State where
  db : Database
  /-- How many session ids were drawn. -/
  drawn : ℕ
  /-- Whoever was told that it claimed a key. The program does not keep this. -/
  owners : List Owner

/-- Nothing is there. -/
def State.start : State := ⟨⟨.empty, .empty⟩, 0, []⟩

inductive Act where
  /-- A session is started without a receipt. -/
  | openSession
  /-- A launch writes its session. -/
  | writeSession (owner : Owner)
  /-- A session is removed, and its receipts with it. -/
  | removeSession (sessionId : ℕ)
  | claim (callerSessionId : ℕ) (clientRequestId requestHash : String)
  | settle (owner : Owner) (outcome : Database.Outcome)
  | recordWorkspace (owner : Owner) (workspaceId : String)
  | recover
  | reconcile

/-- The owner that a claim makes. -/
def claimant : Claim → List Owner
  | .claimed receipt => [⟨receipt.callerSessionId, receipt.clientRequestId, receipt.sessionId⟩]
  | .existing _ => []

def step (s : State) : Act → State
  | .openSession =>
    { s with
      db := { s.db with sessions := s.db.sessions.put ⟨s.drawn, none, "user"⟩ }
      drawn := s.drawn + 1 }
  | .writeSession owner =>
    { s with
      db := { s.db with sessions := s.db.sessions.insertOrIgnore ⟨owner.sessionId, none, "user"⟩ } }
  | .removeSession sessionId =>
    { s with
      db :=
        { receipts := s.db.receipts.delete fun receipt => receipt.callerSessionId == sessionId
          sessions := s.db.sessions.delete fun session => session.id == sessionId } }
  | .claim callerSessionId clientRequestId requestHash =>
    match s.db.claimReceipt callerSessionId clientRequestId requestHash s.drawn with
    | .ok (claim, db) => ⟨db, s.drawn + 1, claimant claim ++ s.owners⟩
    | .error _ => { s with drawn := s.drawn + 1 }
  | .settle owner outcome =>
    { s with db := s.db.settle owner.callerSessionId owner.clientRequestId outcome }
  | .recordWorkspace owner workspaceId =>
    { s with db := s.db.recordWorkspace owner.callerSessionId owner.clientRequestId workspaceId }
  | .recover => { s with db := s.db.recoverOrphanedReceipts }
  | .reconcile => { s with db := s.db.reconcileUncertainLineage }

/-! ## Duties -/

/-- The owner's claim is the one that the receipt of its key records. -/
def Current (db : Database) (owner : Owner) : Prop :=
  ∃ receipt ∈ db.receipts, receipt.key = owner.key ∧ receipt.sessionId = owner.sessionId

instance (db : Database) (owner : Owner) : Decidable (Current db owner) :=
  inferInstanceAs (Decidable (∃ receipt ∈ db.receipts.rows, receipt.key = owner.key ∧
    receipt.sessionId = owner.sessionId))

/-- The owner's launch is under way. -/
def Live (db : Database) (owner : Owner) : Prop :=
  ∃ receipt ∈ db.receipts, receipt.key = owner.key ∧ receipt.sessionId = owner.sessionId ∧
    receipt.status = .pending

/-- What is owed in a state, and by an act in it. -/
structure Sound (s : State) (act : Act) : Prop where
  /-- At most one live owner has a key. -/
  oneOwner : ∀ owner ∈ s.owners, ∀ other ∈ s.owners, owner.key = other.key →
    Live s.db owner → Live s.db other → owner = other
  /-- A completed or uncertain receipt stays as it is. -/
  final : ∀ receipt ∈ s.db.receipts, receipt.status = .completed ∨ receipt.status = .uncertain →
    act ≠ .removeSession receipt.callerSessionId → receipt ∈ (step s act).db.receipts
  /-- A key is taken over from a failed launch of the same request only. -/
  taken : ∀ callerSessionId clientRequestId requestHash receipt,
    act = .claim callerSessionId clientRequestId requestHash →
      s.db.findReceipt callerSessionId clientRequestId = some receipt →
        receipt.status ≠ .failed ∨ receipt.requestHash ≠ requestHash →
          (step s act).db = s.db ∧ (step s act).owners = s.owners
  /-- A settlement by an owner whose claim was reopened changes nothing. -/
  late : ∀ owner ∈ s.owners, ∀ outcome, act = .settle owner outcome → ¬ Current s.db owner →
    (step s act).db = s.db
  /-- A boot settles every pending receipt by whether its session exists. -/
  recovered : act = .recover → ∀ receipt ∈ s.db.receipts, receipt.status = .pending →
    (if (s.db.sessions.find? receipt.sessionId).isSome then Database.unsettled receipt
      else Database.interrupted receipt) ∈ (step s act).db.receipts

/-- An owner that settles late finds no pending receipt under its key. -/
def OnTime (s : State) (act : Act) : Prop :=
  ∀ owner ∈ s.owners, ∀ outcome, act = .settle owner outcome → ¬ Current s.db owner →
    ∀ receipt ∈ s.db.receipts, receipt.key = owner.key → receipt.status ≠ .pending

/-! ## Every run -/

/-- The sessions of the owners were drawn one after another. -/
structure Inv (s : State) : Prop where
  drawn : ∀ owner ∈ s.owners, owner.sessionId < s.drawn
  distinct : (s.owners.map (·.sessionId)).Nodup

theorem inv_start : Inv .start := ⟨by simp [State.start], List.nodup_nil⟩

theorem inv_step (h : Inv s) (act : Act) : Inv (step s act) := by
  cases act with
  | writeSession | removeSession | settle | recordWorkspace | recover | reconcile =>
    exact ⟨h.drawn, h.distinct⟩
  | openSession => exact ⟨fun owner howner => Nat.lt_succ_of_lt (h.drawn owner howner), h.distinct⟩
  | claim callerSessionId clientRequestId requestHash =>
    simp only [step]
    cases hclaim : s.db.claimReceipt callerSessionId clientRequestId requestHash s.drawn with
    | error error =>
      exact ⟨fun owner howner => Nat.lt_succ_of_lt (h.drawn owner howner), h.distinct⟩
    | ok told =>
      obtain ⟨claim, db⟩ := told
      -- Whoever is told that it claimed the key is the newest owner.
      have hnewest : ∀ receipt, claim = .claimed receipt → receipt.sessionId = s.drawn := by
        rintro receipt rfl
        obtain ⟨-, _, rfl, heq, -⟩ | ⟨_, -, ⟨-, -, heq, -⟩ | ⟨heq, -⟩⟩ := claimReceipt_cases hclaim
        · rw [Claim.claimed.inj heq]
          rfl
        · rw [Claim.claimed.inj heq]
          rfl
        · simp at heq
      cases claim with
      | existing receipt =>
        exact ⟨fun owner howner => Nat.lt_succ_of_lt (h.drawn owner howner), h.distinct⟩
      | claimed receipt =>
        have hreceipt := hnewest receipt rfl
        refine ⟨?_, ?_⟩
        · simp only [claimant, List.cons_append, List.forall_mem_cons]
          exact ⟨by simp [hreceipt], fun owner howner => Nat.lt_succ_of_lt (h.drawn owner howner)⟩
        · simp only [claimant, List.cons_append, List.map_cons, List.nodup_cons, hreceipt,
            List.mem_map, not_exists, not_and]
          exact ⟨fun owner howner heq => absurd heq (Nat.ne_of_lt (h.drawn owner howner)), h.distinct⟩

theorem oneOwner_of_inv (h : Inv s) {owner other : Owner} (howner : owner ∈ s.owners)
    (hother : other ∈ s.owners) (hkey : owner.key = other.key) (hlive : Live s.db owner)
    (hlive' : Live s.db other) : owner = other := by
  obtain ⟨receipt, hreceipt, hrkey, hsession, -⟩ := hlive
  obtain ⟨receipt', hreceipt', hrkey', hsession', -⟩ := hlive'
  obtain rfl := Table.eq_of_key hreceipt hreceipt' (hrkey.trans (hkey.trans hrkey'.symm))
  exact List.inj_on_of_nodup_map h.distinct howner hother (hsession.symm.trans hsession')

theorem step_final (h : receipt ∈ s.db.receipts)
    (hstatus : receipt.status = .completed ∨ receipt.status = .uncertain) {act : Act}
    (hact : act ≠ .removeSession receipt.callerSessionId) : receipt ∈ (step s act).db.receipts := by
  have hpending : receipt.status ≠ .pending := by rcases hstatus with h | h <;> simp [h]
  have hfailed : receipt.status ≠ .failed := by rcases hstatus with h | h <;> simp [h]
  cases act with
  | openSession | writeSession | reconcile => exact h
  | removeSession sessionId =>
    refine Table.mem_delete.mpr ⟨h, ?_⟩
    have hne : receipt.callerSessionId ≠ sessionId := fun heq => hact (heq ▸ rfl)
    simpa using hne
  | settle owner outcome =>
    exact mem_updateReceipts_of_not_selected (Database.key_settled outcome) h (by simp [hpending])
  | recordWorkspace owner workspaceId =>
    exact mem_updateReceipts_of_not_selected (Database.key_withWorkspace workspaceId) h
      (by simp [hpending])
  | recover => exact mem_recoverOrphanedReceipts.mpr ⟨receipt, h, by simp [hpending]⟩
  | claim callerSessionId clientRequestId requestHash =>
    simp only [step]
    cases hclaim : s.db.claimReceipt callerSessionId clientRequestId requestHash s.drawn with
    | error error => exact h
    | ok told =>
      obtain ⟨claim, db⟩ := told
      obtain ⟨hfree, new, rfl, -, rfl⟩ | ⟨other, hother, ⟨hother', -, -, rfl⟩ | ⟨-, rfl⟩⟩ :=
        claimReceipt_cases hclaim
      · exact Table.mem_put.mpr (.inr ⟨h, Table.find?_eq_none.mp hfree receipt h⟩)
      · refine mem_updateReceipts_of_not_selected (f := Database.reopened s.drawn) (fun _ => rfl) h ?_
        -- The failed receipt of the key is another one.
        have hne : receipt.key ≠ other.key := fun hkey =>
          hfailed (Table.eq_of_key h (Table.mem_of_find? hother) hkey ▸ hother')
        simpa using hne
      · exact h

theorem step_taken {callerSessionId : ℕ} {clientRequestId requestHash : String}
    (hfind : s.db.findReceipt callerSessionId clientRequestId = some receipt)
    (h : receipt.status ≠ .failed ∨ receipt.requestHash ≠ requestHash) :
    let s' := step s (.claim callerSessionId clientRequestId requestHash)
    s'.db = s.db ∧ s'.owners = s.owners := by
  have hnot : ¬ (receipt.status = .failed ∧ receipt.requestHash = requestHash) := by tauto
  simp [step, Database.claimReceipt, hfind, hnot, claimant]

/-- **A settlement takes effect whenever a receipt is pending under its key.** -/
theorem settle_eq_self {db : Database} {owner : Owner} {outcome : Database.Outcome} :
    db.settle owner.callerSessionId owner.clientRequestId outcome = db ↔
      ∀ receipt ∈ db.receipts, receipt.key = owner.key → receipt.status ≠ .pending := by
  constructor
  · intro heq receipt hreceipt hkey hpending
    have hsettled : Database.settled outcome receipt ∈
        (db.settle owner.callerSessionId owner.clientRequestId outcome).receipts := by
      simp only [Database.settle, Database.updateReceipts, Table.mem_update]
      exact ⟨receipt, hreceipt, by simp [hkey, hpending, Owner.key]⟩
    rw [heq] at hsettled
    have hsame := Table.eq_of_key hsettled hreceipt (Database.key_settled outcome receipt)
    have hstatus := congrArg LaunchReceipt.status hsame
    rw [hpending] at hstatus
    cases outcome <;> simp [Database.settled] at hstatus
  · intro h
    refine updateReceipts_of_none _ fun receipt hreceipt => ?_
    have hnot := h receipt hreceipt
    simp only [Owner.key] at hnot
    simpa using hnot

theorem sound_iff_onTime (h : Inv s) (act : Act) : Sound s act ↔ OnTime s act := by
  constructor
  · intro hsound owner howner outcome hact hcurrent
    have hdb := hsound.late owner howner outcome hact hcurrent
    subst hact
    exact settle_eq_self.mp hdb
  · intro honTime
    refine ⟨fun owner howner other hother => oneOwner_of_inv h howner hother,
      fun receipt hreceipt hstatus hact => step_final hreceipt hstatus hact, ?_, ?_, ?_⟩
    · rintro callerSessionId clientRequestId requestHash receipt rfl hfind
      exact step_taken hfind
    · intro owner howner outcome hact hcurrent
      have hnone := honTime owner howner outcome hact hcurrent
      subst hact
      have hsame := (@settle_eq_self _ _ outcome).mpr hnone
      simp [step, hsame]
    · rintro rfl receipt hreceipt hpending
      exact mem_recoverOrphanedReceipts.mpr ⟨receipt, hreceipt, by simp [hpending]⟩

/-- **Receipts are kept as they should be exactly when every settlement is on time.** -/
theorem receipts_sound_iff (acts : List Act) :
    Legal step Sound .start acts ↔ Legal step OnTime .start acts :=
  legal_congr (I := Inv) (fun _ act h => inv_step h act) (fun _ act h => sound_iff_onTime h act)
    inv_start acts

/-- The first launch fails, its key is claimed for a second one, and the first owner settles
again. -/
def settledLate : List Act :=
  [.openSession, .claim 0 "k" "hash", .settle ⟨0, "k", 1⟩ (.failed "LAUNCH_LIMIT_REACHED" "cap"),
    .claim 0 "k" "hash", .settle ⟨0, "k", 1⟩ (.completed "\x7b\x7d")]

/-- The second launch's receipt is settled for it. -/
theorem receipts_not_sound : ¬ Legal step Sound .start settledLate := by
  intro h
  have hlate := h.2.2.2.2.1.late ⟨0, "k", 1⟩ (by decide) _ rfl (by decide)
  exact absurd hlate (by decide)

end Argmax.Persistence.LaunchReceipts
