import Argmax.Remote.Operations

/-!
# Remote operations execute at most once

Every step of the host has one of five effects on what the guarantees read: an
operation is admitted, a call moves on quietly, a call is answered, an outcome is
saved, or the process restarts. The invariant is preserved by each effect, and
so is every row that is finished or was left behind by an earlier process.
-/

namespace Argmax.Remote

open Argmax.Lib

/-! ## The effects of a step -/

/-- The operation a call is executing: its action runs, or its outcome is about to
be saved. -/
def Phase.executing : Phase → Option (OperationId × String)
  | .running identity digest | .saving identity digest _ => some (identity, digest)
  | .polling .. | .done => none

/-- The call `task` is executing `identity`. -/
def Executes (tasks : List Phase) (task : ℕ) (identity : OperationId) (digest : String) : Prop :=
  ∃ phase, tasks[task]? = some phase ∧ phase.executing = some (identity, digest)

/-- No call executes that did not execute before. -/
def Calmer (tasks tasks' : List Phase) : Prop :=
  ∀ task identity digest, Executes tasks' task identity digest → Executes tasks task identity digest

theorem Calmer.refl (tasks : List Phase) : Calmer tasks tasks := fun _ _ _ h => h

variable {tasks : List Phase} {task : ℕ} {identity : OperationId} {digest : String} {codec : Codec}
  {s : Host} {op : Operation}

/-- A call that waits executes nothing, wherever it is put. -/
theorem calmer_set {phase : Phase} (h : phase.executing = none) :
    Calmer tasks (tasks.set task phase) := by
  rintro i identity digest ⟨found, hfound, hexec⟩
  rw [List.getElem?_set] at hfound
  by_cases hi : task = i
  · by_cases hlt : task < tasks.length
    · simp only [hi, if_true] at hfound
      rw [if_pos (hi ▸ hlt)] at hfound
      cases hfound
      rw [h] at hexec
      cases hexec
    · simp only [hi, if_true] at hfound
      rw [if_neg (hi ▸ hlt)] at hfound
      cases hfound
  · rw [if_neg hi] at hfound
    exact ⟨found, hfound, hexec⟩

/-- A call whose action returned keeps executing its operation. -/
theorem calmer_set_saving (h : tasks[task]? = some (.running identity digest)) (result : Json) :
    Calmer tasks (tasks.set task (.saving identity digest result)) := by
  rintro i identity' digest' ⟨found, hfound, hexec⟩
  rw [List.getElem?_set] at hfound
  by_cases hi : task = i
  · subst hi
    have hlt : task < tasks.length := (List.getElem?_eq_some_iff.mp h).1
    simp only [hlt] at hfound
    cases hfound
    exact ⟨_, h, hexec⟩
  · rw [if_neg hi] at hfound
    exact ⟨found, hfound, hexec⟩

/-- A new call that waits executes nothing. -/
theorem calmer_append {phase : Phase} (h : phase.executing = none) :
    Calmer tasks (tasks ++ [phase]) := by
  rintro i identity digest ⟨found, hfound, hexec⟩
  rcases Nat.lt_or_ge i tasks.length with hi | hi
  · rw [List.getElem?_append_left hi] at hfound
    exact ⟨found, hfound, hexec⟩
  · rw [List.getElem?_append_right hi, List.getElem?_singleton] at hfound
    split at hfound
    · cases hfound
      rw [h] at hexec
      cases hexec
    · cases hfound

/-- The journal stores the value a reply carries: printed by the call that executed,
or read back by a retry. -/
def Stores (codec : Codec) (journal : Journal) (identity : OperationId) (executed : Bool)
    (v : Json) : Prop :=
  ∃ op ∈ journal, op.identity = identity ∧ ∃ text, op.outcomeJson = some text ∧
    if executed then text = codec.print v else codec.parse text = .ok v

/-- What a step can do. -/
inductive Effect (codec : Codec) (s : Host) : Host → Prop
  | admitted (identity : OperationId) (digest : String)
      (free : s.journal.find? identity = none) :
      Effect codec s
        { s with
          journal := s.journal.push ⟨identity, digest, s.runId, none⟩ free
          tasks := s.tasks ++ [.running identity digest]
          log := s.log ++ [.started identity digest] }
  | quiet (tasks : List Phase) (calmer : Calmer s.tasks tasks) :
      Effect codec s { s with tasks := tasks }
  | answered (tasks : List Phase) (calmer : Calmer s.tasks tasks) (identity : OperationId)
      (digest : String) (executed : Bool) (reply : ArgmaxResult Json)
      (stored : ∀ v, reply = .ok v → Stores codec s.journal identity executed v) :
      Effect codec s
        { s with tasks := tasks, log := s.log ++ [.replied identity digest executed reply] }
  | saved (task : ℕ) (identity : OperationId) (digest : String) (result : Json)
      (executes : s.tasks[task]? = some (.saving identity digest result)) :
      Effect codec s
        { s with
          journal := saveOutcome s.journal identity (codec.print result)
          tasks := s.tasks.set task .done
          log := s.log ++ [.replied identity digest true (.ok result)] }
  | restarted (runId : String) (fresh : ∀ op ∈ s.journal.rows, op.runId ≠ runId) :
      Effect codec s { s with runId := runId, tasks := [] }

/-- A refusal is an answer. -/
theorem refusal_effect (codec : Codec) (s : Host) (identity : OperationId) (digest : String)
    (error : ArgmaxError) : Effect codec s (s.answer identity digest (.error error)) :=
  .answered s.tasks (.refl _) identity digest false (.error error) (by simp)

theorem call_effect (codec : Codec) (s : Host) (identity : OperationId) (channel : String)
    (input : Json) : Effect codec s (call codec s identity channel input) := by
  cases hfind : s.journal.find? identity with
  | none =>
    simp only [call, admit_of_free hfind]
    exact .admitted identity _ hfind
  | some stored =>
    obtain ⟨hmem, rfl⟩ := Table.find?_eq_some.mp hfind
    simp only [call, admit_of_taken hmem]
    by_cases hdigest : stored.requestDigest = requestDigest codec channel input
    · rw [if_neg (by simpa using hdigest)]
      cases hout : stored.outcomeJson with
      | some text =>
        cases hparse : decodeOutcome codec text with
        | error error =>
          simp only [hparse]
          exact refusal_effect codec s _ _ error
        | ok v =>
          simp only [hparse]
          refine .answered s.tasks (.refl _) _ _ false _ ?_
          intro v' hv'
          cases hv'
          exact ⟨stored, hmem, rfl, text, hout, by simpa using decodeOutcome_eq_ok.mp hparse⟩
      | none =>
        by_cases hrun : stored.runId = s.runId
        · simp only [hrun, ne_eq]
          exact .quiet _ (calmer_append rfl)
        · simp only [ne_eq, hrun]
          exact refusal_effect codec s _ _ _
    · rw [if_pos hdigest]
      exact refusal_effect codec s _ _ _

theorem poll_effect (codec : Codec) (s : Host) (task : ℕ) (identity : OperationId)
    (digest : String) (left : ℕ) :
    Effect codec s (poll codec s task identity digest left) := by
  unfold poll
  cases hsaved : (s.journal.find? identity).bind (·.outcomeJson) with
  | some text =>
    obtain ⟨stored, hfind, hout⟩ := Option.bind_eq_some_iff.mp hsaved
    refine .answered _ (calmer_set rfl) identity digest false _ ?_
    intro v hv
    exact ⟨stored, Table.mem_of_find? hfind, Table.key_of_find? hfind, text, hout,
      by simpa using decodeOutcome_eq_ok.mp hv⟩
  | none =>
    by_cases hleft : left ≤ 1
    · simp only [hleft]
      exact .answered _ (calmer_set rfl) identity digest false _ (by simp)
    · simp only [hleft]
      exact .quiet _ (calmer_set rfl)

/-- **The step lemma.** A permitted step has one of the five effects. -/
theorem step_effect (codec : Codec) (s : Host) (a : Action) (h : freshRun s a) :
    Effect codec s (step codec s a) := by
  have idle : Effect codec s s := .quiet s.tasks (.refl _)
  cases a with
  | call identity channel input => exact call_effect codec s identity channel input
  | callFails identity channel input error =>
    exact refusal_effect codec s _ _ error
  | actionReturns task result =>
    simp only [step]
    split
    · rename_i identity digest htask
      exact .quiet _ (calmer_set_saving htask _)
    · exact idle
  | save task =>
    simp only [step]
    split
    · rename_i identity digest result htask
      exact .saved task identity digest result htask
    · exact idle
  | saveFails task =>
    simp only [step]
    split
    · exact .answered _ (calmer_set rfl) _ _ true _ (by simp)
    · exact idle
  | poll task =>
    simp only [step]
    split
    · exact poll_effect codec s task _ _ _
    · exact idle
  | pollFails task error =>
    simp only [step]
    split
    · exact .answered _ (calmer_set rfl) _ _ false _ (by simp)
    · exact idle
  | drop task => exact .quiet _ (calmer_set rfl)
  | restart runId => exact .restarted runId h

/-! ## The invariant -/

/-- The journal keeps every row an execution in flight may not write: the finished
ones, and those of earlier processes. -/
def Settled (s : Host) (op : Operation) : Prop :=
  op ∈ s.journal ∧ (op.outcomeJson = none → op.runId ≠ s.runId)

/-- What holds in every state of a host. -/
structure Invariant (codec : Codec) (s : Host) : Prop where
  /-- An action is started once, and only for an identity in the journal. -/
  starts_le : ∀ identity, s.starts identity ≤ if (s.journal.find? identity).isSome then 1 else 0
  /-- A call executes the operation of a row of its own process without outcome. -/
  executing : ∀ task identity digest, Executes s.tasks task identity digest →
    ⟨identity, digest, s.runId, none⟩ ∈ s.journal
  /-- No two calls execute one operation. -/
  single : ∀ task task' identity digest digest',
    Executes s.tasks task identity digest → Executes s.tasks task' identity digest' → task = task'
  /-- Every value a reply carried is the one the journal stores. -/
  replied : ∀ identity digest executed v,
    .replied identity digest executed (.ok v) ∈ s.log → Stores codec s.journal identity executed v

/-- An executing call is about to write no settled row. -/
theorem Invariant.settled_ne (hs : Invariant codec s) (hop : Settled s op)
    (h : Executes s.tasks task identity digest) : op.identity ≠ identity := by
  intro hid
  have hrow := hs.executing task identity digest h
  have heq : op = ⟨identity, digest, s.runId, none⟩ :=
    Table.eq_of_key hop.1 hrow hid
  exact hop.2 (by rw [heq]) (by rw [heq])

theorem executes_saving {result : Json} (h : tasks[task]? = some (.saving identity digest result)) :
    Executes tasks task identity digest :=
  ⟨_, h, rfl⟩

/-- After its own call is done, an operation is executed by none. -/
theorem executes_of_set_done {i : ℕ} (h : Executes (tasks.set task .done) i identity digest) :
    i ≠ task ∧ Executes tasks i identity digest := by
  refine ⟨?_, calmer_set rfl i identity digest h⟩
  rintro rfl
  obtain ⟨phase, hphase, hexec⟩ := h
  rw [List.getElem?_set_self'] at hphase
  cases hold : tasks[i]? with
  | none => simp [hold] at hphase
  | some old =>
    simp only [hold] at hphase
    cases hphase
    cases hexec

/-- The only call that may execute a fresh operation is the last one. -/
theorem executes_of_append {identity' : OperationId} {digest' : String} {i : ℕ}
    (h : Executes (tasks ++ [.running identity digest]) i identity' digest') :
    Executes tasks i identity' digest' ∨
      (i = tasks.length ∧ identity' = identity ∧ digest' = digest) := by
  obtain ⟨phase, hphase, hexec⟩ := h
  rcases Nat.lt_or_ge i tasks.length with hi | hi
  · rw [List.getElem?_append_left hi] at hphase
    exact .inl ⟨phase, hphase, hexec⟩
  · rw [List.getElem?_append_right hi, List.getElem?_singleton] at hphase
    split at hphase
    · rename_i hzero
      cases hphase
      simp only [Phase.executing, Option.some.injEq, Prod.mk.injEq] at hexec
      exact .inr ⟨by omega, hexec.1.symm, hexec.2.symm⟩
    · cases hphase

/-! ## Every effect keeps the settled rows and the invariant -/

/-- **A settled row is never written again.** -/
theorem Settled.effect {s' : Host} (hs : Invariant codec s) (h : Settled s op)
    (he : Effect codec s s') : Settled s' op := by
  cases he with
  | admitted identity digest free => exact ⟨Table.mem_push_of_mem free h.1, h.2⟩
  | quiet tasks calmer => exact h
  | answered tasks calmer identity digest executed reply stored => exact h
  | saved task identity digest result executes =>
    have hne := hs.settled_ne h (executes_saving executes)
    exact ⟨mem_saveOutcome_of_ne h.1 hne, h.2⟩
  | restarted runId fresh => exact ⟨h.1, fun _ => fresh op h.1⟩

theorem Stores.effect {s' : Host} (hs : Invariant codec s) {executed : Bool} {v : Json}
    (h : Stores codec s.journal identity executed v) (he : Effect codec s s') :
    Stores codec s'.journal identity executed v := by
  obtain ⟨op, hop, hid, text, hout, hv⟩ := h
  have hsettled : Settled s op := ⟨hop, by simp [hout]⟩
  exact ⟨op, (hsettled.effect hs he).1, hid, text, hout, hv⟩

/-- What a saving call leaves in the journal. -/
theorem Invariant.stores_saved (hs : Invariant codec s) {result : Json}
    (h : s.tasks[task]? = some (.saving identity digest result)) :
    Stores codec (saveOutcome s.journal identity (codec.print result)) identity true result := by
  have hrow := hs.executing task identity digest (executes_saving h)
  refine ⟨⟨identity, digest, s.runId, some (codec.print result)⟩, ?_, rfl, _, rfl, rfl⟩
  exact mem_saveOutcome.mpr ⟨_, hrow, by simp⟩

/-- Saving keeps which identities the journal holds. -/
theorem isSome_find?_saveOutcome (journal : Journal) (identity identity' : OperationId)
    (text : String) :
    ((saveOutcome journal identity text).find? identity').isSome =
      (journal.find? identity').isSome := by
  simp [saveOutcome]

/-- **The invariant is preserved by every effect.** -/
theorem Invariant.effect {s' : Host} (hs : Invariant codec s) (he : Effect codec s s') :
    Invariant codec s' := by
  have hstores : ∀ identity executed v, Stores codec s.journal identity executed v →
      Stores codec s'.journal identity executed v :=
    fun _ _ _ h => h.effect hs he
  cases he with
  | admitted identity digest free =>
    have hfree : s.starts identity = 0 := by
      have := hs.starts_le identity
      simpa [free] using this
    have hold : ∀ i digest', ¬ Executes s.tasks i identity digest' := by
      intro i digest' h
      have hrow := Table.find?_of_mem (hs.executing i identity digest' h)
      rw [free] at hrow
      cases hrow
    refine ⟨?_, ?_, ?_, ?_⟩
    · intro identity'
      have hle := hs.starts_le identity'
      simp only [Host.starts, Table.find?_push] at hle ⊢
      by_cases hid : identity = identity'
      · subst hid
        simp only [Host.starts] at hfree
        simp [hfree]
      · simpa [hid] using hle
    · intro i identity' digest' h
      rcases executes_of_append h with h | ⟨-, rfl, rfl⟩
      · exact Table.mem_push_of_mem free (hs.executing i identity' digest' h)
      · exact Table.mem_push_self free
    · intro i j identity' digest₁ digest₂ hi hj
      rcases executes_of_append hi with hi' | ⟨ilast, rfl, -⟩
      · rcases executes_of_append hj with hj' | ⟨-, rfl, -⟩
        · exact hs.single i j identity' digest₁ digest₂ hi' hj'
        · exact absurd hi' (hold i digest₁)
      · rcases executes_of_append hj with hj' | ⟨jlast, -, -⟩
        · exact absurd hj' (hold j digest₂)
        · rw [ilast, jlast]
    · intro identity' digest' executed v h
      have hlog : .replied identity' digest' executed (.ok v) ∈ s.log := by simpa using h
      exact hstores _ _ _ (hs.replied identity' digest' executed v hlog)
  | quiet tasks calmer =>
    refine ⟨hs.starts_le, ?_, ?_, hs.replied⟩
    · exact fun i identity digest h => hs.executing i identity digest (calmer i _ _ h)
    · exact fun i j identity digest digest' hi hj =>
        hs.single i j identity digest digest' (calmer i _ _ hi) (calmer j _ _ hj)
  | answered tasks calmer identity digest executed reply stored =>
    refine ⟨?_, ?_, ?_, ?_⟩
    · intro identity'
      have hle := hs.starts_le identity'
      simpa [Host.starts] using hle
    · exact fun i identity digest h => hs.executing i identity digest (calmer i _ _ h)
    · exact fun i j identity digest digest' hi hj =>
        hs.single i j identity digest digest' (calmer i _ _ hi) (calmer j _ _ hj)
    · intro identity' digest' executed' v h
      rcases List.mem_append.mp h with h | h
      · exact hs.replied identity' digest' executed' v h
      · simp only [List.mem_singleton] at h
        obtain ⟨rfl, rfl, rfl, rfl⟩ := h
        exact stored v rfl
  | saved task identity digest result executes =>
    refine ⟨?_, ?_, ?_, ?_⟩
    · intro identity'
      have hle := hs.starts_le identity'
      rw [isSome_find?_saveOutcome]
      simpa [Host.starts] using hle
    · intro i identity' digest' h
      obtain ⟨hi, hold⟩ := executes_of_set_done h
      have hne : identity' ≠ identity := by
        rintro rfl
        exact hi (hs.single i task _ _ _ hold (executes_saving executes))
      exact mem_saveOutcome_of_ne (hs.executing i identity' digest' hold) hne
    · intro i j identity' digest₁ digest₂ hi hj
      exact hs.single i j identity' digest₁ digest₂ (executes_of_set_done hi).2
        (executes_of_set_done hj).2
    · intro identity' digest' executed v h
      rcases List.mem_append.mp h with h | h
      · exact hstores _ _ _ (hs.replied identity' digest' executed v h)
      · simp only [List.mem_singleton] at h
        obtain ⟨rfl, rfl, rfl, rfl⟩ := h
        exact hs.stores_saved executes
  | restarted runId fresh =>
    have hnone : ∀ i identity digest, ¬ Executes [] i identity digest := by
      rintro i identity digest ⟨phase, hphase, -⟩
      simp at hphase
    refine ⟨hs.starts_le, ?_, ?_, hs.replied⟩
    · exact fun i identity digest h => absurd h (hnone i identity digest)
    · exact fun i j identity digest digest' h _ => absurd h (hnone i identity digest)

theorem Invariant.init (codec : Codec) (runId : String) : Invariant codec (Host.init runId) := by
  have hnone : ∀ i identity digest, ¬ Executes [] i identity digest := by
    rintro i identity digest ⟨phase, hphase, -⟩
    simp at hphase
  refine ⟨?_, ?_, ?_, ?_⟩
  · intro identity
    simp [Host.init, Host.starts]
  · exact fun i identity digest h => absurd h (hnone i identity digest)
  · exact fun i j identity digest digest' h _ => absurd h (hnone i identity digest)
  · intro identity digest executed v h
    simp [Host.init] at h

theorem Invariant.run (hs : Invariant codec s) {as : List Action}
    (h : Legal (step codec) freshRun s as) : Invariant codec (run (step codec) s as) :=
  h.invariant (fun s a hs ha => hs.effect (step_effect codec s a ha)) hs

/-- A settled row survives every run. -/
theorem Settled.run (hs : Invariant codec s) (hop : Settled s op) {as : List Action}
    (h : Legal (step codec) freshRun s as) : Settled (run (step codec) s as) op := by
  have hboth : Invariant codec s ∧ Settled s op := ⟨hs, hop⟩
  refine (h.invariant (I := fun s => Invariant codec s ∧ Settled s op) ?_ hboth).2
  intro s a hs ha
  have he := step_effect codec s a ha
  exact ⟨hs.1.effect he, hs.2.effect hs.1 he⟩

/-- **A settled operation is not started again**, by whatever run. -/
theorem Settled.starts_run (hs : Invariant codec s) (hop : Settled s op) {as : List Action}
    (h : Legal (step codec) freshRun s as) :
    (Argmax.Lib.run (step codec) s as).starts op.identity = s.starts op.identity := by
  induction as generalizing s with
  | nil => rfl
  | cons a as ih =>
    have he := step_effect codec s a h.1
    rw [run_cons, ih (hs.effect he) (hop.effect hs he) h.2]
    generalize step codec s a = s' at he
    cases he with
    | admitted identity digest free =>
      have hne : identity ≠ op.identity := by
        rintro rfl
        rw [Table.find?_of_mem hop.1] at free
        cases free
      simp [Host.starts, hne]
    | quiet | restarted => rfl
    | answered | saved => simp [Host.starts]

/-! ## The guarantees -/

/-- What the journal promises in a state of the host. -/
structure Guarantees (codec : Codec) (s : Host) : Prop where
  /-- The action of an identity was started at most once. -/
  once : ∀ identity, s.starts identity ≤ 1
  /-- Every value a call was answered with is the stored outcome: what the executing
  call printed, and what a retry reads back from that text. -/
  answered : ∀ identity digest executed v,
    .replied identity digest executed (.ok v) ∈ s.log → Stores codec s.journal identity executed v
  /-- A stored outcome stays as it is, and every retry of its request is answered with
  it and changes nothing else. -/
  retried : ∀ op ∈ s.journal, ∀ text, op.outcomeJson = some text →
    ∀ as, Legal (step codec) freshRun s as →
      op ∈ (run (step codec) s as).journal ∧
      ∀ channel input, requestDigest codec channel input = op.requestDigest →
        step codec (run (step codec) s as) (.call op.identity channel input) =
          (run (step codec) s as).answer op.identity op.requestDigest (decodeOutcome codec text)
  /-- A call whose request differs is rejected, and nothing runs. -/
  mismatched : ∀ op ∈ s.journal, ∀ channel input,
    requestDigest codec channel input ≠ op.requestDigest →
      step codec s (.call op.identity channel input) =
        s.answer op.identity (requestDigest codec channel input) (.error operationMismatch)
  /-- An operation without outcome that a restart interrupts is never started again,
  and every retry of it, at any later time, is told that its outcome is unknown. -/
  interrupted : ∀ op ∈ s.journal, op.outcomeJson = none →
    ∀ runId as, Legal (step codec) freshRun s (.restart runId :: as) →
      let later := run (step codec) s (.restart runId :: as)
      later.starts op.identity = s.starts op.identity ∧
      ∀ channel input, requestDigest codec channel input = op.requestDigest →
        step codec later (.call op.identity channel input) =
          later.answer op.identity op.requestDigest (.error unknownOutcome)

/-- The answer to a call that meets a settled row with its own request. -/
theorem call_settled (hop : Settled s op) {channel : String} {input : Json}
    (hdigest : requestDigest codec channel input = op.requestDigest) :
    step codec s (.call op.identity channel input) =
      s.answer op.identity op.requestDigest
        (match op.outcomeJson with
        | some text => decodeOutcome codec text
        | none => .error unknownOutcome) := by
  simp only [step, call, admit_of_taken hop.1, hdigest]
  cases hout : op.outcomeJson with
  | some text =>
    cases hdecode : decodeOutcome codec text <;> simp [Except.map, hdecode]
  | none => simp [hop.2 hout]

/-- **The guarantees follow from the invariant.** -/
theorem Invariant.guarantees (hs : Invariant codec s) : Guarantees codec s := by
  refine ⟨?_, hs.replied, ?_, ?_, ?_⟩
  · intro identity
    have hle := hs.starts_le identity
    split at hle <;> omega
  · intro op hop text hout as h
    have hlater := Settled.run hs ⟨hop, by simp [hout]⟩ h
    refine ⟨hlater.1, fun channel input hdigest => ?_⟩
    rw [call_settled hlater hdigest, hout]
  · intro op hop channel input hdigest
    simp [step, call, admit_of_taken hop, hdigest.symm]
  · intro op hop hout runId as h
    -- the restart is what settles the row
    have hsettled : Settled (step codec s (.restart runId)) op :=
      ⟨hop, fun _ => h.1 op hop⟩
    have hrestarted := hs.effect (step_effect codec s (.restart runId) h.1)
    refine ⟨Settled.starts_run hrestarted hsettled h.2, fun channel input hdigest => ?_⟩
    rw [run_cons, call_settled (hsettled.run hrestarted h.2) hdigest, hout]

/-- **Remote operations execute at most once.** In every state of every run of the
host, from a fresh store on, the journal keeps its guarantees. -/
theorem execute_at_most_once (codec : Codec) (runId : String) (as : List Action)
    (h : Legal (step codec) freshRun (Host.init runId) as) :
    Guarantees codec (run (step codec) (Host.init runId) as) :=
  ((Invariant.init codec runId).run h).guarantees

/-- The library on the values of a run that archives a workspace. -/
def archiveCodec : Codec where
  print v :=
    if v = .array [.string "workspaces:archive", .null] then "[\"workspaces:archive\",null]"
    else if v = .object [("ok", .number (.posInt 42))] then "\x7b\"ok\":42\x7d"
    else "null"
  parse text :=
    if text = "\x7b\"ok\":42\x7d" then .ok (.object [("ok", .number (.posInt 42))])
    else .ok .null
  sha256Hex text :=
    if text = "[\"workspaces:archive\",null]" then
      "94710d0298dffa91fdd1c1daa2b465111e7ff95d507dd2c78f4703049075eac6"
    else "74234e98afe7498fb5daf1f36ac2d78acc339464f950703b8c019892f982b90b"

/-- The reply is lost, the process restarts, and the client retries. -/
def archiveRun : List Action :=
  [.call ⟨1, 2⟩ "workspaces:archive" .null, .actionReturns 0 (.ok (.number (.posInt 42))),
    .save 0, .restart "new-process", .call ⟨1, 2⟩ "workspaces:archive" .null]

theorem execute_at_most_once_archive :
    Legal (step archiveCodec) freshRun (Host.init "old-process") archiveRun ∧
      Guarantees archiveCodec (run (step archiveCodec) (Host.init "old-process") archiveRun) :=
  ⟨by decide, execute_at_most_once archiveCodec "old-process" archiveRun (by decide)⟩

end Argmax.Remote
