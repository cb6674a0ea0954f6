import Mathlib.Data.List.Basic

/-!
# The provider process of a session

`session_service.rs`: which process a session's input goes to. The service keeps an entry for each
session that has one. A launch and a follow-up send put a pending entry there and spawn in
the background. The spawn task looks for a pending entry before it launches and when it has
a handle. Stop takes the entry away and disposes it in a job of its own.

The steps are those on the entry of one session, each under its lock. A spawn is known by its
provider invocation, the number of spawns before it. A send is one step from its look at the
entry to its claim, which the checkout lock and the send generation keep apart from other
sends and from Stop. An exit is that of a process whose handle the spawn task has got. Failures
of the database are left out.
-/

namespace Argmax.Providers.SessionHandles

/-- A process behind a handle. -/
structure Process where
  /-- `terminate` was called. -/
  told : Bool
  /-- The process has exited, and its handle is disposed. -/
  gone : Bool
  sizes : List (ℕ × ℕ)
  deriving DecidableEq

/-- A spawn task: before its look at the entry, in the launcher, and at its end. -/
inductive Spawn where
  | starting
  | launching
  | failed
  | process (process : Process)
  deriving DecidableEq

inductive HandleEntry where
  /-- With the sizes of `PendingOp::Resize`. -/
  | pending (ops : List (ℕ × ℕ))
  | resolved (invocation : ℕ)

/-- A job of `start_termination`, with the entry it took. -/
structure Termination where
  entry : Option HandleEntry
  finished : Bool

structure Service where
  /-- The session's entry in `handles`. -/
  entry : Option HandleEntry
  /-- The session is in `terminating`. -/
  terminating : Bool
  /-- The session's entry in `termination_jobs`. -/
  job : Option Termination
  /-- The invocation of the flush queue, while the session runs. -/
  current : Option ℕ
  spawns : List Spawn

namespace Service

/-- A session of an earlier run of the program. -/
def idle : Service := ⟨none, false, none, none, []⟩

variable (s : Service)

def setSpawn (invocation : ℕ) (spawn : Spawn) : Service :=
  { s with spawns := s.spawns.set invocation spawn }

/-- `insert(session_id, HandleEntry::Pending(..))`, and the spawn in the background. -/
def claim : Service :=
  { s with
    entry := some (.pending [])
    current := some s.spawns.length
    spawns := s.spawns ++ [.starting] }

/-- A session that was just launched. -/
def launched : Service := idle.claim

/-- `handle.terminate()` for the handle of an entry. -/
def tell (entry : Option HandleEntry) : Service :=
  match entry with
  | some (.resolved invocation) =>
    match s.spawns[invocation]? with
    | some (.process process) => s.setSpawn invocation (.process { process with told := true })
    | _ => s
  | _ => s

/-- The error branch of the spawn task. -/
def launchFailed (invocation : ℕ) : Service :=
  { s.setSpawn invocation .failed with
    entry := none
    current :=
      match s.entry with
      | some (.pending _) => none
      | _ => s.current }

/-- A follow-up would relaunch. -/
def claimable : Bool := s.entry.isNone && !s.terminating && s.job.isNone

def inFlight (invocation : ℕ) : Bool :=
  decide (s.spawns[invocation]? = some .starting) || decide (s.spawns[invocation]? = some .launching)

/-- The process of an invocation runs. -/
def running (invocation : ℕ) : Option Process :=
  match s.spawns[invocation]? with
  | some (.process process) => if process.gone then none else some process
  | _ => none

end Service

/-! ## Steps -/

inductive Act where
  /-- `send_input`. -/
  | send
  /-- `start_termination`. -/
  | stop
  /-- `finish_termination`. -/
  | finishTermination
  /-- The end of the termination job. -/
  | retireJob
  /-- The look at the entry before the launch. -/
  | lookUp (invocation : ℕ)
  /-- An error of the checkpoint or of the launcher. -/
  | fail (invocation : ℕ)
  /-- The launcher has given a handle. -/
  | complete (invocation : ℕ)
  /-- A process has exited: `handle_lifecycle_event`. -/
  | exit (invocation : ℕ)
  /-- `complete_cursor_turn_after_result`. -/
  | finishTurn (invocation : ℕ)
  | resize (cols rows : ℕ)

def step (s : Service) : Act → Service
  | .send => if s.claimable then s.claim else s
  | .stop =>
    if s.job.isSome then s
    else { s with entry := none, terminating := true, job := some ⟨s.entry, false⟩ }
  | .finishTermination =>
    match s.job with
    | some ⟨entry, false⟩ =>
      { s.tell entry with terminating := false, current := none, job := some ⟨entry, true⟩ }
    | _ => s
  | .retireJob =>
    match s.job with
    | some ⟨_, true⟩ => { s with job := none }
    | _ => s
  | .lookUp invocation =>
    if s.spawns[invocation]? = some .starting then
      match s.entry with
      | some (.pending _) => s.setSpawn invocation .launching
      | _ => s.launchFailed invocation
    else s
  | .fail invocation => if s.inFlight invocation then s.launchFailed invocation else s
  | .complete invocation =>
    if s.spawns[invocation]? = some .launching then
      match s.entry with
      | some (.pending ops) =>
        { s.setSpawn invocation (.process ⟨false, false, ops⟩) with
          entry := some (.resolved invocation) }
      -- `insert` found no pending entry, and the new one is removed again.
      | _ => { s.setSpawn invocation (.process ⟨true, false, []⟩) with entry := none }
    else s
  | .exit invocation =>
    match s.running invocation with
    | some process =>
      let s := s.setSpawn invocation (.process { process with gone := true })
      if s.current = some invocation then { s with entry := none, current := none } else s
    | none => s
  | .finishTurn invocation =>
    if (s.running invocation).isSome && decide (s.current = some invocation) && !s.terminating then
      { s.tell s.entry with entry := none, current := none }
    else s
  | .resize cols rows =>
    match s.entry with
    | some (.pending _) => { s with entry := some (.pending [(cols, rows)]) }
    | some (.resolved invocation) =>
      match s.running invocation with
      | some process => s.setSpawn invocation (.process { process with
          sizes := process.sizes ++ [(cols, rows)] })
      | none => s
    | none => s

/-! ## What happened -/

structure History where
  /-- The spawn whose send put the entry there, or whose handle is in it. -/
  owner : Option ℕ
  /-- The spawns whose entry Stop took. -/
  stopped : List ℕ
  /-- Spawns whose handle replaced a pending entry, with the owner of that. -/
  replaced : List (ℕ × Option ℕ)
  /-- Spawns whose handle was terminated as cancelled. -/
  cancelled : List ℕ

def isPending : Option HandleEntry → Bool
  | some (.pending _) => true
  | _ => false

/-- What a step adds to the history. -/
def observe (s : Service) (h : History) : Act → History
  | .send => if s.claimable then { h with owner := some s.spawns.length } else h
  | .stop =>
    if s.job.isSome then h
    else { h with owner := none, stopped := h.owner.toList ++ h.stopped }
  | .lookUp invocation =>
    if s.spawns[invocation]? = some .starting ∧ isPending s.entry = false then
      { h with owner := none }
    else h
  | .fail invocation => if s.inFlight invocation then { h with owner := none } else h
  | .complete invocation =>
    if s.spawns[invocation]? = some .launching then
      if isPending s.entry then
        { h with owner := some invocation, replaced := (invocation, h.owner) :: h.replaced }
      else { h with owner := none, cancelled := invocation :: h.cancelled }
    else h
  | .exit invocation =>
    if (s.running invocation).isSome ∧ s.current = some invocation then { h with owner := none }
    else h
  | .finishTurn invocation =>
    if (s.running invocation).isSome && decide (s.current = some invocation) && !s.terminating then
      { h with owner := none }
    else h
  | .finishTermination | .retireJob | .resize _ _ => h

/-- A session and its history. -/
structure State where
  service : Service
  history : History

def State.step (state : State) (act : Act) : State :=
  ⟨SessionHandles.step state.service act, observe state.service state.history act⟩

def State.idle : State := ⟨.idle, ⟨none, [], [], []⟩⟩

def State.launched : State := ⟨.launched, ⟨some 0, [], [], []⟩⟩

end Argmax.Providers.SessionHandles
