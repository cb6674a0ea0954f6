import Argmax.SessionControl.AfterTurn

/-!
# One slot for what happens after a turn

The lock of the slots is held from the look at the slot and the row until both are written, and
an enqueue holds the writer connection from its look at the slot until the queue is written. A
row is written under both. So the slot always has its row, a second schedule is refused, and an
action whose schedule found no follow-up, queued or being sent, keeps the queue empty until it is
released. It starts once, unless a launch ends while it is carried out.

An enqueue looks at the slot alone, so it is admitted beside the row of an earlier launch. And
it takes the two locks the other way round, so that it and a schedule can wait for each other
for ever.
-/

namespace Argmax.SessionControl.AfterTurnSlot

open Argmax.Lib Argmax.FollowUps Argmax.Persistence.PendingMessages

variable {sessionId : String}

/-! ## What is kept -/

/-- What is kept of the slot, the row, the queue and the promises. -/
structure SlotKept (sessionId : String) (s : State) : Prop where
  /-- No follow-up is queued beside an action whose schedule has looked at the queue. -/
  exclusive : ∀ row, s.row = some row → row.promise ∈ s.checked → s.queue.memory = []
  /-- The slot has its row. -/
  durable : ∀ slot, s.pending = some slot → ∃ row, s.row = some row ∧
    row.promise = slot.promise ∧ AfterTurn.of row.action = slot.action
  /-- A schedule that finds either is refused, and names what it found. -/
  refused : ∀ key action existing ok, s.calls key = some (.schedule action .entered) →
    s.mapLock = none → occupiedBy s = some existing →
    step sessionId s (.proceed key ok) = answer s key (.error (alreadyPending existing))
  /-- A schedule that found neither takes the slot while there is neither. -/
  vacant : ∀ key action, s.calls key = some (.schedule action .vacant) →
    s.pending = none ∧ s.row = none
  /-- An action is started once, and once more for each launch that ended while it was
  carried out. -/
  once : ∀ promise, s.started.count promise ≤ 1 + s.interrupted.count promise
  /-- Nothing is left of what was finished, cancelled or dropped. -/
  gone : ∀ promise ∈ s.released, (∀ slot, s.pending = some slot → slot.promise ≠ promise) ∧
    ∀ row, s.row = some row → row.promise ≠ promise

/-- Startup lists the rows before the launch writes one. A schedule finds the queue empty only
when no follow-up is being sent either. An enqueue does not look at the slot while a row is
without one. A row that is released is deleted. -/
def Ordered (sessionId : String) (s : State) : Act → Prop
  | .list => s.row.isSome → s.scheduled = false
  | .proceed key ok =>
    match s.calls key with
    | some (.schedule _ (.slotted _)) =>
      s.queue.memory = [] → ∀ row ∈ s.queue.journal, row.sessionId ≠ sessionId
    | some (.send _ .writing) => s.row.isSome → s.pending.isSome
    | some (.release _ _ true) => ok = true
    | _ => True
  | _ => True

/-! ## Effects -/

namespace Call

/-- The call has made no promise, and releases nothing. -/
def early : Call → Bool
  | .schedule _ .entered | .schedule _ .vacant | .send _ _ | .abort => true
  | .schedule _ (.slotted _) | .schedule _ (.checked _) | .release _ _ _ => false

/-- The call holds no lock. -/
def lockFree : Call → Bool
  | .schedule _ .vacant | .send _ .writing | .send _ .admitted | .release _ _ true => false
  | .schedule _ .entered | .schedule _ (.slotted _) | .schedule _ (.checked _)
  | .send _ .entered | .send _ .resolving | .abort | .release _ _ false => true

/-- The promise whose task the call is to spawn. -/
def promise? : Call → Option ℕ
  | .schedule _ (.slotted promise) | .schedule _ (.checked promise) => some promise
  | _ => none

/-- What the call releases was carried out. -/
def finished? : Call → Option ℕ
  | .release finished _ _ => finished
  | .schedule _ _ | .send _ _ | .abort => none

end Call

/-- What an ordered step can do. -/
inductive Effect (sessionId : String) (s : State) : State → Prop where
  | idle : Effect sessionId s s
  /-- A call goes on, without a lock or a promise. -/
  | goesOn (key : ℕ) (call : Call) (hfree : call.lockFree = true) (hnone : call.promise? = none)
      (hunfinished : call.finished? = none)
      (hearly : call.early = true ∨ s.pending ≠ none ∨
        ∃ old, s.calls key = some old ∧ old.early = false) :
      Effect sessionId s (setCall s key (some call))
  | answered (key : ℕ) (result : ArgmaxResult Unit) : Effect sessionId s (answer s key result)
  | unlocked (key : ℕ) (result : ArgmaxResult Unit) (action : AfterTurnAction)
      (hcall : s.calls key = some (.schedule action .vacant)) :
      Effect sessionId s { answer s key result with mapLock := none }
  | unwritten (key : ℕ) (result : ArgmaxResult Unit) (message : PendingMessage)
      (hcall : s.calls key = some (.send message .writing) ∨
        s.calls key = some (.send message .admitted)) :
      Effect sessionId s { answer s key result with writer := none }
  | vacant (key : ℕ) (action : AfterTurnAction) (hlock : s.mapLock = none)
      (hpending : s.pending = none) (hrow : s.row = none) :
      Effect sessionId s
        { setCall s key (some (.schedule action .vacant)) with mapLock := some key }
  | slotted (key : ℕ) (action : AfterTurnAction) (hwriter : s.writer = none)
      (hcall : s.calls key = some (.schedule action .vacant)) :
      Effect sessionId s
        { setCall s key (some (.schedule action (.slotted s.promises))) with
          row := some ⟨action, s.promises⟩
          pending := some ⟨.of action, s.promises, true⟩
          mapLock := none
          promises := s.promises + 1
          scheduled := true }
  | checked (key : ℕ) (action : AfterTurnAction) (promise : ℕ)
      (hcall : s.calls key = some (.schedule action (.slotted promise)))
      (hempty : s.queue.IsEmpty sessionId) :
      Effect sessionId s
        { setCall s key (some (.schedule action (.checked promise))) with
          checked := promise :: s.checked }
  | removing (key : ℕ) (action : AfterTurnAction) (promise : ℕ)
      (hcall : s.calls key = some (.schedule action (.slotted promise)))
      (hempty : s.queue.IsEmpty sessionId) :
      Effect sessionId s
        { answer s key (.ok ()) with
          tasks := (promise, action) :: s.tasks
          checked := promise :: s.checked }
  | scheduled (key : ℕ) (action : AfterTurnAction) (promise : ℕ)
      (hcall : s.calls key = some (.schedule action (.checked promise))) :
      Effect sessionId s { answer s key (.ok ()) with tasks := (promise, action) :: s.tasks }
  | writing (key : ℕ) (message : PendingMessage) (hwriter : s.writer = none) :
      Effect sessionId s { setCall s key (some (.send message .writing)) with writer := some key }
  | admitted (key : ℕ) (message : PendingMessage)
      (hcall : s.calls key = some (.send message .writing)) (hrow : s.row = none) :
      Effect sessionId s (setCall s key (some (.send message .admitted)))
  | enqueued (key : ℕ) (message : PendingMessage) (queue : FollowUpQueue)
      (hcall : s.calls key = some (.send message .admitted)) :
      Effect sessionId s { answer s key (.ok ()) with queue := queue, writer := none }
  | locked (key : ℕ) (finished : Option ℕ) (result : ArgmaxResult Unit)
      (hlock : s.mapLock = none)
      (hcall : s.calls key = some (.release finished result false)) :
      Effect sessionId s
        { setCall s key (some (.release finished result true)) with mapLock := some key }
  | released (key : ℕ) (finished : Option ℕ) (result : ArgmaxResult Unit)
      (hcall : s.calls key = some (.release finished result true)) :
      Effect sessionId s
        { answer s key result with
          pending := none
          row := none
          mapLock := none
          finishing := finished.elim s.finishing fun promise => s.finishing.erase promise
          released :=
            finished.toList ++ (s.pending.map (·.promise)).toList ++
              (s.row.map (·.promise)).toList ++ s.released }
  | settled (action : AfterTurn) (promise : ℕ) (hlock : s.mapLock = none)
      (hpending : s.pending = some ⟨action, promise, true⟩) :
      Effect sessionId s
        { s with pending := some ⟨action, promise, false⟩, sent := promise :: s.sent }
  | started (promise : ℕ) (htask : promise ∈ s.tasks.map (·.1)) :
      Effect sessionId s
        { s with
          tasks := s.tasks.filter fun task => task.1 != promise
          running := promise :: s.running
          started := promise :: s.started }
  | finishing (key promise : ℕ) (hrunning : promise ∈ s.running) :
      Effect sessionId s
        { setCall s key (some (.release (some promise) (.ok ()) false)) with
          running := s.running.erase promise
          finishing := promise :: s.finishing }
  | listed (hboot : s.boot = .unlisted) (hrow : s.row.isSome → s.scheduled = false) :
      Effect sessionId s { s with boot := s.row.elim .done .listed }
  | judged (row : AfterTurnRow) (hboot : s.boot = .listed row) (resumption : Resumption) :
      Effect sessionId s { s with boot := .judged row resumption }
  | dropped (row : AfterTurnRow) (resumption : Resumption)
      (hboot : s.boot = .judged row resumption) :
      Effect sessionId s
        { s with
          row := none
          boot := .done
          released := (s.row.map (·.promise)).toList ++ s.released }
  | adopted (row : AfterTurnRow) (resumption : Resumption)
      (hboot : s.boot = .judged row resumption) (hlock : s.mapLock = none) :
      Effect sessionId s
        { s with
          pending := some ⟨.of row.action, row.promise, true⟩
          tasks := (row.promise, row.action) :: s.tasks
          boot := .done }
  | taken : Effect sessionId s { s with boot := .done }
  | resumed (row : AfterTurnRow) (resumption : Resumption)
      (hboot : s.boot = .judged row resumption) :
      Effect sessionId s
        { s with
          running := row.promise :: s.running
          started := row.promise :: s.started
          boot := .done }
  | queued (queue : FollowUpQueue)
      (hqueue : s.queue.IsEmpty sessionId → queue.IsEmpty sessionId) :
      Effect sessionId s { s with queue := queue }
  | facts (facts : Facts) : Effect sessionId s { s with facts := facts }
  | restarted (delivered : String → Bool) :
      Effect sessionId s (step sessionId s (.restart delivered))

variable {s s' : State} {key other third : ℕ} {action : AfterTurnAction} {ok : Bool}
  {row : AfterTurnRow} {call : Call} {new : Option Call}

theorem effect_schedule {stage : ScheduleStage}
    (hcall : s.calls key = some (.schedule action stage))
    (hordered : Ordered sessionId s (.proceed key ok)) :
    Effect sessionId s (stepSchedule s key action ok stage) := by
  simp only [Ordered, hcall] at hordered
  cases stage with
  | entered =>
    simp only [stepSchedule]
    by_cases hlock : s.mapLock.isSome
    · simpa [hlock] using .idle
    · cases hoccupied : occupiedBy s with
      | some existing => simpa [hlock] using .answered key _
      | none =>
        simp only [occupiedBy, Option.or_eq_none_iff, Option.map_eq_none_iff] at hoccupied
        cases ok with
        | true =>
          simpa [hlock] using .vacant key action (by simpa using hlock) hoccupied.1 hoccupied.2
        | false => simpa [hlock] using .answered key _
  | vacant =>
    simp only [stepSchedule]
    by_cases hwriter : s.writer.isSome
    · simpa [hwriter] using .idle
    · by_cases hinsert : (ok && s.row.isNone) = true
      · simpa [hwriter, hinsert] using .slotted key action (by simpa using hwriter) hcall
      · simpa [hwriter, hinsert] using .unlocked key _ action hcall
  | slotted promise =>
    simp only [stepSchedule]
    by_cases hmemory : s.queue.memory = []
    · have hempty : s.queue.IsEmpty sessionId := ⟨hmemory, hordered hmemory⟩
      by_cases hremove : AfterTurn.of action = .removeCheckout
      · simpa [hmemory, hremove] using .removing key action promise hcall hempty
      · simpa [hmemory, hremove] using .checked key action promise hcall hempty
    · simpa [hmemory] using .goesOn key _ rfl rfl rfl (.inr (.inr ⟨_, hcall, rfl⟩))
  | checked promise =>
    simp only [stepSchedule]
    by_cases hwriter : s.writer.isSome
    · simpa [hwriter] using .idle
    · cases ok with
      | true => simpa [hwriter] using .scheduled key action promise hcall
      | false => simpa [hwriter] using .goesOn key _ rfl rfl rfl (.inr (.inr ⟨_, hcall, rfl⟩))

theorem effect_send {message : PendingMessage} {stage : SendStage}
    (hcall : s.calls key = some (.send message stage))
    (hordered : Ordered sessionId s (.proceed key ok)) :
    Effect sessionId s (stepSend sessionId s key message ok stage) := by
  simp only [Ordered, hcall] at hordered
  cases stage with
  | entered =>
    simp only [stepSend]
    by_cases hlock : s.mapLock.isSome
    · simpa [hlock] using .idle
    · cases hpending : s.pending with
      | some slot => simpa [hlock] using .answered key _
      | none => simpa [hlock] using .goesOn key _ rfl rfl rfl (.inl rfl)
  | resolving =>
    simp only [stepSend]
    cases ok with
    | false => simpa using .answered key _
    | true =>
      by_cases hwriter : s.writer.isSome
      · simpa [hwriter] using .idle
      · simpa [hwriter] using .writing key message (by simpa using hwriter)
  | writing =>
    simp only [stepSend]
    cases ok with
    | false => simpa using .unwritten key _ message (.inl hcall)
    | true =>
      by_cases hlock : s.mapLock.isSome
      · simpa [hlock] using .idle
      · cases hpending : s.pending with
        | some slot => simpa [hlock] using .unwritten key _ message (.inl hcall)
        | none =>
          have hrow : s.row = none := by simpa [hpending] using hordered
          simpa [hlock] using .admitted key message hcall hrow
  | admitted =>
    simp only [stepSend]
    cases enqueue sessionId s.queue message with
    | ok queue => exact .enqueued key message queue hcall
    | error error => exact .unwritten key _ message (.inr hcall)

theorem effect_release {finished : Option ℕ} {result : ArgmaxResult Unit} {locked : Bool}
    (hcall : s.calls key = some (.release finished result locked))
    (hordered : Ordered sessionId s (.proceed key ok)) :
    Effect sessionId s (stepRelease s key finished result ok locked) := by
  simp only [Ordered, hcall] at hordered
  cases locked with
  | false =>
    simp only [stepRelease]
    by_cases hlock : s.mapLock.isSome
    · simpa [hlock] using .idle
    · simpa [hlock] using .locked key finished result (by simpa using hlock) hcall
  | true =>
    simp only [stepRelease, hordered]
    by_cases hwriter : s.writer.isSome
    · simpa [hwriter] using .idle
    · rw [if_neg hwriter]
      exact .released key finished result hcall

theorem effect_resume {resumption : Resumption} (hboot : s.boot = .judged row resumption) :
    Effect sessionId s (stepResume s row resumption) := by
  cases resumption with
  | obsolete reason =>
    simp only [stepResume]
    by_cases hwriter : s.writer.isSome
    · simpa [hwriter] using .idle
    · simpa [hwriter] using .dropped row _ hboot
  | awaitTurnEnd =>
    simp only [stepResume]
    by_cases hlock : s.mapLock.isSome
    · simpa [hlock] using .idle
    · rw [if_neg hlock]
      split
      · exact .taken
      · exact .adopted row _ hboot (by simpa using hlock)
  | runNow => exact .resumed row _ hboot

/-- **What an ordered step can do.** -/
theorem effect_step {a : Act} (hordered : Ordered sessionId s a) :
    Effect sessionId s (step sessionId s a) := by
  cases a with
  | schedule key action =>
    simp only [step]
    split
    · exact .goesOn key _ rfl rfl rfl (.inl rfl)
    · exact .idle
  | send key message =>
    simp only [step]
    split
    · exact .goesOn key _ rfl rfl rfl (.inl rfl)
    · exact .idle
  | abort key =>
    simp only [step]
    split
    · exact .goesOn key _ rfl rfl rfl (.inl rfl)
    · exact .idle
  | proceed key ok =>
    cases hcall : s.calls key with
    | none => simpa [step, hcall] using .idle
    | some call =>
      simp only [step, hcall]
      cases call with
      | schedule action stage => exact effect_schedule hcall hordered
      | send message stage => exact effect_send hcall hordered
      | release finished result locked => exact effect_release hcall hordered
      | abort =>
        by_cases hlock : s.mapLock.isSome
        · simpa [hlock] using .idle
        · by_cases hpending : s.pending.isSome
          · have hne : s.pending ≠ none := by simpa [Option.isSome_iff_ne_none] using hpending
            simpa [hlock, hpending] using .goesOn key _ rfl rfl rfl (.inr (.inl hne))
          · simpa [hlock, hpending] using .answered key _
  | settle =>
    simp only [step]
    split
    · rename_i hpending
      by_cases hlock : s.mapLock.isSome
      · simpa [hlock] using .idle
      · rw [if_neg hlock]
        exact .settled _ _ (by simpa using hlock) hpending
    · exact .idle
  | startTask promise =>
    simp only [step]
    split
    · rename_i htask
      exact .started promise htask.2
    · exact .idle
  | finish key promise =>
    simp only [step]
    split
    · rename_i hrunning
      exact .finishing key promise hrunning.2
    · exact .idle
  | list =>
    simp only [step]
    split
    · rename_i hboot
      exact .listed hboot hordered
    · exact .idle
  | judge =>
    simp only [step]
    split
    · rename_i row hboot
      exact .judged row hboot _
    · exact .idle
  | resume =>
    simp only [step]
    split
    · rename_i row resumption hboot
      exact effect_resume hboot
    · exact .idle
  | queue write =>
    simp only [step]
    split
    · exact .idle
    · split
      · rename_i hwrite
        exact .queued _ fun hempty => hempty.write hwrite
      · exact .idle
  | facts facts => exact .facts facts
  | restart delivered => exact .restarted delivered

/-! ## Locks -/

/-- What a call relies on while it holds a lock. -/
def Call.Held (s : State) (key : ℕ) : Call → Prop
  | .schedule _ .vacant => s.mapLock = some key ∧ s.pending = none ∧ s.row = none
  | .release _ _ true => s.mapLock = some key
  | .send _ .writing => s.writer = some key
  | .send _ .admitted => s.writer = some key ∧ s.row = none
  | _ => True

def Held (s : State) : Prop := ∀ key call, s.calls key = some call → call.Held s key

theorem Call.held_of_lockFree (h : call.lockFree = true) : call.Held s key := by
  cases call with
  | schedule action stage => cases stage <;> simp_all [Call.Held, Call.lockFree]
  | send message stage => cases stage <;> simp_all [Call.Held, Call.lockFree]
  | abort => trivial
  | release finished result locked => cases locked <;> simp_all [Call.Held, Call.lockFree]

/-- A call keeps what it relies on when the locks and what they protect are left. -/
theorem Call.Held.congr (h : call.Held s key)
    (hlock : s.mapLock = some key → s'.mapLock = some key ∧ s'.pending = s.pending)
    (hwriter : s.writer = some key → s'.writer = some key)
    (hrow : s.mapLock = some key ∨ s.writer = some key → s.row = none → s'.row = none) :
    call.Held s' key := by
  cases call with
  | schedule action stage => cases stage <;> simp_all [Call.Held]
  | send message stage => cases stage <;> simp_all [Call.Held]
  | abort => trivial
  | release finished result locked => cases locked <;> simp_all [Call.Held]

/-- Two calls do not hold one lock. -/
theorem lock_apart {lock : Option ℕ} (h : lock = some key) (hne : other ≠ key) :
    lock ≠ some other := by
  simpa [h] using hne.symm

theorem Held.effect (h : Held s) (he : Effect sessionId s s') : Held s' := by
  intro other call hcall'
  cases he with
  | restarted delivered => simp [step] at hcall'
  | goesOn key new hfree =>
    obtain ⟨rfl, hnew⟩ | ⟨-, hold⟩ := update_eq_some.mp hcall'
    · cases hnew
      exact Call.held_of_lockFree hfree
    · exact (h other call hold).congr (fun h => ⟨h, rfl⟩) id fun _ => id
  | answered key result =>
    exact (h other call (update_none_eq_some.mp hcall').2).congr (fun h => ⟨h, rfl⟩) id fun _ => id
  | unlocked key result action hcall =>
    obtain ⟨hne, hold⟩ := update_none_eq_some.mp hcall'
    have hapart := lock_apart (h key _ hcall).1 hne
    exact (h other call hold).congr (fun h => absurd h hapart) id fun _ => id
  | unwritten key result message hcall =>
    obtain ⟨hne, hold⟩ := update_none_eq_some.mp hcall'
    have hwriter : s.writer = some key := by
      obtain hcall | hcall := hcall
      · exact h key _ hcall
      · exact (h key _ hcall).1
    have hapart := lock_apart hwriter hne
    exact (h other call hold).congr (fun h => ⟨h, rfl⟩) (fun h => absurd h hapart) fun _ => id
  | vacant key action hlock hpending hrow =>
    obtain ⟨rfl, hnew⟩ | ⟨-, hold⟩ := update_eq_some.mp hcall'
    · cases hnew
      exact ⟨rfl, hpending, hrow⟩
    · exact (h other call hold).congr (by simp [hlock]) id fun _ => id
  | slotted key action hwriter hcall =>
    obtain ⟨-, hnew⟩ | ⟨hne, hold⟩ := update_eq_some.mp hcall'
    · cases hnew
      trivial
    · have hapart := lock_apart (h key _ hcall).1 hne
      refine (h other call hold).congr (fun h => absurd h hapart) id ?_
      rintro (hlock | hlock)
      · exact absurd hlock hapart
      · simp [hwriter] at hlock
  | checked key action promise =>
    obtain ⟨-, hnew⟩ | ⟨-, hold⟩ := update_eq_some.mp hcall'
    · cases hnew
      trivial
    · exact (h other call hold).congr (fun h => ⟨h, rfl⟩) id fun _ => id
  | removing key =>
    exact (h other call (update_none_eq_some.mp hcall').2).congr (fun h => ⟨h, rfl⟩) id fun _ => id
  | scheduled key =>
    exact (h other call (update_none_eq_some.mp hcall').2).congr (fun h => ⟨h, rfl⟩) id fun _ => id
  | writing key message hwriter =>
    obtain ⟨rfl, hnew⟩ | ⟨-, hold⟩ := update_eq_some.mp hcall'
    · cases hnew
      rfl
    · exact (h other call hold).congr (fun h => ⟨h, rfl⟩) (by simp [hwriter]) fun _ => id
  | admitted key message hcall hrow =>
    obtain ⟨rfl, hnew⟩ | ⟨-, hold⟩ := update_eq_some.mp hcall'
    · cases hnew
      exact ⟨h _ _ hcall, hrow⟩
    · exact (h other call hold).congr (fun h => ⟨h, rfl⟩) id fun _ => id
  | enqueued key message queue hcall =>
    obtain ⟨hne, hold⟩ := update_none_eq_some.mp hcall'
    have hapart := lock_apart (h key _ hcall).1 hne
    exact (h other call hold).congr (fun h => ⟨h, rfl⟩) (fun h => absurd h hapart) fun _ => id
  | locked key finished result hlock hcall =>
    obtain ⟨rfl, hnew⟩ | ⟨-, hold⟩ := update_eq_some.mp hcall'
    · cases hnew
      rfl
    · exact (h other call hold).congr (by simp [hlock]) id fun _ => id
  | released key finished result hcall =>
    obtain ⟨hne, hold⟩ := update_none_eq_some.mp hcall'
    have hapart := lock_apart (h key _ hcall) hne
    exact (h other call hold).congr (fun h => absurd h hapart) id fun _ _ => rfl
  | settled action promise hlock =>
    exact (h other call hcall').congr (by simp [hlock]) id fun _ => id
  | finishing key promise =>
    obtain ⟨-, hnew⟩ | ⟨-, hold⟩ := update_eq_some.mp hcall'
    · cases hnew
      trivial
    · exact (h other call hold).congr (fun h => ⟨h, rfl⟩) id fun _ => id
  | dropped row => exact (h other call hcall').congr (fun h => ⟨h, rfl⟩) id fun _ _ => rfl
  | adopted row resumption hboot hlock =>
    exact (h other call hcall').congr (by simp [hlock]) id fun _ => id
  | idle | started | listed | judged | taken | resumed | queued | facts =>
    exact (h other call hcall').congr (fun h => ⟨h, rfl⟩) id fun _ => id

/-! ## The slot and its row -/

/-- The launch has neither taken the slot nor carried anything out. -/
structure Fresh (s : State) : Prop where
  pending : s.pending = none
  tasks : s.tasks = []
  running : s.running = []
  finishing : s.finishing = []
  calls : ∀ key call, s.calls key = some call → call.early = true

/-- What startup has at hand. -/
def Boot.row? : Boot → Option AfterTurnRow
  | .listed row | .judged row _ => some row
  | .unlisted | .done => none

/-- Startup is yet to carry out or to adopt what the last launch left. -/
def Booting (s : State) : Prop := (s.boot = .unlisted ∧ s.scheduled = false) ∨ s.boot.row?.isSome

/-- The slot has its row, and nothing precedes what startup does with the row. -/
structure Recorded (s : State) : Prop where
  durable : ∀ slot, s.pending = some slot → ∃ row, s.row = some row ∧
    row.promise = slot.promise ∧ AfterTurn.of row.action = slot.action
  fresh : Booting s → Fresh s
  booted : ∀ row, s.boot.row? = some row → s.row = some row

namespace Fresh

variable {s : State}

theorem not_late (h : Fresh s) (hcall : s.calls key = some call) : call.early ≠ false := by
  simp [h.calls key call hcall]

/-- A launch stays fresh while calls go on that are early. -/
theorem update (h : Fresh s) {call : Option Call}
    (hcalls : s'.calls = Function.update s.calls key call)
    (hearly : ∀ new, call = some new → new.early = true) (hpending : s'.pending = s.pending)
    (htasks : s'.tasks = s.tasks) (hrunning : s'.running = s.running)
    (hfinishing : s'.finishing = s.finishing) : Fresh s' := by
  refine ⟨hpending.trans h.pending, htasks.trans h.tasks, hrunning.trans h.running,
    hfinishing.trans h.finishing, fun other call' hcall' => ?_⟩
  obtain ⟨-, hnew⟩ | ⟨-, hold⟩ := update_eq_some.mp (hcalls ▸ hcall')
  · exact hearly call' hnew
  · exact h.calls other call' hold

theorem erase (h : Fresh s) (hcalls : s'.calls = Function.update s.calls key none)
    (hpending : s'.pending = s.pending) (htasks : s'.tasks = s.tasks)
    (hrunning : s'.running = s.running) (hfinishing : s'.finishing = s.finishing) : Fresh s' :=
  h.update hcalls (by simp) hpending htasks hrunning hfinishing

end Fresh

/-- A row that startup has at hand is there, and the launch is fresh. -/
theorem Recorded.of_boot (h : Recorded s) (hboot : s.boot.row? = some row) :
    Fresh s ∧ s.row = some row :=
  ⟨h.fresh (.inr (by simp [hboot])), h.booted row hboot⟩

theorem Recorded.of_judged (h : Recorded s) {resumption : Resumption}
    (hboot : s.boot = .judged row resumption) : Fresh s ∧ s.row = some row :=
  h.of_boot (by simp [hboot, Boot.row?])

theorem Recorded.effect (hheld : Held s) (h : Recorded s) (he : Effect sessionId s s') :
    Recorded s' := by
  cases he with
  | idle => exact h
  | goesOn key call hfree hnone hunfinished hearly =>
    refine
      { h with fresh := fun hb => (h.fresh hb).update rfl (fun new hnew => ?_) rfl rfl rfl rfl }
    cases hnew
    obtain hearly | hpending | ⟨old, hold, hlate⟩ := hearly
    · exact hearly
    · exact absurd (h.fresh hb).pending hpending
    · exact absurd hlate ((h.fresh hb).not_late hold)
  | answered key result =>
    exact { h with fresh := fun hb => (h.fresh hb).erase rfl rfl rfl rfl rfl }
  | unlocked key result action hcall =>
    exact { h with fresh := fun hb => (h.fresh hb).erase rfl rfl rfl rfl rfl }
  | unwritten key result message hcall =>
    exact { h with fresh := fun hb => (h.fresh hb).erase rfl rfl rfl rfl rfl }
  | vacant key action =>
    exact
      { h with
        fresh := fun hb => (h.fresh hb).update rfl (by simp [Call.early]) rfl rfl rfl rfl }
  | slotted key action hwriter hcall =>
    -- Startup has no row at hand: the schedule found none.
    have hnone : s.boot.row? = none := by
      by_contra hboot
      obtain ⟨row, hrow⟩ := Option.ne_none_iff_exists'.mp hboot
      simpa [(h.of_boot hrow).2] using (hheld key _ hcall).2.2
    exact
      { durable := by simp
        fresh := by simp [Booting, setCall, hnone]
        booted := by simp [setCall, hnone] }
  | checked key action promise hcall =>
    exact { h with fresh := fun hb => absurd rfl ((h.fresh hb).not_late hcall) }
  | removing key action promise hcall =>
    exact { h with fresh := fun hb => absurd rfl ((h.fresh hb).not_late hcall) }
  | scheduled key action promise hcall =>
    exact { h with fresh := fun hb => absurd rfl ((h.fresh hb).not_late hcall) }
  | writing key message =>
    exact
      { h with
        fresh := fun hb => (h.fresh hb).update rfl (by simp [Call.early]) rfl rfl rfl rfl }
  | admitted key message =>
    exact
      { h with
        fresh := fun hb => (h.fresh hb).update rfl (by simp [Call.early]) rfl rfl rfl rfl }
  | enqueued key message queue =>
    exact { h with fresh := fun hb => (h.fresh hb).erase rfl rfl rfl rfl rfl }
  | locked key finished result hlock hcall =>
    exact { h with fresh := fun hb => absurd rfl ((h.fresh hb).not_late hcall) }
  | released key finished result hcall =>
    exact
      { durable := by simp
        fresh := fun hb => absurd rfl ((h.fresh hb).not_late hcall)
        booted := fun row hboot => absurd rfl ((h.of_boot hboot).1.not_late hcall) }
  | settled action promise hlock hpending =>
    refine { h with durable := ?_, fresh := fun hb => ?_ }
    · rintro slot ⟨⟩
      exact h.durable ⟨action, promise, true⟩ hpending
    · simp [(h.fresh hb).pending] at hpending
  | started promise htask =>
    exact { h with fresh := fun hb => by simp [(h.fresh hb).tasks] at htask }
  | finishing key promise hrunning =>
    exact { h with fresh := fun hb => by simp [(h.fresh hb).running] at hrunning }
  | listed hboot hrow =>
    refine { h with fresh := fun hb => ?_, booted := fun row hrow' => ?_ }
    · cases hs : s.row with
      | none => simp [Booting, hs, Boot.row?] at hb
      | some row => exact { h.fresh (.inl ⟨hboot, hrow (by simp [hs])⟩) with }
    · cases hs : s.row with
      | none => simp [hs, Boot.row?] at hrow'
      | some row => simpa [hs, Boot.row?] using hrow'
  | judged row hboot resumption =>
    have hrow? : s.boot.row? = some row := by simp [hboot, Boot.row?]
    obtain ⟨hfresh, hrow⟩ := h.of_boot hrow?
    exact { h with fresh := fun _ => { hfresh with }, booted := by simp [Boot.row?, hrow] }
  | dropped row resumption hboot =>
    obtain ⟨hfresh, hrow⟩ := h.of_judged hboot
    exact
      { durable := by simp [hfresh.pending]
        fresh := by simp [Booting, Boot.row?]
        booted := by simp [Boot.row?] }
  | adopted row resumption hboot =>
    obtain ⟨hfresh, hrow⟩ := h.of_judged hboot
    exact
      { durable := by simp [hrow]
        fresh := by simp [Booting, Boot.row?]
        booted := by simp [Boot.row?] }
  | taken => exact { h with fresh := by simp [Booting, Boot.row?], booted := by simp [Boot.row?] }
  | resumed row =>
    exact { h with fresh := by simp [Booting, Boot.row?], booted := by simp [Boot.row?] }
  | queued queue => exact { h with fresh := fun hb => { h.fresh hb with } }
  | facts => exact { h with fresh := fun hb => { h.fresh hb with } }
  | restarted delivered =>
    exact
      { durable := by simp [step]
        fresh := fun _ => ⟨rfl, rfl, rfl, rfl, by simp [step]⟩
        booted := by simp [step, Boot.row?] }

/-! ## Promises -/

/-- Every promise was drawn. -/
structure Numbered (s : State) : Prop where
  row : ∀ row, s.row = some row → row.promise < s.promises
  calls : ∀ key call, s.calls key = some call →
    (∀ promise, call.promise? = some promise → promise < s.promises) ∧
      ∀ promise, call.finished? = some promise → promise < s.promises
  tasks : ∀ task ∈ s.tasks, task.1 < s.promises
  running : ∀ promise ∈ s.running, promise < s.promises
  checked : ∀ promise ∈ s.checked, promise < s.promises
  started : ∀ promise ∈ s.started, promise < s.promises
  released : ∀ promise ∈ s.released, promise < s.promises

namespace Numbered

variable {s : State}

/-- The bounds of the calls when one of them goes on. -/
theorem calls_of_update (h : Numbered s)
    (hpromise : ∀ call, new = some call → ∀ promise, call.promise? = some promise →
      promise < s.promises)
    (hfinished : ∀ call, new = some call → ∀ promise, call.finished? = some promise →
      promise < s.promises) (hcall : Function.update s.calls key new other = some call) :
    (∀ promise, call.promise? = some promise → promise < s.promises) ∧
      ∀ promise, call.finished? = some promise → promise < s.promises := by
  obtain ⟨-, hnew⟩ | ⟨-, hold⟩ := update_eq_some.mp hcall
  · exact ⟨hpromise call hnew, hfinished call hnew⟩
  · exact h.calls other call hold

theorem calls_of_erase (h : Numbered s) (hcall : Function.update s.calls key none other = some call) :
    (∀ promise, call.promise? = some promise → promise < s.promises) ∧
      ∀ promise, call.finished? = some promise → promise < s.promises :=
  h.calls other call (update_none_eq_some.mp hcall).2

end Numbered

theorem Numbered.effect (hrec : Recorded s) (h : Numbered s) (he : Effect sessionId s s') :
    Numbered s' := by
  cases he with
  | idle => exact h
  | goesOn key call hfree hnone hunfinished =>
    exact
      { h with
        calls := fun other call' hcall' =>
          h.calls_of_update (by simp [hnone]) (by simp [hunfinished]) hcall' }
  | answered key | unlocked key | unwritten key | enqueued key =>
    exact { h with calls := fun other call' hcall' => h.calls_of_erase hcall' }
  | vacant key | writing key | admitted key =>
    exact
      { h with
        calls := fun other call' hcall' =>
          h.calls_of_update (by simp [Call.promise?]) (by simp [Call.finished?]) hcall' }
  | slotted key action =>
    have hlt : ∀ {promise : ℕ}, promise < s.promises → promise < s.promises + 1 := by omega
    refine ⟨by simp, fun other call' hcall' => ?_, fun task ht => hlt (h.tasks task ht),
      fun p hp => hlt (h.running p hp), fun p hp => hlt (h.checked p hp),
      fun p hp => hlt (h.started p hp), fun p hp => hlt (h.released p hp)⟩
    obtain ⟨-, hnew⟩ | ⟨-, hold⟩ := update_eq_some.mp hcall'
    · cases hnew
      simp [Call.promise?, Call.finished?]
    · exact ⟨fun p hp => hlt ((h.calls other call' hold).1 p hp),
        fun p hp => hlt ((h.calls other call' hold).2 p hp)⟩
  | checked key action promise hcall =>
    have hpromise := (h.calls key _ hcall).1 promise rfl
    exact
      { h with
        calls := fun other call' hcall' =>
          h.calls_of_update (by simpa [Call.promise?] using hpromise) (by simp [Call.finished?])
            hcall'
        checked := List.forall_mem_cons.mpr ⟨hpromise, h.checked⟩ }
  | removing key action promise hcall =>
    have hpromise := (h.calls key _ hcall).1 promise rfl
    exact
      { h with
        calls := fun other call' hcall' => h.calls_of_erase hcall'
        tasks := List.forall_mem_cons.mpr ⟨hpromise, h.tasks⟩
        checked := List.forall_mem_cons.mpr ⟨hpromise, h.checked⟩ }
  | scheduled key action promise hcall =>
    exact
      { h with
        calls := fun other call' hcall' => h.calls_of_erase hcall'
        tasks := List.forall_mem_cons.mpr ⟨(h.calls key _ hcall).1 promise rfl, h.tasks⟩ }
  | locked key finished result hlock hcall =>
    have hfinished := (h.calls key _ hcall).2
    exact
      { h with
        calls := fun other call' hcall' =>
          h.calls_of_update (by simp [Call.promise?])
            (by simpa [Call.finished?] using hfinished) hcall' }
  | released key finished result hcall =>
    refine
      { h with
        row := by simp
        calls := fun other call' hcall' => h.calls_of_erase hcall'
        released := fun promise hpromise => ?_ }
    simp only [List.mem_append, Option.mem_toList, Option.map_eq_some_iff] at hpromise
    obtain ((hfinished | ⟨slot, hslot, rfl⟩) | ⟨row, hrow, rfl⟩) | hold := hpromise
    · exact (h.calls key _ hcall).2 promise hfinished
    · obtain ⟨row, hrow, hpromise, -⟩ := hrec.durable slot hslot
      exact hpromise ▸ h.row row hrow
    · exact h.row row hrow
    · exact h.released promise hold
  | settled | listed | judged | taken | queued | facts => exact { h with }
  | started promise htask =>
    obtain ⟨task, hmem, rfl⟩ := List.mem_map.mp htask
    exact
      { h with
        tasks := fun task' htask' => h.tasks task' (List.mem_of_mem_filter htask')
        running := List.forall_mem_cons.mpr ⟨h.tasks task hmem, h.running⟩
        started := List.forall_mem_cons.mpr ⟨h.tasks task hmem, h.started⟩ }
  | finishing key promise hrunning =>
    exact
      { h with
        calls := fun other call' hcall' =>
          h.calls_of_update (by simp [Call.promise?])
            (by simpa [Call.finished?] using h.running promise hrunning) hcall'
        running := fun p hp => h.running p (List.mem_of_mem_erase hp) }
  | dropped row resumption hboot =>
    refine { h with row := by simp, released := fun promise hpromise => ?_ }
    simp only [List.mem_append, Option.mem_toList, Option.map_eq_some_iff] at hpromise
    obtain ⟨row, hrow, rfl⟩ | hold := hpromise
    · exact h.row row hrow
    · exact h.released promise hold
  | adopted row resumption hboot =>
    have hrow := (hrec.of_judged hboot).2
    exact { h with tasks := List.forall_mem_cons.mpr ⟨h.row row hrow, h.tasks⟩ }
  | resumed row resumption hboot =>
    have hrow := (hrec.of_judged hboot).2
    exact
      { h with
        running := List.forall_mem_cons.mpr ⟨h.row row hrow, h.running⟩
        started := List.forall_mem_cons.mpr ⟨h.row row hrow, h.started⟩ }
  | restarted delivered =>
    exact
      { h with
        calls := by simp [step]
        tasks := by simp [step]
        running := by simp [step] }

/-! ## The queue -/

/-- No follow-up is queued or being sent beside an action whose schedule has looked. -/
def Emptied (sessionId : String) (s : State) : Prop :=
  ∀ row, s.row = some row → row.promise ∈ s.checked → s.queue.IsEmpty sessionId

theorem Emptied.effect (hheld : Held s) (hnum : Numbered s) (h : Emptied sessionId s)
    (he : Effect sessionId s s') : Emptied sessionId s' := by
  cases he with
  | slotted key action =>
    rintro row ⟨⟩ hchecked
    exact absurd (hnum.checked _ hchecked) (by simp)
  | checked key action promise hcall hempty => exact fun _ _ _ => hempty
  | removing key action promise hcall hempty => exact fun _ _ _ => hempty
  | enqueued key message queue hcall =>
    -- There is no row: the call has the writer connection since it found no slot.
    intro row hrow
    simp [answer, setCall, (hheld key _ hcall).2] at hrow
  | released | dropped => exact fun row hrow => by simp at hrow
  | queued queue hqueue => exact fun row hrow hchecked => hqueue (h row hrow hchecked)
  | restarted delivered => exact fun row hrow hchecked => (h row hrow hchecked).recover delivered
  | idle | goesOn | answered | unlocked | unwritten | vacant | scheduled | writing | admitted
  | locked | settled | started | finishing | listed | judged | adopted | taken | resumed
  | facts => exact h

/-- Nothing is left of what was released. -/
def Gone (s : State) : Prop := ∀ promise ∈ s.released, ∀ row, s.row = some row →
  row.promise ≠ promise

theorem Gone.effect (hnum : Numbered s) (h : Gone s) (he : Effect sessionId s s') : Gone s' := by
  cases he with
  | slotted key action =>
    rintro promise hpromise row ⟨⟩
    exact (hnum.released promise hpromise).ne'
  | released | dropped => exact fun promise _ row hrow => by simp at hrow
  | idle | goesOn | answered | unlocked | unwritten | vacant | checked | removing | scheduled
  | writing | admitted | enqueued | locked | settled | started | finishing | listed | judged
  | adopted | taken | resumed | queued | facts | restarted => exact h

/-! ## Starts -/

/-- An action is started once, and once more for each launch that ended while it was carried
out. What is yet to be started is where it can start from once. -/
structure Once (s : State) : Prop where
  bound : ∀ promise, s.started.count promise ≤ 1 + s.interrupted.count promise
  row : ∀ row, s.row = some row →
    s.started.count row.promise ≤ s.interrupted.count row.promise ∨
      row.promise ∈ s.running ∨ row.promise ∈ s.finishing
  nodup : (s.tasks.map (·.1)).Nodup
  tasks : ∀ task ∈ s.tasks, s.started.count task.1 ≤ s.interrupted.count task.1
  calls : ∀ key call promise, s.calls key = some call → call.promise? = some promise →
    promise ∉ s.tasks.map (·.1) ∧ s.started.count promise ≤ s.interrupted.count promise
  apart : ∀ key key' call call' promise, s.calls key = some call → s.calls key' = some call' →
    call.promise? = some promise → call'.promise? = some promise → key = key'

namespace Call

theorem promise?_of_early (h : call.early = true) : call.promise? = none := by
  cases call with
  | schedule action stage => cases stage <;> simp_all [early, promise?]
  | send | abort | release => rfl

end Call

/-- The promises of the calls, after one of them goes on with the promise it had or with none. -/
def Keeps (s : State) (key : ℕ) (new : Option Call) : Prop :=
  ∀ call promise, new = some call → call.promise? = some promise →
    ∃ old, s.calls key = some old ∧ old.promise? = some promise

namespace Keeps

variable {s : State} {key : ℕ} {new : Option Call}

theorem of_none (h : ∀ call, new = some call → call.promise? = none) : Keeps s key new := by
  intro call promise hnew hpromise
  simp [h call hnew] at hpromise

/-- What a call has after the update, it had before. -/
theorem before (h : Keeps s key new) {promise : ℕ}
    (hcall : Function.update s.calls key new other = some call)
    (hpromise : call.promise? = some promise) :
    ∃ old, s.calls other = some old ∧ old.promise? = some promise := by
  obtain ⟨rfl, hnew⟩ | ⟨-, hold⟩ := update_eq_some.mp hcall
  · exact h call promise hnew hpromise
  · exact ⟨call, hold, hpromise⟩

end Keeps

namespace Once

variable {s : State}

theorem calls_of_keeps (h : Once s) (hkeeps : Keeps s key new) (other : ℕ) (call : Call)
    (promise : ℕ) (hcall : Function.update s.calls key new other = some call)
    (hpromise : call.promise? = some promise) :
    promise ∉ s.tasks.map (·.1) ∧ s.started.count promise ≤ s.interrupted.count promise := by
  obtain ⟨old, hold, hpromise⟩ := hkeeps.before hcall hpromise
  exact h.calls other old promise hold hpromise

theorem apart_of_keeps (h : Once s) (hkeeps : Keeps s key new) (other other' : ℕ)
    (call call' : Call) (promise : ℕ) (hcall : Function.update s.calls key new other = some call)
    (hcall' : Function.update s.calls key new other' = some call')
    (hpromise : call.promise? = some promise) (hpromise' : call'.promise? = some promise) :
    other = other' := by
  obtain ⟨old, hold, hpromise⟩ := hkeeps.before hcall hpromise
  obtain ⟨old', hold', hpromise'⟩ := hkeeps.before hcall' hpromise'
  exact h.apart other other' old old' promise hold hold' hpromise hpromise'

/-- A call goes on with the promise it had or with none. -/
theorem update (h : Once s) (hkeeps : Keeps s key new)
    (hcalls : s'.calls = Function.update s.calls key new) (hstarted : s'.started = s.started)
    (hinterrupted : s'.interrupted = s.interrupted) (htasks : s'.tasks = s.tasks)
    (hrow : ∀ row, s'.row = some row → s.row = some row)
    (hrunning : ∀ promise, promise ∈ s.running ∨ promise ∈ s.finishing → s'.row ≠ none →
      promise ∈ s'.running ∨ promise ∈ s'.finishing) : Once s' := by
  constructor
  · simpa [hstarted, hinterrupted] using h.bound
  · intro row hrow'
    rw [hstarted, hinterrupted]
    exact (h.row row (hrow row hrow')).imp_right fun hin => hrunning _ hin (by simp [hrow'])
  · simpa [htasks] using h.nodup
  · simpa [hstarted, hinterrupted, htasks] using h.tasks
  · simpa [hcalls, hstarted, hinterrupted, htasks] using h.calls_of_keeps hkeeps
  · simpa [hcalls] using h.apart_of_keeps hkeeps

/-- The task of a promise is spawned. -/
theorem spawn (h : Once s) {old : Call} {promise : ℕ} (hcall : s.calls key = some old)
    (hpromise : old.promise? = some promise) (hcalls : s'.calls = Function.update s.calls key none)
    (hstarted : s'.started = s.started) (hinterrupted : s'.interrupted = s.interrupted)
    (htasks : s'.tasks = (promise, action) :: s.tasks) (hrow : s'.row = s.row)
    (hrunning : s'.running = s.running) (hfinishing : s'.finishing = s.finishing) : Once s' := by
  obtain ⟨hfree, hcount⟩ := h.calls key old promise hcall hpromise
  constructor
  · simpa [hstarted, hinterrupted] using h.bound
  · simpa [hstarted, hinterrupted, hrow, hrunning, hfinishing] using h.row
  · rw [htasks]
    exact List.nodup_cons.mpr ⟨hfree, h.nodup⟩
  · rw [htasks, hstarted, hinterrupted]
    exact List.forall_mem_cons.mpr ⟨hcount, h.tasks⟩
  · intro other call promise' hcall' hpromise'
    rw [hcalls] at hcall'
    obtain ⟨hne, hold⟩ := update_none_eq_some.mp hcall'
    obtain ⟨hfree', hcount'⟩ := h.calls other call promise' hold hpromise'
    have hapart : promise' ≠ promise := by
      rintro rfl
      exact hne (h.apart other key call old _ hold hcall hpromise' hpromise)
    rw [hstarted, hinterrupted]
    exact ⟨by simp_all, hcount'⟩
  · intro other other' call call' promise' hcall' hcall'' hpromise' hpromise''
    rw [hcalls] at hcall' hcall''
    exact h.apart other other' call call' promise' (update_none_eq_some.mp hcall').2 (update_none_eq_some.mp hcall'').2
      hpromise' hpromise''

/-- A task starts. -/
theorem startTask (h : Once s) {promise : ℕ} (htask : promise ∈ s.tasks.map (·.1)) :
    Once
      { s with
        tasks := s.tasks.filter fun task => task.1 != promise
        running := promise :: s.running
        started := promise :: s.started } := by
  have hcount : s.started.count promise ≤ s.interrupted.count promise := by
    obtain ⟨task, hmem, rfl⟩ := List.mem_map.mp htask
    exact h.tasks task hmem
  constructor
  · intro promise'
    have hbound := h.bound promise'
    by_cases heq : promise' = promise
    · subst heq
      simp
      omega
    · simpa [List.count_cons_of_ne (Ne.symm heq)] using hbound
  · intro row hrow
    by_cases heq : row.promise = promise
    · exact .inr (.inl (by simp [heq]))
    · have hkept := h.row row hrow
      simpa [List.count_cons_of_ne (Ne.symm heq), heq] using hkept
  · exact h.nodup.sublist (List.filter_sublist.map _)
  · intro task hmem
    obtain ⟨hmem, hne⟩ := List.mem_filter.mp hmem
    have hne : task.1 ≠ promise := by simpa using hne
    simpa [List.count_cons_of_ne hne.symm] using h.tasks task hmem
  · intro key call promise' hcall hpromise
    obtain ⟨hfree, hcount'⟩ := h.calls key call promise' hcall hpromise
    have hne : promise ≠ promise' := by
      rintro rfl
      exact hfree htask
    refine ⟨fun hin => hfree ?_, by simpa [List.count_cons_of_ne hne] using hcount'⟩
    obtain ⟨task, hmem, heq⟩ := List.mem_map.mp hin
    exact List.mem_map.mpr ⟨task, List.mem_of_mem_filter hmem, heq⟩
  · exact h.apart

/-- A schedule takes the slot with a promise that was not made before. -/
theorem slotted (h : Once s) (hnum : Numbered s)
    (hcalls : s'.calls =
      Function.update s.calls key (some (.schedule action (.slotted s.promises))))
    (hrow : s'.row = some ⟨action, s.promises⟩) (hstarted : s'.started = s.started)
    (hinterrupted : s'.interrupted = s.interrupted) (htasks : s'.tasks = s.tasks) : Once s' := by
  have hnew : s.started.count s.promises = 0 :=
    List.count_eq_zero.mpr fun hin => absurd (hnum.started _ hin) (by simp)
  have hfree : s.promises ∉ s.tasks.map (·.1) := by
    intro hin
    obtain ⟨task, hmem, heq⟩ := List.mem_map.mp hin
    exact absurd (hnum.tasks task hmem) (by omega)
  have hold : ∀ other call, s.calls other = some call → call.promise? ≠ some s.promises := by
    intro other call hcall hpromise
    exact absurd ((hnum.calls other call hcall).1 _ hpromise) (by simp)
  constructor
  · simpa [hstarted, hinterrupted] using h.bound
  · intro row hrow'
    rw [hrow] at hrow'
    cases hrow'
    rw [hstarted]
    exact .inl (hnew.trans_le (Nat.zero_le _))
  · simpa [htasks] using h.nodup
  · simpa [hstarted, hinterrupted, htasks] using h.tasks
  · intro other call promise hcall hpromise
    rw [hcalls] at hcall
    rw [hstarted, hinterrupted, htasks]
    obtain ⟨-, hc⟩ | ⟨-, hc⟩ := update_eq_some.mp hcall
    · cases hc
      cases hpromise
      exact ⟨hfree, by omega⟩
    · exact h.calls other call promise hc hpromise
  · intro other other' call call' promise hcall hcall' hpromise hpromise'
    rw [hcalls] at hcall hcall'
    obtain ⟨rfl, hc⟩ | ⟨-, hc⟩ := update_eq_some.mp hcall <;>
      obtain ⟨rfl, hc'⟩ | ⟨-, hc'⟩ := update_eq_some.mp hcall'
    · rfl
    · cases hc
      cases hpromise
      exact absurd hpromise' (hold _ _ hc')
    · cases hc'
      cases hpromise'
      exact absurd hpromise (hold _ _ hc)
    · exact h.apart other other' call call' promise hc hc' hpromise hpromise'

/-- Startup carries out the row that the last launch left. -/
theorem resumed (h : Once s) (hfresh : Fresh s) (hrow : s.row = some row) :
    Once
      { s with
        running := row.promise :: s.running
        started := row.promise :: s.started
        boot := .done } := by
  have hcount : s.started.count row.promise ≤ s.interrupted.count row.promise := by
    simpa [hfresh.running, hfresh.finishing] using h.row row hrow
  constructor
  · intro promise
    have hbound := h.bound promise
    by_cases heq : promise = row.promise
    · subst heq
      simp
      omega
    · simpa [List.count_cons_of_ne (Ne.symm heq)] using hbound
  · intro row' hrow'
    obtain rfl : row' = row := Option.some.inj (hrow'.symm.trans hrow)
    exact .inr (.inl (by simp))
  · exact h.nodup
  · simp [hfresh.tasks]
  · intro key call promise hcall hpromise
    simp [Call.promise?_of_early (hfresh.calls key call hcall)] at hpromise
  · exact h.apart

/-- Startup waits for a turn that still runs. -/
theorem adopted (h : Once s) (hfresh : Fresh s) (hrow : s.row = some row) :
    Once
      { s with
        pending := some ⟨.of row.action, row.promise, true⟩
        tasks := (row.promise, row.action) :: s.tasks
        boot := .done } := by
  have hcount : s.started.count row.promise ≤ s.interrupted.count row.promise := by
    simpa [hfresh.running, hfresh.finishing] using h.row row hrow
  refine { h with nodup := by simp [hfresh.tasks], tasks := ?_, calls := ?_ }
  · simpa [hfresh.tasks] using hcount
  · intro key call promise hcall hpromise
    simp [Call.promise?_of_early (hfresh.calls key call hcall)] at hpromise

/-- What was carried out when the launch ended may be started once more. -/
theorem restarted (h : Once s) (delivered : String → Bool) :
    Once (step sessionId s (.restart delivered)) := by
  have hmore : ∀ promise, s.interrupted.count promise ≤
      (s.running ++ s.finishing ++ s.interrupted).count promise := by
    simp only [List.count_append]
    omega
  constructor
  · intro promise
    exact (h.bound promise).trans (Nat.add_le_add_left (hmore promise) 1)
  · intro row hrow
    left
    obtain hcount | hcarried := h.row row hrow
    · exact hcount.trans (hmore _)
    · have hone : 1 ≤ (s.running ++ s.finishing).count row.promise :=
        List.one_le_count_iff.mpr (by simpa using hcarried)
      have hbound := h.bound row.promise
      simp only [step, List.count_append] at hone ⊢
      omega
  · simp [step]
  · simp [step]
  · simp [step]
  · simp [step]

end Once

theorem Once.effect (hrec : Recorded s) (hnum : Numbered s) (h : Once s)
    (he : Effect sessionId s s') : Once s' := by
  cases he with
  | idle => exact h
  | goesOn key call hfree hnone =>
    exact h.update (.of_none (by simp [hnone])) rfl rfl rfl rfl (fun _ => id) fun _ hin _ => hin
  | answered | unlocked | unwritten | enqueued =>
    exact h.update (.of_none (by simp)) rfl rfl rfl rfl (fun _ => id) fun _ hin _ => hin
  | vacant | writing | admitted | locked =>
    exact h.update (.of_none (by simp [Call.promise?])) rfl rfl rfl rfl (fun _ => id)
      fun _ hin _ => hin
  | slotted key action => exact h.slotted hnum rfl rfl rfl rfl rfl
  | checked key action promise hcall =>
    refine h.update ?_ rfl rfl rfl rfl (fun _ => id) fun _ hin _ => hin
    rintro call promise' ⟨⟩ hpromise
    exact ⟨_, hcall, hpromise⟩
  | removing key action promise hcall => exact h.spawn hcall rfl rfl rfl rfl rfl rfl rfl rfl
  | scheduled key action promise hcall => exact h.spawn hcall rfl rfl rfl rfl rfl rfl rfl rfl
  | released =>
    exact h.update (.of_none (by simp)) rfl rfl rfl rfl (by simp) fun _ _ hrow => absurd rfl hrow
  | started promise htask => exact h.startTask htask
  | finishing key promise hrunning =>
    refine h.update (.of_none (by simp [Call.promise?])) rfl rfl rfl rfl (fun _ => id)
      fun promise' hin _ => ?_
    by_cases heq : promise' = promise
    · exact .inr (by simp [heq])
    · exact hin.imp (fun hin => (List.mem_erase_of_ne heq).mpr hin) (List.mem_cons_of_mem _)
  | dropped => exact { h with row := by simp }
  | adopted row resumption hboot =>
    obtain ⟨hfresh, hrow⟩ := hrec.of_judged hboot
    exact h.adopted hfresh hrow
  | resumed row resumption hboot =>
    obtain ⟨hfresh, hrow⟩ := hrec.of_judged hboot
    exact h.resumed hfresh hrow
  | restarted delivered => exact h.restarted delivered
  | settled | listed | judged | taken | queued | facts => exact { h with }

/-! ## Every ordered run -/

/-- What the steps keep together. -/
structure Kept (sessionId : String) (s : State) : Prop where
  held : Held s
  recorded : Recorded s
  numbered : Numbered s
  emptied : Emptied sessionId s
  gone : Gone s
  once : Once s

theorem Kept.start (facts : Facts) : Kept sessionId (.start facts) where
  held := fun _ _ hcall => by simp [State.start] at hcall
  recorded := ⟨by simp [State.start], fun _ => ⟨rfl, rfl, rfl, rfl, by simp [State.start]⟩,
    by simp [State.start, Boot.row?]⟩
  numbered := by constructor <;> simp [State.start]
  emptied := fun _ hrow => by simp [State.start] at hrow
  gone := fun _ hin => by simp [State.start] at hin
  once := by constructor <;> simp [State.start]

theorem Kept.of_step (h : Kept sessionId s) {a : Act} (hordered : Ordered sessionId s a) :
    Kept sessionId (step sessionId s a) :=
  have he := effect_step hordered
  { held := h.held.effect he
    recorded := h.recorded.effect h.held he
    numbered := h.numbered.effect h.recorded he
    emptied := h.emptied.effect h.held h.numbered he
    gone := h.gone.effect h.numbered he
    once := h.once.effect h.recorded h.numbered he }

theorem Kept.slotKept (h : Kept sessionId s) : SlotKept sessionId s where
  exclusive := fun row hrow hchecked => (h.emptied row hrow hchecked).memory
  durable := h.recorded.durable
  refused := fun key action existing ok hcall hlock hoccupied => by
    simp [step, hcall, stepSchedule, hlock, hoccupied]
  vacant := fun key action hcall => (h.held key _ hcall).2
  once := h.once.bound
  gone := by
    refine fun promise hreleased => ⟨fun slot hslot => ?_, h.gone promise hreleased⟩
    obtain ⟨row, hrow, hpromise, -⟩ := h.recorded.durable slot hslot
    exact hpromise ▸ h.gone promise hreleased row hrow

/-- **The after-turn slot.** Over every ordered run, the slot has its row, a second schedule is
refused, no follow-up is queued beside a scheduled action, each action is started once in the
launches that end while it is not carried out, and nothing is left of it when it is released. -/
theorem after_turn_slot (sessionId : String) (facts : Facts) (as : List Act)
    (hordered : Legal (step sessionId) (Ordered sessionId) (.start facts) as) :
    SlotKept sessionId (run (step sessionId) (.start facts) as) :=
  (hordered.invariant (I := Kept sessionId) (fun _ _ h hordered => h.of_step hordered)
    (.start facts)).slotKept

/-! ## Runs -/

/-- A turn of the session runs in a workspace that is open. -/
def turnRuns : Facts := ⟨some .running, some "active", false⟩

def archiveIt : AfterTurnAction := .archive ⟨"w", none⟩

def followUp : PendingMessage :=
  ⟨"m", "s", "And the tests?", "auto", none, none, none, none, false, [], [], none, none, "t", true⟩

/-- An archive is scheduled. -/
def schedules : List Act :=
  [.schedule 0 archiveIt, .proceed 0 true, .proceed 0 true, .proceed 0 true, .proceed 0 true]

/-- An archive is scheduled, carried out and finished. -/
theorem after_turn_slot_finished :
    SlotKept "s"
      (run (step "s") (.start turnRuns)
        (schedules ++ [.settle, .startTask 0, .finish 1 0, .proceed 1 true, .proceed 1 true])) :=
  after_turn_slot "s" turnRuns _
    ⟨trivial, trivial, trivial, fun _ _ hrow => absurd hrow List.not_mem_nil, trivial, trivial,
      trivial, trivial, trivial, rfl, trivial⟩

/-- The app ends while an archive is carried out, and the next launch carries it out again. And
a schedule finds the queue empty while the only follow-up is being sent, which then goes back to
the queue. -/
theorem started_again_or_queued :
    ¬ (run (step "s") (.start turnRuns)
        (schedules ++
          [.settle, .startTask 0, .restart fun _ => false,
            .facts ⟨some .failed, some "active", false⟩, .list, .judge, .resume])).started.Nodup ∧
      let s := run (step "s") (.start turnRuns)
        ([.send 1 followUp, .proceed 1 true, .proceed 1 true, .proceed 1 true, .proceed 1 true,
            .queue (.claim "m")] ++
          schedules ++ [.queue (.restore "m" (some .unsent))])
      s.pending = some ⟨.archive, 0, true⟩ ∧ 0 ∈ s.checked ∧ s.queue.memory.map (·.id) = ["m"] := by
  decide

end Argmax.SessionControl.AfterTurnSlot
