import Argmax.Lib.Transition
import Argmax.Providers.SessionHandles

/-!
# Whose process a session's is

A pending entry does not say which send put it there. A spawn task that was stopped and finds
the entry of a newer send takes it for its own. In runs where this does not happen the process
in the entry is that of its own send (`Inv.resolved`), each spawn under way has its entry or was
stopped (`Inv.inFlight`), and each process that runs and was not told to end is in the entry or in
the job that is about to tell it (`Inv.alive`).

## Main results

* `inv_step`: what a step keeps.
* `launch_owned`: the ownership of processes in undisturbed runs.
* `launch_owned_overlap`: two spawns that overlap.
-/

namespace Argmax.Providers.SessionHandles

open Argmax.Lib

/-- The process of an invocation runs and was not told to end. -/
def Alive (s : Service) (invocation : ℕ) : Prop :=
  ∃ sizes, s.spawns[invocation]? = some (.process ⟨false, false, sizes⟩)

/-- **Launch ownership.** -/
structure Owned (s : Service) (h : History) : Prop where
  /-- A handle replaces the pending entry of its own send. -/
  live : ∀ invocation, s.entry = some (.resolved invocation) →
    (invocation, some invocation) ∈ h.replaced
  replaced : ∀ invocation owner, (invocation, owner) ∈ h.replaced → owner = some invocation
  /-- A spawn that was stopped has no process, or it was told to end, or it is about to be. -/
  stopped : ∀ invocation ∈ h.stopped, ∀ process,
    s.spawns[invocation]? = some (.process process) → process.told = true ∨ process.gone = true ∨
      s.job = some ⟨some (.resolved invocation), false⟩
  cancelled : ∀ invocation ∈ h.cancelled, invocation ∈ h.stopped
  single : ∀ invocation other, Alive s invocation → Alive s other → invocation = other

/-- No spawn that was stopped comes back while a newer send has an entry. Before it launches it
only must not meet a handle. -/
def Undisturbed (state : State) : Act → Prop
  | .lookUp invocation => invocation ∈ state.history.stopped →
      state.service.spawns[invocation]? = some .starting →
        state.service.entry = none ∨ isPending state.service.entry = true
  | .fail invocation | .complete invocation => invocation ∈ state.history.stopped →
      state.service.inFlight invocation = true → state.service.entry = none
  | _ => True

instance decidableUndisturbed : (state : State) → (act : Act) → Decidable (Undisturbed state act)
  | _, .lookUp _ => inferInstanceAs (Decidable (_ → _ → _))
  | _, .fail _ | _, .complete _ => inferInstanceAs (Decidable (_ → _ → _))
  | _, .send | _, .stop | _, .finishTermination | _, .retireJob | _, .exit _ | _, .finishTurn _
  | _, .resize _ _ => inferInstanceAs (Decidable True)

/-! ## The invariant -/

structure Inv (s : Service) (h : History) : Prop where
  owner : s.entry = none → h.owner = none
  current : s.entry ≠ none → s.current = h.owner
  pending : ∀ ops, s.entry = some (.pending ops) →
    ∃ invocation, h.owner = some invocation ∧ s.inFlight invocation = true ∧ invocation ∉ h.stopped
  resolved : ∀ invocation, s.entry = some (.resolved invocation) →
    h.owner = some invocation ∧ (∃ process, s.spawns[invocation]? = some (.process process)) ∧
      invocation ∉ h.stopped ∧ (invocation, some invocation) ∈ h.replaced
  inFlight : ∀ invocation, s.inFlight invocation = true →
    invocation ∈ h.stopped ∨ h.owner = some invocation
  alive : ∀ invocation, Alive s invocation → s.entry = some (.resolved invocation) ∨
    s.job = some ⟨some (.resolved invocation), false⟩
  busy : s.terminating = true ∨ s.job.isSome = true → s.entry = none
  replaced : ∀ invocation owner, (invocation, owner) ∈ h.replaced → owner = some invocation
  cancelled : ∀ invocation ∈ h.cancelled, invocation ∈ h.stopped
  lt : ∀ invocation ∈ h.stopped, invocation < s.spawns.length

theorem Inv.owned {s : Service} {h : History} (hinv : Inv s h) : Owned s h where
  live := fun invocation hentry => (hinv.resolved invocation hentry).2.2.2
  replaced := hinv.replaced
  stopped := by
    intro invocation hstopped process hprocess
    obtain ⟨told, gone, sizes⟩ := process
    cases told with
    | true => exact .inl rfl
    | false => cases gone with
      | true => exact .inr (.inl rfl)
      | false =>
        refine .inr (.inr ((hinv.alive invocation ⟨sizes, hprocess⟩).resolve_left fun hentry => ?_))
        exact (hinv.resolved invocation hentry).2.2.1 hstopped
  cancelled := hinv.cancelled
  single := by
    intro invocation other halive hother
    have hjob : ∀ i j, s.entry = some (.resolved i) →
        s.job ≠ some ⟨some (.resolved j), false⟩ := by
      intro i j hentry hjob
      rw [hinv.busy (.inr (by rw [hjob]; rfl))] at hentry
      cases hentry
    rcases hinv.alive invocation halive with hentry | hterminated
    · rcases hinv.alive other hother with hentry' | hterminated'
      · rw [hentry] at hentry'
        cases hentry'
        rfl
      · exact absurd hterminated' (hjob _ _ hentry)
    · rcases hinv.alive other hother with hentry' | hterminated'
      · exact absurd hterminated (hjob _ _ hentry')
      · rw [hterminated] at hterminated'
        cases hterminated'
        rfl

variable {process : Process} {invocation : ℕ}

/-! ## The spawns after a step -/

section Spawns

variable {s : Service} {invocation other : ℕ} {spawn old : Spawn}

theorem inFlight_iff : s.inFlight invocation = true ↔
    s.spawns[invocation]? = some .starting ∨ s.spawns[invocation]? = some .launching := by
  simp [Service.inFlight]

theorem spawns_setSpawn (h : s.spawns[invocation]? = some old) :
    (s.setSpawn invocation spawn).spawns[other]? =
      if invocation = other then some spawn else s.spawns[other]? := by
  have hlt := (List.getElem?_eq_some_iff.mp h).1
  simp [Service.setSpawn, List.getElem?_set, hlt]

/-- A spawn that is not under way stays so, and the others stay as they are. -/
theorem inFlight_setSpawn (h : s.spawns[invocation]? = some old) :
    (s.setSpawn invocation spawn).inFlight other =
      if invocation = other then decide (spawn = .starting) || decide (spawn = .launching)
      else s.inFlight other := by
  unfold Service.inFlight
  rw [spawns_setSpawn h]
  split
  · simp
  · rfl

theorem alive_setSpawn (h : s.spawns[invocation]? = some old) :
    Alive (s.setSpawn invocation spawn) other ↔
      if invocation = other then ∃ sizes, spawn = .process ⟨false, false, sizes⟩
      else Alive s other := by
  unfold Alive
  rw [spawns_setSpawn h]
  split
  · simp
  · rfl

theorem length_setSpawn : (s.setSpawn invocation spawn).spawns.length = s.spawns.length :=
  List.length_set

theorem spawns_running (h : s.running invocation = some process) :
    s.spawns[invocation]? = some (.process process) ∧ process.gone = false := by
  unfold Service.running at h
  split at h
  · rename_i found hfound
    split at h
    · cases h
    · rename_i hgone
      cases h
      exact ⟨hfound, by simpa using hgone⟩
  · cases h

theorem lt_of_inFlight (h : s.inFlight invocation = true) : invocation < s.spawns.length := by
  rcases inFlight_iff.mp h with h | h
  · exact (List.getElem?_eq_some_iff.mp h).1
  · exact (List.getElem?_eq_some_iff.mp h).1

/-- A spawn with a process is not under way. -/
theorem not_inFlight_of_process (h : s.spawns[invocation]? = some (.process process)) :
    s.inFlight invocation = false := by
  simp [Service.inFlight, h]

/-- Telling a process to end leaves what is not a process. -/
theorem tell_eq (s : Service) (entry : Option HandleEntry) : s.tell entry = s ∨
    ∃ invocation process, entry = some (.resolved invocation) ∧
      s.spawns[invocation]? = some (.process process) ∧
      s.tell entry = s.setSpawn invocation (.process { process with told := true }) := by
  unfold Service.tell
  split
  · rename_i invocation
    split
    · exact .inr ⟨invocation, _, rfl, ‹_›, rfl⟩
    · exact .inl rfl
  · exact .inl rfl

theorem inFlight_tell (entry : Option HandleEntry) :
    (s.tell entry).inFlight other = s.inFlight other := by
  rcases tell_eq s entry with heq | ⟨invocation, process, -, hprocess, heq⟩
  · rw [heq]
  · rw [heq, inFlight_setSpawn hprocess]
    split
    · rename_i hsame
      rw [← hsame, not_inFlight_of_process hprocess]
      simp
    · rfl

theorem alive_tell {entry : Option HandleEntry} (h : Alive (s.tell entry) other) :
    Alive s other ∧ entry ≠ some (.resolved other) := by
  rcases tell_eq s entry with heq | ⟨invocation, process, rfl, hprocess, heq⟩
  · rw [heq] at h
    refine ⟨h, ?_⟩
    rintro rfl
    obtain ⟨sizes, hsizes⟩ := h
    simp only [Service.tell, hsizes] at heq
    have hspawn := @spawns_setSpawn s other other (.process ⟨true, false, sizes⟩) _ hsizes
    rw [heq, hsizes] at hspawn
    simp at hspawn
  · rw [heq, alive_setSpawn hprocess] at h
    split at h
    · obtain ⟨sizes, hsizes⟩ := h
      simp at hsizes
    · rename_i hne
      exact ⟨h, by simpa using hne⟩

theorem length_tell (entry : Option HandleEntry) :
    (s.tell entry).spawns.length = s.spawns.length := by
  rcases tell_eq s entry with heq | ⟨_, _, -, -, heq⟩
  · rw [heq]
  · rw [heq, length_setSpawn]

end Spawns

/-! ## One step -/

section Step

variable {s : Service} {h : History}

theorem inv_idle : Inv .idle ⟨none, [], [], []⟩ := by
  constructor <;> simp [Service.idle, Service.inFlight, Alive]

section

variable (hinv : Inv s h)
include hinv

/-- A send puts its entry there. -/
theorem inv_claim (hclaimable : s.claimable = true) :
    Inv s.claim { h with owner := some s.spawns.length } := by
  simp only [Service.claimable, Bool.and_eq_true, Option.isNone_iff_eq_none,
    Bool.not_eq_true'] at hclaimable
  obtain ⟨⟨hentry, hterminating⟩, hjob⟩ := hclaimable
  have hold : ∀ (invocation : ℕ) (spawn : Spawn), s.claim.spawns[invocation]? = some spawn →
      spawn ≠ .starting → s.spawns[invocation]? = some spawn := by
    intro invocation spawn hspawn hne
    simp only [Service.claim, List.getElem?_append] at hspawn
    split at hspawn
    · exact hspawn
    · rw [List.getElem?_singleton] at hspawn
      split at hspawn
      · cases hspawn
        exact absurd rfl hne
      · cases hspawn
  refine ⟨?_, ?_, ?_, ?_, ?_, ?_, ?_, hinv.replaced, hinv.cancelled, ?_⟩
  · simp [Service.claim]
  · simp [Service.claim]
  · intro ops hops
    refine ⟨s.spawns.length, rfl, ?_, fun hstopped => absurd (hinv.lt _ hstopped) (Nat.lt_irrefl _)⟩
    simp [Service.inFlight, Service.claim]
  · simp [Service.claim]
  · intro invocation hflight
    by_cases hlt : invocation < s.spawns.length
    · have hsame : s.inFlight invocation = true := by
        simpa [Service.inFlight, Service.claim, List.getElem?_append, hlt] using hflight
      rcases hinv.inFlight invocation hsame with hstopped | howner
      · exact .inl hstopped
      · rw [hinv.owner hentry] at howner
        cases howner
    · have hlt' := lt_of_inFlight hflight
      simp only [Service.claim, List.length_append, List.length_singleton] at hlt'
      obtain rfl : invocation = s.spawns.length := by omega
      exact .inr rfl
  · rintro invocation ⟨sizes, hsizes⟩
    rcases hinv.alive invocation ⟨sizes, hold _ _ hsizes (by simp)⟩ with hlive | hterminated
    · rw [hentry] at hlive
      cases hlive
    · rw [hjob] at hterminated
      cases hterminated
  · simp [Service.claim, hterminating, hjob]
  · intro invocation hstopped
    have hlt := hinv.lt invocation hstopped
    simp only [Service.claim, List.length_append]
    omega

/-- Stop takes the entry. -/
theorem inv_stop (hjob : s.job = none) :
    Inv { s with entry := none, terminating := true, job := some ⟨s.entry, false⟩ }
      { h with owner := none, stopped := h.owner.toList ++ h.stopped } := by
  refine ⟨fun _ => rfl, fun hne => absurd rfl hne, by simp, by simp, ?_, ?_, fun _ => rfl,
    hinv.replaced, ?_, ?_⟩
  · intro invocation hflight
    rcases hinv.inFlight invocation hflight with hstopped | howner
    · exact .inl (List.mem_append_right _ hstopped)
    · exact .inl (by simp [howner])
  · intro invocation halive
    rcases hinv.alive invocation halive with hlive | hterminated
    · exact .inr (by simp [hlive])
    · rw [hjob] at hterminated
      cases hterminated
  · intro invocation hcancelled
    exact List.mem_append_right _ (hinv.cancelled invocation hcancelled)
  · intro invocation hmem
    rcases List.mem_append.mp hmem with howner | hstopped
    · rw [Option.mem_toList] at howner
      cases hentry : s.entry with
      | none =>
        rw [hinv.owner hentry] at howner
        cases howner
      | some entry => cases entry with
        | pending ops =>
          obtain ⟨mine, hmine, hflight, -⟩ := hinv.pending ops hentry
          rw [hmine] at howner
          cases howner
          exact lt_of_inFlight hflight
        | resolved mine =>
          obtain ⟨hmine, ⟨process, hprocess⟩, -⟩ := hinv.resolved mine hentry
          rw [hmine] at howner
          cases howner
          exact (List.getElem?_eq_some_iff.mp hprocess).1
    · exact hinv.lt invocation hstopped

/-- The job tells the process to end. -/
theorem inv_finishTermination {entry : Option HandleEntry}
    (hjob : s.job = some ⟨entry, false⟩) :
    Inv { s.tell entry with terminating := false, current := none, job := some ⟨entry, true⟩ } h := by
  have hentry : (s.tell entry).entry = s.entry := by
    rcases tell_eq s entry with heq | ⟨_, _, -, -, heq⟩ <;> rw [heq]
    rfl
  have hnone : s.entry = none := hinv.busy (.inr (by rw [hjob]; rfl))
  rw [hnone] at hentry
  refine ⟨fun _ => hinv.owner hnone, fun hne => absurd hentry hne, ?_, ?_, ?_, ?_,
    fun _ => hentry, hinv.replaced, hinv.cancelled, ?_⟩
  · intro ops hops
    rw [hentry] at hops
    cases hops
  · intro invocation hlive
    rw [hentry] at hlive
    cases hlive
  · intro invocation hflight
    exact hinv.inFlight invocation ((inFlight_tell entry).symm.trans hflight)
  · intro invocation halive
    obtain ⟨halive, hne⟩ := alive_tell halive
    rcases hinv.alive invocation halive with hlive | hterminated
    · rw [hnone] at hlive
      cases hlive
    · rw [hjob] at hterminated
      injection hterminated with hterminated
      injection hterminated with hterminated
      exact absurd hterminated hne
  · intro invocation hstopped
    exact (length_tell entry).symm ▸ hinv.lt invocation hstopped

theorem inv_retireJob {entry : Option HandleEntry}
    (hjob : s.job = some ⟨entry, true⟩) : Inv { s with job := none } h where
  owner := hinv.owner
  current := hinv.current
  pending := hinv.pending
  resolved := hinv.resolved
  inFlight := hinv.inFlight
  alive := by
    intro invocation halive
    refine .inl ((hinv.alive invocation halive).resolve_right fun hterminated => ?_)
    rw [hjob] at hterminated
    simp at hterminated
  busy := fun hbusy => hinv.busy (hbusy.imp_right fun hsome => by simp at hsome)
  replaced := hinv.replaced
  cancelled := hinv.cancelled
  lt := hinv.lt

/-- A spawn goes on to the launcher. -/
theorem inv_launching (hstarting : s.spawns[invocation]? = some .starting) :
    Inv (s.setSpawn invocation .launching) h := by
  have hflight : ∀ other, (s.setSpawn invocation .launching).inFlight other = s.inFlight other := by
    intro other
    rw [inFlight_setSpawn hstarting]
    split
    · rename_i hsame
      subst hsame
      simp [Service.inFlight, hstarting]
    · rfl
  refine ⟨hinv.owner, hinv.current, ?_, ?_, ?_, ?_, hinv.busy, hinv.replaced, hinv.cancelled, ?_⟩
  · intro ops hops
    obtain ⟨mine, hmine, hmineFlight, hnot⟩ := hinv.pending ops hops
    exact ⟨mine, hmine, (hflight mine).trans hmineFlight, hnot⟩
  · intro other hlive
    obtain ⟨hmine, ⟨process, hprocess⟩, hrest⟩ := hinv.resolved other hlive
    refine ⟨hmine, ⟨process, ?_⟩, hrest⟩
    rw [spawns_setSpawn hstarting, if_neg]
    · exact hprocess
    · rintro rfl
      rw [hstarting] at hprocess
      cases hprocess
  · exact fun other hother => hinv.inFlight other ((hflight other).symm.trans hother)
  · intro other halive
    rw [alive_setSpawn hstarting] at halive
    split at halive
    · obtain ⟨sizes, hsizes⟩ := halive
      cases hsizes
    · exact hinv.alive other halive
  · exact fun other hstopped => length_setSpawn.symm ▸ hinv.lt other hstopped

/-- The entry of a spawn under way is its own, or it was stopped. -/
theorem entry_of_inFlight (hflight : s.inFlight invocation = true)
    (hundisturbed : invocation ∈ h.stopped → s.entry = none) :
    s.entry = none ∨ (isPending s.entry = true ∧ h.owner = some invocation) := by
  rcases hinv.inFlight invocation hflight with hstopped | howner
  · exact .inl (hundisturbed hstopped)
  · cases hentry : s.entry with
    | none => exact .inl rfl
    | some entry => cases entry with
      | pending ops => exact .inr ⟨rfl, howner⟩
      | resolved other =>
        obtain ⟨hmine, ⟨process, hprocess⟩, -⟩ := hinv.resolved other hentry
        rw [howner] at hmine
        cases hmine
        rw [not_inFlight_of_process hprocess] at hflight
        cases hflight

/-- A spawn under way ends without a process of the session, and takes its entry along. -/
theorem inv_gone {invocation : ℕ} {spawn : Spawn} {current : Option ℕ}
    {cancelled : List ℕ} (hflight : s.inFlight invocation = true)
    (hundisturbed : invocation ∈ h.stopped → s.entry = none)
    (hspawn : spawn ≠ .starting ∧ spawn ≠ .launching ∧
      ∀ sizes, spawn ≠ .process ⟨false, false, sizes⟩)
    (hcancelled : ∀ other ∈ cancelled, other ∈ h.stopped) :
    Inv { s.setSpawn invocation spawn with entry := none, current := current }
      { h with owner := none, cancelled := cancelled } := by
  obtain ⟨old, hold⟩ : ∃ old, s.spawns[invocation]? = some old :=
    (inFlight_iff.mp hflight).elim (fun h => ⟨_, h⟩) fun h => ⟨_, h⟩
  have hentry := entry_of_inFlight hinv hflight hundisturbed
  refine ⟨fun _ => rfl, fun hne => absurd rfl hne, by simp, by simp, ?_, ?_, fun _ => rfl,
    hinv.replaced, hcancelled, ?_⟩
  · intro other hother
    have hset : (s.setSpawn invocation spawn).inFlight other = true := hother
    rw [inFlight_setSpawn hold] at hset
    split at hset
    · simp [hspawn.1, hspawn.2.1] at hset
    · rename_i hne
      refine .inl ((hinv.inFlight other hset).resolve_right fun howner => ?_)
      rcases hentry with hnone | ⟨-, hmine⟩
      · rw [hinv.owner hnone] at howner
        cases howner
      · rw [hmine] at howner
        cases howner
        exact hne rfl
  · intro other hother
    have hset : Alive (s.setSpawn invocation spawn) other := hother
    rw [alive_setSpawn hold] at hset
    split at hset
    · obtain ⟨sizes, hsizes⟩ := hset
      exact absurd hsizes (hspawn.2.2 sizes)
    · refine .inr ((hinv.alive other hset).resolve_left fun hlive => ?_)
      rcases hentry with hnone | ⟨hpending, -⟩
      · rw [hnone] at hlive
        cases hlive
      · rw [hlive] at hpending
        cases hpending
  · exact fun other hstopped => length_setSpawn.symm ▸ hinv.lt other hstopped

/-- A spawn's handle takes the place of its entry. -/
theorem inv_resolve {ops : List (ℕ × ℕ)}
    (hlaunching : s.spawns[invocation]? = some .launching) (hentry : s.entry = some (.pending ops))
    (howner : h.owner = some invocation) :
    Inv { s.setSpawn invocation (.process ⟨false, false, ops⟩) with
        entry := some (.resolved invocation) }
      { h with owner := some invocation, replaced := (invocation, h.owner) :: h.replaced } := by
  have hnot : invocation ∉ h.stopped := by
    obtain ⟨mine, hmine, -, hnot⟩ := hinv.pending ops hentry
    rw [howner] at hmine
    cases hmine
    exact hnot
  have hbusy : ¬(s.terminating = true ∨ s.job.isSome = true) := by
    intro hbusy
    rw [hinv.busy hbusy] at hentry
    cases hentry
  refine ⟨by simp, fun _ => (hinv.current (by simp [hentry])).trans howner, by simp, ?_, ?_, ?_,
    fun h => absurd h hbusy, ?_, hinv.cancelled, ?_⟩
  · intro other hlive
    cases hlive
    refine ⟨rfl, ⟨⟨false, false, ops⟩, ?_⟩, hnot, by simp [howner]⟩
    exact (spawns_setSpawn hlaunching).trans (if_pos rfl)
  · intro other hother
    have hset : (s.setSpawn invocation (.process ⟨false, false, ops⟩)).inFlight other = true :=
      hother
    rw [inFlight_setSpawn hlaunching] at hset
    split at hset
    · simp at hset
    · rename_i hne
      refine .inl ((hinv.inFlight other hset).resolve_right fun hmine => hne ?_)
      rw [howner] at hmine
      cases hmine
      rfl
  · intro other hother
    have hset : Alive (s.setSpawn invocation (.process ⟨false, false, ops⟩)) other := hother
    rw [alive_setSpawn hlaunching] at hset
    split at hset
    · rename_i hsame
      exact .inl (by rw [hsame])
    · rcases hinv.alive other hset with hlive | hterminated
      · rw [hentry] at hlive
        cases hlive
      · exact absurd (.inr (by rw [hterminated]; rfl)) hbusy
  · intro other owner hmem
    rcases List.mem_cons.mp hmem with heq | hmem
    · cases heq
      exact howner
    · exact hinv.replaced other owner hmem
  · exact fun other hstopped => length_setSpawn.symm ▸ hinv.lt other hstopped

/-- A process goes on, or it ends. -/
theorem inv_setProcess {invocation : ℕ} {process process' : Process}
    (hprocess : s.spawns[invocation]? = some (.process process))
    (halive : process'.told = false → process'.gone = false →
      process.told = false ∧ process.gone = false) :
    Inv (s.setSpawn invocation (.process process')) h := by
  have hflight : ∀ other,
      (s.setSpawn invocation (.process process')).inFlight other = s.inFlight other := by
    intro other
    rw [inFlight_setSpawn hprocess]
    split
    · rename_i hsame
      rw [← hsame, not_inFlight_of_process hprocess]
      simp
    · rfl
  refine ⟨hinv.owner, hinv.current, ?_, ?_, ?_, ?_, hinv.busy, hinv.replaced, hinv.cancelled, ?_⟩
  · intro ops hops
    obtain ⟨mine, hmine, hmineFlight, hnot⟩ := hinv.pending ops hops
    exact ⟨mine, hmine, (hflight mine).trans hmineFlight, hnot⟩
  · intro other hlive
    obtain ⟨hmine, ⟨old, hold⟩, hrest⟩ := hinv.resolved other hlive
    refine ⟨hmine, ?_, hrest⟩
    rw [spawns_setSpawn hprocess]
    split
    · exact ⟨process', rfl⟩
    · exact ⟨old, hold⟩
  · exact fun other hother => hinv.inFlight other ((hflight other).symm.trans hother)
  · intro other hother
    rw [alive_setSpawn hprocess] at hother
    split at hother
    · rename_i hsame
      obtain ⟨sizes, hsizes⟩ := hother
      subst hsame
      refine hinv.alive invocation ⟨process.sizes, hprocess.trans ?_⟩
      obtain ⟨told, gone, sizes⟩ := process
      simp_all
    · exact hinv.alive other hother
  · exact fun other hstopped => length_setSpawn.symm ▸ hinv.lt other hstopped

theorem inv_tell (entry : Option HandleEntry) : Inv (s.tell entry) h := by
  rcases tell_eq s entry with heq | ⟨invocation, process, -, hprocess, heq⟩
  · rw [heq]
    exact hinv
  · rw [heq]
    exact inv_setProcess hinv hprocess (by simp)

/-- The entry of a process that ends goes with it. -/
theorem inv_clear (hpending : isPending s.entry = false)
    (hdead : ∀ invocation, s.entry = some (.resolved invocation) → ¬Alive s invocation) :
    Inv { s with entry := none, current := none } { h with owner := none } := by
  refine ⟨fun _ => rfl, fun hne => absurd rfl hne, by simp, by simp, ?_, ?_, fun _ => rfl,
    hinv.replaced, hinv.cancelled, hinv.lt⟩
  · intro invocation hflight
    refine .inl ((hinv.inFlight invocation hflight).resolve_right fun howner => ?_)
    cases hentry : s.entry with
    | none =>
      rw [hinv.owner hentry] at howner
      cases howner
    | some entry => cases entry with
      | pending ops =>
        rw [hentry] at hpending
        cases hpending
      | resolved mine =>
        obtain ⟨hmine, ⟨process, hprocess⟩, -⟩ := hinv.resolved mine hentry
        rw [howner] at hmine
        cases hmine
        have hnot : s.inFlight invocation = true := hflight
        rw [not_inFlight_of_process hprocess] at hnot
        cases hnot
  · intro invocation halive
    exact .inr ((hinv.alive invocation halive).resolve_left fun hlive => hdead _ hlive halive)

/-- The entry of the session while the process of its current invocation runs. -/
theorem entry_of_running (hcurrent : s.current = some invocation)
    (hprocess : s.spawns[invocation]? = some (.process process)) :
    s.entry = none ∨ s.entry = some (.resolved invocation) := by
  cases hentry : s.entry with
  | none => exact .inl rfl
  | some entry =>
    have howner := (hinv.current (by simp [hentry])).symm.trans hcurrent
    cases entry with
    | pending ops =>
      obtain ⟨mine, hmine, hflight, -⟩ := hinv.pending ops hentry
      rw [howner] at hmine
      cases hmine
      rw [not_inFlight_of_process hprocess] at hflight
      cases hflight
    | resolved mine =>
      have hmine := (hinv.resolved mine hentry).1
      rw [howner] at hmine
      cases hmine
      exact .inr rfl

theorem isPending_of_running (hcurrent : s.current = some invocation)
    (hprocess : s.spawns[invocation]? = some (.process process)) : isPending s.entry = false := by
  rcases entry_of_running hinv hcurrent hprocess with hentry | hentry <;> rw [hentry] <;> rfl

theorem inv_exit (invocation : ℕ) :
    Inv (step s (.exit invocation)) (observe s h (.exit invocation)) := by
  simp only [step, observe]
  cases hrunning : s.running invocation with
  | none => simpa using hinv
  | some process =>
    have hprocess := (spawns_running hrunning).1
    have hset := @inv_setProcess s h hinv invocation process { process with gone := true }
      hprocess (by simp)
    by_cases hcurrent : s.current = some invocation
    · have hpending := isPending_of_running hinv hcurrent hprocess
      simp only [Service.setSpawn, hcurrent]
      refine inv_clear hset hpending fun other hlive => ?_
      rcases entry_of_running hinv hcurrent hprocess with hentry | hentry
      · exact absurd (hentry.symm.trans hlive) (by simp)
      · cases hentry.symm.trans hlive
        rw [alive_setSpawn hprocess]
        simp
    · have hcurrent' : (s.setSpawn invocation
          (.process { process with gone := true })).current ≠ some invocation := hcurrent
      simpa only [hcurrent, hcurrent', and_false, if_false] using hset

theorem inv_finishTurn (invocation : ℕ) :
    Inv (step s (.finishTurn invocation)) (observe s h (.finishTurn invocation)) := by
  simp only [step, observe]
  split
  · rename_i hguard
    simp only [Bool.and_eq_true, decide_eq_true_eq, Option.isSome_iff_exists] at hguard
    obtain ⟨⟨⟨process, hrunning⟩, hcurrent⟩, -⟩ := hguard
    have hprocess := (spawns_running hrunning).1
    have hentry : (s.tell s.entry).entry = s.entry := by
      rcases tell_eq s s.entry with heq | ⟨_, _, -, -, heq⟩ <;> rw [heq]
      rfl
    refine inv_clear (inv_tell hinv s.entry) ?_ fun other hlive halive => ?_
    · rw [hentry]
      exact isPending_of_running hinv hcurrent hprocess
    · exact (alive_tell halive).2 (hentry.symm.trans hlive)
  · exact hinv

theorem inv_resize (cols rows : ℕ) : Inv (step s (.resize cols rows)) h := by
  simp only [step]
  split
  · rename_i ops hentry
    refine ⟨by simp, fun _ => hinv.current (by simp [hentry]), fun _ _ => hinv.pending ops hentry,
      by simp, hinv.inFlight, ?_, ?_, hinv.replaced, hinv.cancelled, hinv.lt⟩
    · intro invocation halive
      refine .inr ((hinv.alive invocation halive).resolve_left fun hlive => ?_)
      rw [hentry] at hlive
      cases hlive
    · intro hbusy
      rw [hinv.busy hbusy] at hentry
      cases hentry
  · split
    · rename_i process hrunning
      exact inv_setProcess hinv (spawns_running hrunning).1 fun htold hgone => ⟨htold, hgone⟩
    · exact hinv
  · exact hinv

/-- **What a step keeps.** -/
theorem inv_step {act : Act} (hundisturbed : Undisturbed ⟨s, h⟩ act) :
    Inv (step s act) (observe s h act) := by
  cases act with
  | send =>
    simp only [step, observe]
    split
    · exact inv_claim hinv ‹_›
    · exact hinv
  | stop =>
    simp only [step, observe]
    split
    · exact hinv
    · exact inv_stop hinv (by simpa using ‹¬s.job.isSome = true›)
  | finishTermination =>
    simp only [step]
    split
    · exact inv_finishTermination hinv ‹_›
    · exact hinv
  | retireJob =>
    simp only [step]
    split
    · exact inv_retireJob hinv ‹_›
    · exact hinv
  | lookUp invocation =>
    simp only [step, observe]
    by_cases hstarting : s.spawns[invocation]? = some .starting
    · have hflight : s.inFlight invocation = true := inFlight_iff.mpr (.inl hstarting)
      cases hentry : s.entry with
      | none =>
        simpa [hstarting, isPending, hentry, Service.launchFailed] using
          inv_gone hinv hflight (fun _ => hentry) ⟨by simp, by simp, by simp⟩ hinv.cancelled
      | some entry => cases entry with
        | pending ops =>
          simpa [hstarting, isPending] using inv_launching hinv hstarting
        | resolved other =>
          -- Its own entry was taken away, so the handle is that of a newer send.
          have hstopped := (hinv.inFlight invocation hflight).resolve_right fun howner => by
            obtain ⟨hmine, ⟨process, hprocess⟩, -⟩ := hinv.resolved other hentry
            rw [howner] at hmine
            cases hmine
            rw [hstarting] at hprocess
            cases hprocess
          have hquiet := hundisturbed hstopped hstarting
          simp [hentry, isPending] at hquiet
    · simpa [hstarting] using hinv
  | fail invocation =>
    simp only [step, observe]
    split
    · rename_i hflight
      exact inv_gone hinv hflight (fun hstopped => hundisturbed hstopped hflight)
        ⟨by simp, by simp, by simp⟩ hinv.cancelled
    · exact hinv
  | complete invocation =>
    simp only [step, observe]
    by_cases hlaunching : s.spawns[invocation]? = some .launching
    · have hflight : s.inFlight invocation = true := inFlight_iff.mpr (.inr hlaunching)
      rcases entry_of_inFlight hinv hflight (fun hstopped => hundisturbed hstopped hflight) with
        hentry | ⟨hpending, howner⟩
      · -- The handle found no pending entry: its own was taken away.
        have hstopped := (hinv.inFlight invocation hflight).resolve_right fun howner => by
          rw [hinv.owner hentry] at howner
          cases howner
        have hgone := @inv_gone s h hinv invocation (.process ⟨true, false, []⟩) s.current
          (invocation :: h.cancelled) hflight (fun _ => hentry) ⟨by simp, by simp, by simp⟩
          (List.forall_mem_cons.mpr ⟨hstopped, hinv.cancelled⟩)
        have hcurrent : (s.setSpawn invocation (.process ⟨true, false, []⟩)).current = s.current :=
          rfl
        simpa only [hlaunching, hentry, isPending, if_true, Bool.false_eq_true, if_false, hcurrent]
      · cases hentry : s.entry with
        | none =>
          rw [hentry] at hpending
          cases hpending
        | some entry => cases entry with
          | resolved other =>
            rw [hentry] at hpending
            cases hpending
          | pending ops =>
            simpa [hlaunching, isPending] using inv_resolve hinv hlaunching hentry howner
    · simpa [hlaunching] using hinv
  | exit invocation => exact inv_exit hinv invocation
  | finishTurn invocation => exact inv_finishTurn hinv invocation
  | resize cols rows => exact inv_resize hinv cols rows

end

end Step

/-! ## Runs -/

/-- **Launch ownership.** While no spawn that was stopped comes back to the entry of a newer send,
a handle takes the place of the entry of its own send only, a spawn that was stopped is told to
end, no other is, and one process at most runs that was not told to end. -/
theorem launch_owned (state : State) (hstart : state = .idle ∨ state = .launched) (acts : List Act)
    (hundisturbed : Legal State.step Undisturbed state acts) :
    Owned (run State.step state acts).service (run State.step state acts).history := by
  have hinv : Inv state.service state.history := by
    rcases hstart with rfl | rfl
    · exact inv_idle
    · exact inv_claim inv_idle (by decide)
  have hstep : ∀ (state : State) act, Inv state.service state.history → Undisturbed state act →
      Inv (state.step act).service (state.step act).history :=
    fun _ _ hinv hact => inv_step hinv hact
  exact (Legal.invariant hstep hundisturbed hinv).owned

/-- A stopped launch that is too late, and one that was not stopped. -/
theorem launch_owned_stopped :
    Legal State.step Undisturbed .launched [.lookUp 0, .stop, .finishTermination, .retireJob,
      .complete 0, .send, .lookUp 1, .complete 1, .stop] ∧
    Owned (run State.step .launched [.lookUp 0, .stop, .finishTermination, .retireJob,
      .complete 0, .send, .lookUp 1, .complete 1, .stop]).service
      (run State.step .launched [.lookUp 0, .stop, .finishTermination, .retireJob,
      .complete 0, .send, .lookUp 1, .complete 1, .stop]).history :=
  ⟨by decide, launch_owned .launched (.inr rfl) _ (by decide)⟩

/-- A launch is stopped, and its handle comes when the next send has an entry: the entry is that
of the send, whose own spawn is then taken for a stopped one. A third send adds a process. -/
theorem launch_owned_overlap :
    let acts : List Act := [.lookUp 0, .stop, .finishTermination, .retireJob, .send, .lookUp 1,
      .complete 0, .complete 1, .send, .lookUp 2, .complete 2]
    let state := run State.step .launched acts
    (0, some 1) ∈ state.history.replaced ∧ 0 ∈ state.history.stopped ∧
      1 ∈ state.history.cancelled ∧ 1 ∉ state.history.stopped ∧
      Alive state.service 0 ∧ Alive state.service 2 ∧ ¬Owned state.service state.history := by
  refine ⟨by decide, by decide, by decide, by decide, ⟨[], by decide⟩, ⟨[], by decide⟩, fun h => ?_⟩
  exact absurd (h.replaced 0 (some 1) (by decide)) (by decide)

end Argmax.Providers.SessionHandles
