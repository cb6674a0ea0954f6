import Argmax.Gh.WatchPlan
import Argmax.Lib.LastRead

/-!
# What the notices of a watch report

A run of passes over one watch, each with the cursors that the one before it returned. The
cursors hold what was read last: of a check and of green checks since the head last changed,
of a review or comment and of the conflict since the watch began. So a notice reports what a
pass reads when it was not read last.

Two entries with the key of one check may differ, and then the check is forgotten and found
failing in one pass. This is left out: `Unmixed`.
-/

namespace Argmax.Gh

open Argmax.Lib Argmax.Persistence.PrWatches

/-! ## Runs -/

/-- What one pass reads. -/
structure Poll where
  pr : WatchedPrState
  view : PrWatchView
  terminal : Option Terminal
  graph : Option PrFeedbackGraph
  cleanup : Option String

section Runs

variable (parseTime : String → Option ℤ) (sha256 : List UInt8 → String)

def planOf (watch : PrWatchRecord) (poll : Poll) : WatchPass :=
  planWatchPass parseTime sha256 watch poll.pr poll.view poll.terminal poll.graph poll.cleanup

/-- The watch with the cursors that the pass returned. -/
def afterPass (watch : PrWatchRecord) (poll : Poll) : PrWatchRecord :=
  withCursors (planOf parseTime sha256 watch poll).cursors watch

def watchRun (watch : PrWatchRecord) (polls : List Poll) : PrWatchRecord :=
  polls.foldl (afterPass parseTime sha256) watch

/-- The pass has a notice, and this is its news. -/
def Notice (watch : PrWatchRecord) (poll : Poll) (news : WatchNews) : Prop :=
  poll.terminal = none ∧ news = watchNews parseTime sha256 watch poll.pr poll.view poll.graph ∧
    (planOf parseTime sha256 watch poll).body =
      some (noticeBody watch.prNumber poll.pr
        (newsPart poll.pr.headSha poll.view poll.graph news).1
        (newsPart poll.pr.headSha poll.view poll.graph news).2)

end Runs

/-! ## Readings -/

/-- The check fails, in the first entry with its key. A pass that ends the watch reads none. -/
def checkRead (key : String) (poll : Poll) : Option Bool :=
  if poll.terminal.isSome then none
  else ((entries poll.view).find? fun entry => checkKey entry poll.pr.headSha == key).map fails

/-- All entries with the key are alike. -/
def Unmixed (key : String) (poll : Poll) : Prop :=
  ∀ entry ∈ entries poll.view, ∀ other ∈ entries poll.view,
    checkKey entry poll.pr.headSha = key → checkKey other poll.pr.headSha = key →
      fails entry = fails other

/-- The review or comment of an id. -/
def feedbackItem (id : String) (poll : Poll) : Option Observation :=
  if poll.terminal.isSome then none
  else (observations poll.view poll.graph).find? fun item => item.id == id

def itemFingerprint (sha256 : List UInt8 → String) (item : Observation) : String :=
  feedbackFingerprint sha256 item.body item.state

def feedbackRead (sha256 : List UInt8 → String) (id : String) (poll : Poll) : Option String :=
  (feedbackItem id poll).map (itemFingerprint sha256)

def conflictRead (poll : Poll) : Option ConflictState :=
  if poll.terminal.isSome then none else observedConflict poll.view

def greenRead (poll : Poll) : Option Unit :=
  if poll.terminal.isNone && checksAreGreen poll.view then some () else none

/-- The polls since the head became this one. -/
def sinceHead (head : String) (polls : List Poll) : List Poll :=
  polls.rtakeWhile fun poll => poll.pr.headSha == head

@[simp] theorem sinceHead_nil (head : String) : sinceHead head [] = [] := rfl

theorem sinceHead_append_singleton (head : String) (polls : List Poll) (poll : Poll) :
    sinceHead head (polls ++ [poll]) =
      if poll.pr.headSha = head then sinceHead head polls ++ [poll] else [] := by
  rw [sinceHead, sinceHead]
  by_cases h : poll.pr.headSha = head <;> simp [h]

variable {polls : List Poll} {key : String} {poll : Poll} {watch : PrWatchRecord}
  {scan : FeedbackScan}

theorem sinceHead_append {head : String} {stretch : List Poll}
    (h : ∀ poll ∈ stretch, poll.pr.headSha = head) :
    sinceHead head (polls ++ stretch) = sinceHead head polls ++ stretch := by
  induction stretch using List.reverseRecOn with
  | nil => simp
  | append_singleton stretch poll ih =>
    rw [← List.append_assoc, sinceHead_append_singleton, if_pos (h poll (by simp)),
      ih fun poll' h' => h poll' (List.mem_append_left _ h'), List.append_assoc]

/-! ## The loop over the checks -/

theorem told_iff {scan : CheckScan} :
    (scan.seen.contains key || scan.failing.any (·.1 == key)) = true ↔
      key ∈ scan.seen ∨ key ∈ scan.failing.map (·.1) := by
  simp

/-- One entry: it concerns its own key only. -/
theorem mem_checkEntry (head key : String) (scan : CheckScan) (entry : RollupEntry) :
    (key ∈ (checkEntry head scan entry).seen ↔
      key ∈ scan.seen ∧ (checkKey entry head = key → fails entry = true)) ∧
    (key ∈ (checkEntry head scan entry).failing.map (·.1) ↔
      key ∈ scan.failing.map (·.1) ∨
        checkKey entry head = key ∧ fails entry = true ∧ key ∉ scan.seen) := by
  by_cases hfails : fails entry = true
  · by_cases htold : checkKey entry head ∈ scan.seen ∨
        checkKey entry head ∈ scan.failing.map (·.1)
    · have hstep : checkEntry head scan entry = scan := by
        have htold' : (scan.seen.contains (checkKey entry head) ||
            scan.failing.any (·.1 == checkKey entry head)) = true := by
          simpa [List.any_eq_true] using htold
        simp only [checkEntry, hfails, Bool.not_true, Bool.false_eq_true, if_false, htold', if_true]
      rw [hstep]
      refine ⟨by simp [hfails], ⟨.inl, ?_⟩⟩
      rintro (hold | ⟨rfl, -, hnew⟩)
      · exact hold
      · exact htold.resolve_left hnew
    · have hstep : checkEntry head scan entry =
          { scan with failing := scan.failing ++ [(checkKey entry head, checkLine entry)] } := by
        simp only [checkEntry, hfails, Bool.not_true, Bool.false_eq_true, if_false, told_iff,
          if_neg htold]
      rw [hstep]
      refine ⟨by simp [hfails], ?_⟩
      rw [List.map_append, List.mem_append]
      refine or_congr Iff.rfl ?_
      simp only [List.map_cons, List.map_nil, List.mem_singleton]
      constructor
      · rintro rfl
        exact ⟨rfl, hfails, fun h => htold (.inl h)⟩
      · exact fun h => h.1.symm
  · by_cases hkey : checkKey entry head = key
    · simp [checkEntry, hfails, hkey]
    · simp [checkEntry, hfails, hkey, Ne.symm hkey]

/-- The loop: a check whose entries fail is found unless it was reported, and one whose entries
do not is forgotten. -/
theorem mem_foldl_checkEntry {head : String} {checks : List RollupEntry} (failed : Bool)
    (h : ∀ entry ∈ checks, checkKey entry head = key → fails entry = failed) (scan : CheckScan) :
    (key ∈ (checks.foldl (checkEntry head) scan).seen ↔ key ∈ scan.seen ∧
      ((∃ entry ∈ checks, checkKey entry head = key) → failed = true)) ∧
    (key ∈ (checks.foldl (checkEntry head) scan).failing.map (·.1) ↔
      key ∈ scan.failing.map (·.1) ∨
        (∃ entry ∈ checks, checkKey entry head = key) ∧ failed = true ∧ key ∉ scan.seen) := by
  induction checks generalizing scan with
  | nil => simp
  | cons entry checks ih =>
    obtain ⟨hentry, hchecks⟩ := List.forall_mem_cons.mp h
    obtain ⟨hseen, hfailing⟩ := ih hchecks (checkEntry head scan entry)
    obtain ⟨hseen', hfailing'⟩ := mem_checkEntry head key scan entry
    rw [List.foldl_cons, hseen, hfailing, hseen', hfailing']
    by_cases hkey : checkKey entry head = key
    · rw [hentry hkey]
      by_cases hold : key ∈ scan.seen <;> cases failed <;> simp [hkey, hold]
    · simp [hkey]

/-- A key is found once. -/
theorem nodup_foldl_checkEntry (head : String) (checks : List RollupEntry) {scan : CheckScan}
    (h : (scan.failing.map (·.1)).Nodup) :
    ((checks.foldl (checkEntry head) scan).failing.map (·.1)).Nodup := by
  induction checks generalizing scan with
  | nil => exact h
  | cons entry checks ih =>
    refine ih ?_
    rw [checkEntry]
    by_cases hfails : fails entry = true
    · simp only [hfails, Bool.not_true, Bool.false_eq_true, if_false, told_iff]
      split
      · exact h
      · rename_i hnew
        rw [List.map_append]
        refine h.append (List.nodup_singleton _) ?_
        simpa using fun x hx => hnew (.inr (List.mem_map_of_mem (f := Prod.fst) hx))
    · simpa [hfails] using h

/-- An entry that is read is one of its key. -/
theorem checkRead_eq_some {failed : Bool} (h : checkRead key poll = some failed) :
    poll.terminal = none ∧
      ∃ entry ∈ entries poll.view, checkKey entry poll.pr.headSha = key ∧ fails entry = failed := by
  rw [checkRead] at h
  split at h
  · cases h
  · rename_i hterminal
    obtain ⟨entry, hfind, hfails⟩ := Option.map_eq_some_iff.mp h
    refine ⟨by simpa using hterminal, entry, List.mem_of_find?_eq_some hfind, ?_, hfails⟩
    simpa using List.find?_some hfind

theorem checkRead_eq_none (hterminal : poll.terminal = none) :
    checkRead key poll = none ↔
      ∀ entry ∈ entries poll.view, checkKey entry poll.pr.headSha ≠ key := by
  simp [checkRead, hterminal]

/-- What a pass makes of a check. -/
theorem mem_checkScan (hterminal : poll.terminal = none) (hunmixed : Unmixed key poll)
    (watch : PrWatchRecord) :
    (key ∈ (checkScan watch poll.pr poll.view).seen ↔
      key ∈ seenChecks watch poll.pr ∧ checkRead key poll ≠ some false) ∧
    (key ∈ (checkScan watch poll.pr poll.view).failing.map (·.1) ↔
      checkRead key poll = some true ∧ key ∉ seenChecks watch poll.pr) := by
  cases hread : checkRead key poll with
  | none =>
    have hnone := (checkRead_eq_none hterminal).mp hread
    obtain ⟨hseen, hfailing⟩ := mem_foldl_checkEntry true
      (fun entry hentry hkey => absurd hkey (hnone entry hentry)) ⟨seenChecks watch poll.pr, []⟩
    rw [checkScan, hseen, hfailing]
    have hnot : ¬ ∃ entry ∈ entries poll.view, checkKey entry poll.pr.headSha = key :=
      fun ⟨entry, hentry, hkey⟩ => hnone entry hentry hkey
    simp [hnot]
  | some failed =>
    obtain ⟨-, entry, hentry, hkey, rfl⟩ := checkRead_eq_some hread
    obtain ⟨hseen, hfailing⟩ := mem_foldl_checkEntry (fails entry)
      (fun other hother hkey' => hunmixed other hother entry hentry hkey' hkey)
      ⟨seenChecks watch poll.pr, []⟩
    rw [checkScan, hseen, hfailing]
    have hsome : ∃ entry ∈ entries poll.view, checkKey entry poll.pr.headSha = key :=
      ⟨entry, hentry, hkey⟩
    simp [hsome]

/-- What a scan has of an id. -/
structure IdScan where
  fingerprint : Option String
  seen : Bool
  observed : Bool
  feedback : List FeedbackItem

def FeedbackScan.idScan (scan : FeedbackScan) (id : String) : IdScan where
  fingerprint := scan.fingerprints.lookup id
  seen := scan.seenIds.contains id
  observed := scan.observedIds.contains id
  feedback := scan.feedback.filter fun feedback => feedback.item.id == id

/-- What the first observation of an id makes of it. -/
def observeId (parseTime : String → Option ℤ) (sha256 : List UInt8 → String) (seen : List String)
    (seedingBefore : Option ℤ) (before : IdScan) (item : Observation) : IdScan :=
  let edited := before.fingerprint.any (· != itemFingerprint sha256 item)
  { fingerprint := some (itemFingerprint sha256 item)
    seen := true
    observed := true
    feedback :=
      if (!seen.contains item.id || edited) && item.reportable &&
          !predatesWatch parseTime seedingBefore item then
        before.feedback ++ [⟨item, edited⟩]
      else before.feedback }

section Cursors

variable {parseTime : String → Option ℤ} {sha256 : List UInt8 → String}

theorem watchRun_append_singleton (watch : PrWatchRecord) (polls : List Poll) (poll : Poll) :
    watchRun parseTime sha256 watch (polls ++ [poll]) =
      afterPass parseTime sha256 (watchRun parseTime sha256 watch polls) poll := by
  rw [watchRun, List.foldl_append]
  rfl

/-- The cursors after a pass. -/
theorem cursors_afterPass (watch : PrWatchRecord) (poll : Poll) :
    (afterPass parseTime sha256 watch poll).cursors =
      (if poll.terminal.isSome then baseCursors watch poll.pr poll.view poll.graph
        else newsCursors parseTime sha256 watch poll.pr poll.view poll.graph).stored := by
  cases h : poll.terminal <;> simp [afterPass, withCursors, planOf, planWatchPass, finishPass, h]

/-- The keys after a pass. -/
theorem seenChecks_afterPass (watch : PrWatchRecord) (hterminal : poll.terminal = none) :
    seenChecks (afterPass parseTime sha256 watch poll) poll.pr =
      (checkScan watch poll.pr poll.view).seen ++
        (checkScan watch poll.pr poll.view).failing.map (·.1) := by
  rw [seenChecks, cursors_afterPass, hterminal]
  exact if_neg (not_not.mpr rfl)

/-- The cursor of the checks holds what was read last of the head. -/
theorem mem_seenChecks (hwatch : watch.cursors.seenCheckFailures = [])
    (h : ∀ poll ∈ polls, Unmixed key poll) (pr : WatchedPrState) :
    key ∈ seenChecks (watchRun parseTime sha256 watch polls) pr ↔
      lastRead (checkRead key) (sinceHead pr.headSha polls) = some true := by
  induction polls using List.reverseRecOn generalizing pr with
  | nil => simp [watchRun, seenChecks, hwatch]
  | append_singleton polls poll ih =>
    have hpolls := ih fun poll' h' => h poll' (List.mem_append_left _ h')
    rw [sinceHead_append_singleton, watchRun_append_singleton]
    by_cases hhead : poll.pr.headSha = pr.headSha
    · have hsame : ∀ watch, seenChecks watch pr = seenChecks watch poll.pr := by
        simp [seenChecks, hhead]
      rw [if_pos hhead, lastRead_append_singleton, hsame]
      cases hterminal : poll.terminal with
      | some terminal =>
        have hbefore := hpolls poll.pr
        rw [hhead] at hbefore
        simpa [seenChecks, cursors_afterPass, hterminal, checkRead, baseCursors,
          PrWatchCursors.stored] using hbefore
      | none =>
        obtain ⟨hseen, hfailing⟩ := mem_checkScan hterminal (h poll (by simp))
          (watchRun parseTime sha256 watch polls)
        rw [seenChecks_afterPass _ hterminal, List.mem_append, hseen, hfailing, hpolls poll.pr,
          hhead]
        cases hread : checkRead key poll with
        | none => simp
        | some failed => cases failed <;> simp; tauto
    · have hchanged : (afterPass parseTime sha256 (watchRun parseTime sha256 watch polls)
          poll).cursors.headSha ≠ pr.headSha := by
        rw [cursors_afterPass]
        cases poll.terminal <;> exact hhead
      rw [if_neg hhead, seenChecks, if_pos hchanged]
      simp

/-- The cursor of green checks holds whether they were read green since the head changed. -/
theorem reportedReady_iff (hwatch : watch.cursors.reportedReadySha = none) (polls : List Poll)
    (pr : WatchedPrState) :
    reportedReady (watchRun parseTime sha256 watch polls) pr = some pr.headSha ↔
      lastRead greenRead (sinceHead pr.headSha polls) = some () := by
  induction polls using List.reverseRecOn generalizing pr with
  | nil => simp [watchRun, reportedReady, hwatch]
  | append_singleton polls poll ih =>
    rw [sinceHead_append_singleton, reportedReady, watchRun_append_singleton, cursors_afterPass]
    by_cases hhead : poll.pr.headSha = pr.headSha
    · have hbefore := ih poll.pr
      rw [if_pos hhead, lastRead_append_singleton]
      cases hterminal : poll.terminal with
      | some terminal => simpa [hhead, greenRead, hterminal, baseCursors,
          PrWatchCursors.stored] using hbefore
      | none =>
        cases hgreen : checksAreGreen poll.view with
        | false => simpa [hhead, greenRead, hterminal, hgreen, newsCursors, watchNews, baseCursors,
            PrWatchCursors.stored] using hbefore
        | true =>
          simp only [greenRead, hterminal, hgreen, newsCursors, watchNews, baseCursors,
            PrWatchCursors.stored, hhead]
          simp
    · cases hterminal : poll.terminal <;>
        simp [hhead, newsCursors, baseCursors, PrWatchCursors.stored]

/-- The cursor of the conflict holds what was read last. -/
theorem conflictState_eq (hwatch : watch.cursors.conflictState = none) (polls : List Poll) :
    (watchRun parseTime sha256 watch polls).cursors.conflictState =
      lastRead conflictRead polls := by
  have hstep : ∀ (watch : PrWatchRecord) (poll : Poll),
      (afterPass parseTime sha256 watch poll).cursors.conflictState =
        (conflictRead poll).or watch.cursors.conflictState := by
    intro watch poll
    rw [cursors_afterPass, conflictRead]
    cases hterminal : poll.terminal with
    | some terminal => simp [baseCursors, PrWatchCursors.stored]
    | none =>
      simp only [newsCursors]
      cases watch.cursors.conflictState with
      | none => rcases observedConflict poll.view with _ | _ | _ <;> rfl
      | some prior => cases prior <;> rcases observedConflict poll.view with _ | _ | _ <;> rfl
  have hrun := foldl_eq_lastRead (fun watch : PrWatchRecord => watch.cursors.conflictState) hstep
    watch polls
  rwa [hwatch, Option.or_none] at hrun

/-! ## The loop over the feedback -/

theorem lookup_insertFingerprint (id other fingerprint : String)
    (fingerprints : List (String × String)) :
    (insertFingerprint id fingerprint fingerprints).lookup other =
      if other = id then some fingerprint else fingerprints.lookup other := by
  have hbeq : ∀ {key : String}, other ≠ key → (other == key) = false := by simp
  induction fingerprints with
  | nil => by_cases h : other = id <;> simp [insertFingerprint, h, hbeq]
  | cons entry fingerprints ih =>
    obtain ⟨key, old⟩ := entry
    rw [insertFingerprint]
    by_cases hkey : key = id
    · subst hkey
      by_cases h : other = key <;> simp [List.lookup_cons, h, hbeq]
    · by_cases h : other = key
      · subst h
        simp [hkey]
      · simp [List.lookup_cons, hkey, h, hbeq, ih]

variable {seen : List String} {seedingBefore : Option ℤ}

/-- An observation of another id leaves an id alone. -/
theorem idScan_observe_of_ne {item : Observation} {id : String} (h : item.id ≠ id) :
    (observe parseTime sha256 seen seedingBefore scan item).idScan id = scan.idScan id := by
  have hne : id ≠ item.id := Ne.symm h
  rw [observe]
  split
  · rfl
  · simp only [FeedbackScan.idScan, IdScan.mk.injEq]
    split
    · simp [lookup_insertFingerprint, hne]
    · refine ⟨by simp [lookup_insertFingerprint, hne], ?_, by simp [hne], ?_⟩
      · dsimp only
        split <;> simp [hne]
      · dsimp only
        split <;> simp [h]

/-- An id that was observed is left alone. -/
theorem idScan_foldl_of_observed {items : List Observation} {id : String}
    (h : id ∈ scan.observedIds) :
    (items.foldl (observe parseTime sha256 seen seedingBefore) scan).idScan id =
      scan.idScan id := by
  have hstep : ∀ (scan : FeedbackScan) (item : Observation), id ∈ scan.observedIds →
      (observe parseTime sha256 seen seedingBefore scan item).idScan id = scan.idScan id := by
    intro scan item hobserved
    by_cases heq : item.id = id
    · rw [observe, if_pos (by simpa [heq] using hobserved)]
    · exact idScan_observe_of_ne heq
  induction items generalizing scan with
  | nil => rfl
  | cons item items ih =>
    have hitem := hstep scan item h
    rw [List.foldl_cons, ih, hitem]
    have hobserved := congrArg IdScan.observed hitem
    simpa [FeedbackScan.idScan, h] using hobserved

/-- The first observation of an id. -/
theorem idScan_observe {item : Observation} (hfirst : item.id ∉ scan.observedIds)
    (hseen : item.id ∈ seen → item.id ∈ scan.seenIds) :
    (observe parseTime sha256 seen seedingBefore scan item).idScan item.id =
      observeId parseTime sha256 seen seedingBefore (scan.idScan item.id) item := by
  rw [observe, if_neg (by simpa using hfirst)]
  by_cases hold : item.id ∈ seen
  · cases hedited : (scan.fingerprints.lookup item.id).any
        (· != feedbackFingerprint sha256 item.body item.state) with
    | false =>
      simp [FeedbackScan.idScan, observeId, itemFingerprint, hold, hseen hold, hedited,
        lookup_insertFingerprint]
    | true =>
      by_cases hreport : (item.reportable && !predatesWatch parseTime seedingBefore item) = true
      · simp [FeedbackScan.idScan, observeId, itemFingerprint, hold, hseen hold, hedited,
          lookup_insertFingerprint, hreport]
      · simp [FeedbackScan.idScan, observeId, itemFingerprint, hold, hseen hold, hedited,
          lookup_insertFingerprint, hreport]
  · by_cases hreport : (item.reportable && !predatesWatch parseTime seedingBefore item) = true
    · simp [FeedbackScan.idScan, observeId, itemFingerprint, hold, lookup_insertFingerprint,
        hreport]
    · simp [FeedbackScan.idScan, observeId, itemFingerprint, hold, lookup_insertFingerprint,
        hreport]

/-- **The loop**: what it leaves of an id. -/
theorem idScan_foldl (items : List Observation) {id : String} (hfirst : id ∉ scan.observedIds)
    (hseen : id ∈ seen → id ∈ scan.seenIds) :
    (items.foldl (observe parseTime sha256 seen seedingBefore) scan).idScan id =
      ((items.find? (·.id == id)).map
        (observeId parseTime sha256 seen seedingBefore (scan.idScan id))).getD
          (scan.idScan id) := by
  induction items generalizing scan with
  | nil => rfl
  | cons item items ih =>
    rw [List.foldl_cons]
    by_cases heq : item.id = id
    · subst heq
      have hitem : (observe parseTime sha256 seen seedingBefore scan item).idScan item.id = _ :=
        idScan_observe hfirst hseen
      have hobserved := congrArg IdScan.observed hitem
      rw [idScan_foldl_of_observed (by simpa [FeedbackScan.idScan, observeId] using hobserved),
        hitem]
      simp
    · have hitem : (observe parseTime sha256 seen seedingBefore scan item).idScan id = _ :=
        idScan_observe_of_ne heq
      have hobserved := congrArg IdScan.observed hitem
      have hseenIds := congrArg IdScan.seen hitem
      simp only [FeedbackScan.idScan, List.contains_eq_mem, decide_eq_decide] at hobserved hseenIds
      rw [ih (mt hobserved.mp hfirst) fun h => hseenIds.mpr (hseen h), hitem]
      simp [heq]

/-- When a pass seeds: only the first. -/
def seedsBefore (parseTime : String → Option ℤ) (watch : PrWatchRecord) : Option ℤ :=
  if watch.cursors.seenFeedbackIds.isNone then parseTime watch.createdAt else none

/-- What a pass makes of an id. -/
theorem idScan_feedbackScan (watch : PrWatchRecord) (view : PrWatchView)
    (graph : Option PrFeedbackGraph) (id : String) :
    let seen := watch.cursors.seenFeedbackIds.getD []
    let before : IdScan :=
      ⟨(watch.cursors.feedbackFingerprints.getD []).lookup id, seen.contains id, false, []⟩
    (feedbackScan parseTime sha256 watch view graph).idScan id =
      (((observations view graph).find? (·.id == id)).map
        (observeId parseTime sha256 seen (seedsBefore parseTime watch) before)).getD before :=
  idScan_foldl (observations view graph) (by simp) fun h => h

/-- The cursors of the feedback hold what was read last of an id. -/
structure FeedbackCursors (sha256 : List UInt8 → String) (watch : PrWatchRecord)
    (polls : List Poll) : Prop where
  seeded : watch.cursors.seenFeedbackIds = none ↔ polls = []
  fingerprint : ∀ id, (watch.cursors.feedbackFingerprints.getD []).lookup id =
    lastRead (feedbackRead sha256 id) polls
  seen : ∀ id, (watch.cursors.seenFeedbackIds.getD []).contains id =
    (lastRead (feedbackRead sha256 id) polls).isSome

theorem feedbackCursors (hseen : watch.cursors.seenFeedbackIds = none)
    (hfingerprints : watch.cursors.feedbackFingerprints = none) (polls : List Poll) :
    FeedbackCursors sha256 (watchRun parseTime sha256 watch polls) polls := by
  induction polls using List.reverseRecOn with
  | nil => exact ⟨by simp [watchRun, hseen], by simp [watchRun, hfingerprints],
      by simp [watchRun, hseen]⟩
  | append_singleton polls poll ih =>
    rw [watchRun_append_singleton]
    cases hterminal : poll.terminal with
    | some terminal =>
      have hnone : ∀ id, feedbackRead sha256 id poll = none := by
        simp [feedbackRead, feedbackItem, hterminal]
      refine ⟨?_, fun id => ?_, fun id => ?_⟩ <;> rw [cursors_afterPass]
      · simp [PrWatchCursors.stored]
      · simpa [hterminal, PrWatchCursors.stored, baseCursors, hnone] using ih.fingerprint id
      · simpa [hterminal, PrWatchCursors.stored, baseCursors, hnone] using ih.seen id
    | none =>
      have hread : ∀ id, feedbackRead sha256 id poll =
          ((observations poll.view poll.graph).find? (·.id == id)).map
            (itemFingerprint sha256) := by
        simp [feedbackRead, feedbackItem, hterminal]
      have hscan : ∀ id, (feedbackScan parseTime sha256 (watchRun parseTime sha256 watch polls)
          poll.view poll.graph).idScan id = _ :=
        idScan_feedbackScan (watchRun parseTime sha256 watch polls) poll.view poll.graph
      refine ⟨?_, fun id => ?_, fun id => ?_⟩ <;> rw [cursors_afterPass]
      · simp [PrWatchCursors.stored]
      · have hid := congrArg IdScan.fingerprint (hscan id)
        rw [lastRead_append_singleton, hread]
        cases hfind : (observations poll.view poll.graph).find? (·.id == id) <;>
          simpa [hterminal, PrWatchCursors.stored, newsCursors, FeedbackScan.idScan, hfind,
            observeId, ih.fingerprint id] using hid
      · have hid := congrArg IdScan.seen (hscan id)
        rw [lastRead_append_singleton, hread]
        cases hfind : (observations poll.view poll.graph).find? (·.id == id) <;>
          simpa [-List.contains_eq_mem, hterminal, PrWatchCursors.stored, newsCursors,
            FeedbackScan.idScan, hfind, observeId, ih.seen id] using hid

/-! ## What a notice reports -/

section Reports

variable (parseTime sha256) (watch : PrWatchRecord) (polls : List Poll) (poll : Poll)

/-- The notice of a pass counts the check among those that fail. -/
def ReportsFailing (key : String) : Prop :=
  ∃ news, Notice parseTime sha256 (watchRun parseTime sha256 watch polls) poll news ∧
    (news.failing.map (·.1)).count key = 1

/-- The notice of a pass has one line for the review or comment, `edited` where its content
was read before. -/
def ReportsFeedback (id : String) (edited : Bool) : Prop :=
  ∃ news item, Notice parseTime sha256 (watchRun parseTime sha256 watch polls) poll news ∧
    news.feedback.filter (fun feedback => feedback.item.id == id) = [⟨item, edited⟩]

/-- The notice of a pass reports a conflict, or that one is resolved. -/
def ReportsConflict (conflict : ConflictState) : Prop :=
  ∃ news, Notice parseTime sha256 (watchRun parseTime sha256 watch polls) poll news ∧
    news.conflict = some conflict

/-- The notice of a pass reports green checks. -/
def ReportsGreen : Prop :=
  ∃ news, Notice parseTime sha256 (watchRun parseTime sha256 watch polls) poll news ∧
    news.green = true

end Reports

/-- News that is not empty has a notice. -/
theorem notice_of_news (hterminal : poll.terminal = none)
    (h : (newsPart poll.pr.headSha poll.view poll.graph
      (watchNews parseTime sha256 watch poll.pr poll.view poll.graph)).1 ≠ []) :
    Notice parseTime sha256 watch poll
      (watchNews parseTime sha256 watch poll.pr poll.view poll.graph) := by
  refine ⟨hterminal, rfl, ?_⟩
  simp [planOf, planWatchPass, hterminal, finishPass, h]

theorem newsPart_ne_nil {head : String} {view : PrWatchView} {graph : Option PrFeedbackGraph}
    {news : WatchNews} (h : news.failing ≠ [] ∨ news.conflict ≠ none ∨ news.feedback ≠ [] ∨
      news.green = true) : (newsPart head view graph news).1 ≠ [] := by
  intro hnil
  simp only [newsPart, List.flatMap_cons, List.append_eq_nil_iff] at hnil
  obtain ⟨-, hfailing, hconflict, hfeedback, hgreen, -⟩ := hnil
  rcases h with h | h | h | h
  · simp [failingPart, h] at hfailing
  · cases hnews : news.conflict with
    | none => exact h hnews
    | some conflict => cases conflict <;> simp [conflictPart, hnews] at hconflict
  · simp [feedbackPart, h] at hfeedback
  · simp [greenPart, h] at hgreen

/-- A check that is found failing is reported. -/
theorem reportsFailing_of_mem (hterminal : poll.terminal = none)
    (h : key ∈ (checkScan (watchRun parseTime sha256 watch polls) poll.pr
      poll.view).failing.map (·.1)) : ReportsFailing parseTime sha256 watch polls poll key := by
  refine ⟨_, notice_of_news hterminal (newsPart_ne_nil (.inl ?_)),
    List.count_eq_one_of_mem (nodup_foldl_checkEntry _ _ List.nodup_nil) h⟩
  intro hnil
  simp only [watchNews] at hnil
  simp [hnil] at h

/-- **Checks**: a notice reports that a check fails when it was not read failing last, since the
head changed. -/
theorem reportsFailing_iff (hwatch : watch.cursors.seenCheckFailures = [])
    (h : ∀ poll' ∈ polls ++ [poll], Unmixed key poll') :
    ReportsFailing parseTime sha256 watch polls poll key ↔
      News (checkRead key) (sinceHead poll.pr.headSha polls) poll true := by
  have hseen : key ∈ seenChecks (watchRun parseTime sha256 watch polls) poll.pr ↔ _ :=
    mem_seenChecks hwatch (fun poll' h' => h poll' (List.mem_append_left _ h')) poll.pr
  have hunmixed := h poll (by simp)
  rw [News, Ne, ← hseen]
  constructor
  · rintro ⟨news, ⟨hterminal, rfl, -⟩, hcount⟩
    have hmem := List.count_pos_iff.mp (hcount ▸ Nat.one_pos)
    exact ((mem_checkScan hterminal hunmixed _).2).mp hmem
  · intro hnews
    have hterminal := (checkRead_eq_some hnews.1).1
    exact reportsFailing_of_mem hterminal (((mem_checkScan hterminal hunmixed _).2).mpr hnews)

theorem createdAt_watchRun (watch : PrWatchRecord) (polls : List Poll) :
    (watchRun parseTime sha256 watch polls).createdAt = watch.createdAt := by
  induction polls generalizing watch with
  | nil => rfl
  | cons poll polls ih => exact ih (afterPass parseTime sha256 watch poll)

/-- What the news of a pass has of an id. -/
theorem filter_feedback (hseen : watch.cursors.seenFeedbackIds = none)
    (hfingerprints : watch.cursors.feedbackFingerprints = none) (polls : List Poll)
    (hterminal : poll.terminal = none) (id : String) :
    (watchNews parseTime sha256 (watchRun parseTime sha256 watch polls) poll.pr poll.view
        poll.graph).feedback.filter (fun feedback => feedback.item.id == id) =
      ((feedbackItem id poll).filter fun item =>
        lastRead (feedbackRead sha256 id) polls != some (itemFingerprint sha256 item) &&
          item.reportable && !(polls.isEmpty &&
            predatesWatch parseTime (parseTime watch.createdAt) item)).toList.map fun item =>
        ⟨item, (lastRead (feedbackRead sha256 id) polls).isSome⟩ := by
  have hcursors : FeedbackCursors sha256 (watchRun parseTime sha256 watch polls) polls :=
    feedbackCursors hseen hfingerprints polls
  have hseeds : seedsBefore parseTime (watchRun parseTime sha256 watch polls) =
      if polls = [] then parseTime watch.createdAt else none := by
    by_cases hempty : polls = []
    · rw [seedsBefore, hcursors.seeded.mpr hempty, createdAt_watchRun, if_pos hempty]
      rfl
    · have hsome := mt hcursors.seeded.mp hempty
      simp [seedsBefore, hempty, hsome]
  have hpredates : ∀ item, predatesWatch parseTime
      (seedsBefore parseTime (watchRun parseTime sha256 watch polls)) item =
      (polls.isEmpty && predatesWatch parseTime (parseTime watch.createdAt) item) := by
    rw [hseeds]
    by_cases hempty : polls = [] <;> simp [hempty, predatesWatch]
  refine (congrArg IdScan.feedback (idScan_feedbackScan _ poll.view poll.graph id)).trans ?_
  rw [feedbackItem, hterminal]
  cases hfind : (observations poll.view poll.graph).find? (·.id == id) with
  | none => simp
  | some item =>
    have hid : item.id = id := by simpa using List.find?_some hfind
    have hcontains := hcursors.seen id
    simp only [Option.map_some, observeId, hid, hcursors.fingerprint, hcontains, hpredates,
      Option.isSome_none, Bool.false_eq_true, if_false]
    rw [Option.filter_some]
    generalize (polls.isEmpty && predatesWatch parseTime (parseTime watch.createdAt) item) = early
    cases hlast : lastRead (feedbackRead sha256 id) polls with
    | none => by_cases hreport : item.reportable = true ∧ early = false <;> simp [hreport]
    | some old =>
      by_cases hsame : old = itemFingerprint sha256 item
      · simp [hsame]
      · have hedited : (old != itemFingerprint sha256 item) = true := by simp [hsame]
        by_cases hreport : item.reportable = true ∧ early = false <;> simp [hsame, hreport]

/-- **Feedback**: a notice has a line for a review or comment when its content was not read
last and it may be reported, but not in the first pass if it was there before the watch. -/
theorem reportsFeedback_iff (hseen : watch.cursors.seenFeedbackIds = none)
    (hfingerprints : watch.cursors.feedbackFingerprints = none) (polls : List Poll) (poll : Poll)
    (id : String) (edited : Bool) :
    ReportsFeedback parseTime sha256 watch polls poll id edited ↔
      edited = (lastRead (feedbackRead sha256 id) polls).isSome ∧
      ∃ item, feedbackItem id poll = some item ∧
        News (feedbackRead sha256 id) polls poll (itemFingerprint sha256 item) ∧
        item.reportable = true ∧
        ¬ (polls = [] ∧ predatesWatch parseTime (parseTime watch.createdAt) item = true) := by
  constructor
  · rintro ⟨news, item, ⟨hterminal, rfl, -⟩, hfilter⟩
    rw [filter_feedback hseen hfingerprints polls hterminal] at hfilter
    cases hitem : feedbackItem id poll with
    | none => simp [hitem] at hfilter
    | some item' =>
      rw [hitem, Option.filter_some] at hfilter
      split at hfilter
      · rename_i hreports
        obtain ⟨rfl, rfl⟩ : item' = item ∧ (lastRead (feedbackRead sha256 id) polls).isSome =
            edited := by simpa using hfilter
        simp only [Bool.and_eq_true, bne_iff_ne] at hreports
        refine ⟨rfl, item', rfl, ⟨by simp [feedbackRead, hitem], hreports.1.1⟩, hreports.1.2, ?_⟩
        rintro ⟨hempty, hpredates⟩
        simp [hempty, hpredates] at hreports
      · simp at hfilter
  · rintro ⟨rfl, item, hitem, ⟨-, hnew⟩, hreportable, hearly⟩
    have hterminal : poll.terminal = none := by
      by_contra hsome
      simp [feedbackItem, Option.isSome_iff_ne_none.mpr hsome] at hitem
    have hfilter : (watchNews parseTime sha256 (watchRun parseTime sha256 watch polls) poll.pr
        poll.view poll.graph).feedback.filter (fun feedback => feedback.item.id == id) = _ :=
      filter_feedback hseen hfingerprints polls hterminal id
    have hreports : (lastRead (feedbackRead sha256 id) polls !=
        some (itemFingerprint sha256 item) && item.reportable && !(polls.isEmpty &&
          predatesWatch parseTime (parseTime watch.createdAt) item)) = true := by
      have hlate : (polls.isEmpty &&
          predatesWatch parseTime (parseTime watch.createdAt) item) = false := by
        simpa using hearly
      simp [hnew, hreportable, hlate]
    rw [hitem, Option.filter_some, if_pos hreports] at hfilter
    refine ⟨_, item, notice_of_news hterminal (newsPart_ne_nil (.inr (.inr (.inl ?_)))), hfilter⟩
    intro hnil
    simp [hnil] at hfilter

theorem reportsConflict_iff (hwatch : watch.cursors.conflictState = none) (polls : List Poll)
    (poll : Poll) (conflict : ConflictState) :
    ReportsConflict parseTime sha256 watch polls poll conflict ↔
      News conflictRead polls poll conflict ∧
        (conflict = .clean → lastRead conflictRead polls = some .conflicting) := by
  have hcursor : (watchRun parseTime sha256 watch polls).cursors.conflictState = _ :=
    conflictState_eq hwatch polls
  have hnews : ∀ prior observed, conflictNews prior observed = some conflict ↔
      (observed = some conflict ∧ prior ≠ some conflict) ∧
        (conflict = .clean → prior = some .conflicting) := by
    intro prior observed
    cases conflict <;> rcases prior with _ | _ | _ <;> rcases observed with _ | _ | _ <;> decide
  rw [News, ← hcursor]
  constructor
  · rintro ⟨news, ⟨hterminal, rfl, -⟩, hconflict⟩
    simpa [conflictRead, hterminal] using (hnews _ _).mp hconflict
  · rintro ⟨⟨hread, hnew⟩, hclean⟩
    have hobserved : poll.terminal = none ∧ observedConflict poll.view = some conflict := by
      simpa [conflictRead] using hread
    have hconflict : (watchNews parseTime sha256 (watchRun parseTime sha256 watch polls) poll.pr
        poll.view poll.graph).conflict = some conflict :=
      (hnews _ _).mpr ⟨⟨hobserved.2, hnew⟩, hclean⟩
    exact ⟨_, notice_of_news hobserved.1 (newsPart_ne_nil (.inr (.inl (by simp [hconflict])))),
      hconflict⟩

theorem reportsGreen_iff (hwatch : watch.cursors.reportedReadySha = none) (polls : List Poll)
    (poll : Poll) :
    ReportsGreen parseTime sha256 watch polls poll ↔
      News greenRead (sinceHead poll.pr.headSha polls) poll () := by
  have hcursor : reportedReady (watchRun parseTime sha256 watch polls) poll.pr =
      some poll.pr.headSha ↔ _ := reportedReady_iff hwatch polls poll.pr
  rw [News, Ne, ← hcursor]
  constructor
  · rintro ⟨news, ⟨hterminal, rfl, -⟩, hgreen⟩
    simpa [watchNews, greenRead, hterminal] using hgreen
  · rintro ⟨hread, hnew⟩
    have hgreen : poll.terminal = none ∧ checksAreGreen poll.view = true := by
      simpa [greenRead] using hread
    have hnews : (watchNews parseTime sha256 (watchRun parseTime sha256 watch polls) poll.pr
        poll.view poll.graph).green = true := by
      simp [watchNews, hgreen.2, hnew]
    exact ⟨_, notice_of_news hgreen.1 (newsPart_ne_nil (.inr (.inr (.inr hnews)))), hnews⟩

/-! ## Over a whole run -/

variable (parseTime sha256)

/-- What the notices of a watch report. -/
structure WatchReports (watch : PrWatchRecord) : Prop where
  /-- A check that was not read failing last, since the head changed. -/
  failing : ∀ polls poll key, (∀ poll' ∈ polls ++ [poll], Unmixed key poll') →
    (ReportsFailing parseTime sha256 watch polls poll key ↔
      News (checkRead key) (sinceHead poll.pr.headSha polls) poll true)
  /-- One that fails while the head stays has one notice. -/
  failing_once : ∀ polls stretch key head, (∀ poll ∈ polls ++ stretch, Unmixed key poll) →
    (∀ poll ∈ stretch, poll.pr.headSha = head) → ReadsOnly (checkRead key) true stretch →
    (∃ poll ∈ stretch, checkRead key poll = some true) →
    lastRead (checkRead key) (sinceHead head polls) ≠ some true →
    ∃! i, ∃ h : i < stretch.length,
      ReportsFailing parseTime sha256 watch (polls ++ stretch.take i) (stretch.get ⟨i, h⟩) key
  /-- A review or comment whose content was not read last. -/
  feedback : ∀ polls poll id edited,
    (ReportsFeedback parseTime sha256 watch polls poll id edited ↔
      edited = (lastRead (feedbackRead sha256 id) polls).isSome ∧
      ∃ item, feedbackItem id poll = some item ∧
        News (feedbackRead sha256 id) polls poll (itemFingerprint sha256 item) ∧
        item.reportable = true ∧
        ¬ (polls = [] ∧ predatesWatch parseTime (parseTime watch.createdAt) item = true))
  /-- One that may be reported and is not edited has one notice. -/
  feedback_once : ∀ polls stretch id content,
    ReadsOnly (feedbackRead sha256 id) content stretch →
    (∃ poll ∈ stretch, feedbackRead sha256 id poll = some content) →
    lastRead (feedbackRead sha256 id) polls ≠ some content →
    (∀ poll ∈ stretch, ∀ item ∈ feedbackItem id poll, item.reportable = true ∧
      (polls = [] → predatesWatch parseTime (parseTime watch.createdAt) item = false)) →
    ∃! i, ∃ h : i < stretch.length, ∃ edited,
      ReportsFeedback parseTime sha256 watch (polls ++ stretch.take i) (stretch.get ⟨i, h⟩) id
        edited
  /-- One that the first pass reads, and that was there before the watch, has none. -/
  feedback_old : ∀ first later id item, feedbackItem id first = some item →
    predatesWatch parseTime (parseTime watch.createdAt) item = true →
    ReadsOnly (feedbackRead sha256 id) (itemFingerprint sha256 item) later →
    ∀ i (h : i < (first :: later).length) edited,
      ¬ ReportsFeedback parseTime sha256 watch ((first :: later).take i)
        ((first :: later).get ⟨i, h⟩) id edited
  /-- A conflict that was not read last, and its end. -/
  conflict : ∀ polls poll conflict,
    (ReportsConflict parseTime sha256 watch polls poll conflict ↔
      News conflictRead polls poll conflict ∧
        (conflict = .clean → lastRead conflictRead polls = some .conflicting))
  /-- Checks that were not read green since the head changed. -/
  green : ∀ polls poll, (ReportsGreen parseTime sha256 watch polls poll ↔
    News greenRead (sinceHead poll.pr.headSha polls) poll ())
  /-- They have one notice at most while the head stays. -/
  green_once : ∀ polls poll stretch later,
    (∀ poll' ∈ poll :: stretch, poll'.pr.headSha = later.pr.headSha) →
    ReportsGreen parseTime sha256 watch polls poll →
    ¬ ReportsGreen parseTime sha256 watch (polls ++ poll :: stretch) later

variable {parseTime sha256}

/-- **What the notices of a watch report**, over every run of passes from a new watch. -/
theorem watch_reports (parseTime : String → Option ℤ) (sha256 : List UInt8 → String) (id : ℕ)
    (sessionId projectId : String) (prNumber : ℕ) (cleanupOnMerge : Bool)
    (headSha createdAt : String) :
    WatchReports parseTime sha256
      (newWatch id sessionId projectId prNumber cleanupOnMerge headSha createdAt) where
  failing polls poll key h := reportsFailing_iff rfl h
  failing_once polls stretch key head hunmixed hhead hrun hread hbefore := by
    have hunique := existsUnique_news hrun hread hbefore
    refine (existsUnique_congr fun i => exists_congr fun h => ?_).mpr hunique
    have hmem : stretch.get ⟨i, h⟩ ∈ stretch := List.get_mem _ _
    rw [reportsFailing_iff rfl, hhead _ hmem, sinceHead_append]
    · exact fun poll hpoll => hhead poll (List.mem_of_mem_take hpoll)
    · intro poll hpoll
      refine hunmixed poll ?_
      simp only [List.mem_append, List.mem_singleton] at hpoll ⊢
      rcases hpoll with (hpoll | hpoll) | rfl
      · exact .inl hpoll
      · exact .inr (List.mem_of_mem_take hpoll)
      · exact .inr hmem
  feedback polls poll id edited := reportsFeedback_iff rfl rfl polls poll id edited
  feedback_once polls stretch id content hrun hread hbefore hitems := by
    have hunique := existsUnique_news hrun hread hbefore
    refine (existsUnique_congr fun i => exists_congr fun h => ?_).mpr hunique
    have hmem : stretch.get ⟨i, h⟩ ∈ stretch := List.get_mem _ _
    constructor
    · rintro ⟨edited, hreports⟩
      obtain ⟨-, item, hitem, hnews, -⟩ := (reportsFeedback_iff rfl rfl _ _ _ _).mp hreports
      rwa [hrun _ hmem _ hnews.1] at hnews
    · intro hnews
      obtain ⟨item, hitem, rfl⟩ := Option.map_eq_some_iff.mp hnews.1
      obtain ⟨hreportable, hlate⟩ := hitems _ hmem item hitem
      refine ⟨_, (reportsFeedback_iff rfl rfl _ _ _ _).mpr
        ⟨rfl, item, hitem, hnews, hreportable, ?_⟩⟩
      rintro ⟨hempty, hpredates⟩
      exact Bool.false_ne_true ((hlate (List.append_eq_nil_iff.mp hempty).1).symm.trans hpredates)
  feedback_old first later id item hitem hpredates hrun i h edited := by
    intro hreports
    obtain ⟨-, item', hitem', hnews, -, hearly⟩ := (reportsFeedback_iff rfl rfl _ _ _ _).mp hreports
    have hfirst : feedbackRead sha256 id first = some (itemFingerprint sha256 item) := by
      simp [feedbackRead, hitem]
    have hsame : ReadsOnly (feedbackRead sha256 id) (itemFingerprint sha256 item)
        (first :: later) := by
      refine List.forall_mem_cons.mpr ⟨fun content hcontent => ?_, hrun⟩
      exact Option.some_inj.mp (hcontent.symm.trans hfirst)
    cases i with
    | zero =>
      obtain rfl : item = item' := Option.some_inj.mp (hitem.symm.trans hitem')
      exact hearly ⟨rfl, hpredates⟩
    | succ i =>
      refine hnews.2 ?_
      rw [hsame _ (List.get_mem _ _) _ hnews.1, ← List.nil_append ((first :: later).take (i + 1))]
      refine lastRead_append_of_readsOnly
        (fun poll hpoll => hsame poll (List.mem_of_mem_take hpoll)) (.inr ⟨first, ?_, hfirst⟩)
      exact List.mem_cons_self
  conflict polls poll conflict := reportsConflict_iff rfl polls poll conflict
  green polls poll := reportsGreen_iff rfl polls poll
  green_once polls poll stretch later hhead hreported := by
    rw [reportsGreen_iff rfl] at hreported ⊢
    rintro ⟨-, hlast⟩
    refine hlast ?_
    rw [sinceHead_append hhead]
    exact lastRead_append_of_readsOnly (fun _ _ _ _ => rfl)
      (.inr ⟨poll, List.mem_cons_self, hreported.1⟩)

end Cursors

/-! ## Reported again, or never -/

/-- A watch of pull request 42, at head `a`. -/
def sampleWatch : PrWatchRecord := newWatch 0 "s" "p" 42 false "a" "2026-01-01T00:00:00Z"

/-- A pass over an open pull request. -/
def openPoll (head : String) (checks : List RollupEntry) (comments : List PrComment)
    (mergeable : String) : Poll where
  pr := ⟨head, some "OPEN", none, none, "2026-01-01T00:01:00Z", none⟩
  view := ⟨some "OPEN", some head, some checks, none, some comments, none, none, none,
    some mergeable, none⟩
  terminal := none
  graph := none
  cleanup := none

/-- An entry of the check `build` of the workflow `CI`. -/
def buildEntry (conclusion : String) : RollupEntry :=
  ⟨none, none, some conclusion, some "build", some "CI", none⟩

def greenPoll (head : String) : Poll := openPoll head [buildEntry "SUCCESS"] [] "MERGEABLE"

def mixedPoll : Poll := openPoll "a" [buildEntry "SUCCESS", buildEntry "FAILURE"] [] "MERGEABLE"

def ownComment : PrComment :=
  ⟨"c", none, some "Done.", none, some "2026-01-01T00:00:30Z", some true⟩

/-- What a watch reports more than once, or not at all: green checks of a head that returns, a
check with two entries that differ, a conflict that was never clean, and a comment of its own
user. -/
theorem reported_again :
    feedbackItem "c" (openPoll "a" [] [ownComment] "MERGEABLE") ≠ none ∧
      ∀ (parseTime : String → Option ℤ) (sha256 : List UInt8 → String),
        (ReportsGreen parseTime sha256 sampleWatch [] (greenPoll "a") ∧
          ReportsGreen parseTime sha256 sampleWatch [greenPoll "a", greenPoll "b"]
            (greenPoll "a")) ∧
        (ReportsFailing parseTime sha256 sampleWatch [] mixedPoll "CI/build@a" ∧
          ReportsFailing parseTime sha256 sampleWatch [mixedPoll] mixedPoll "CI/build@a") ∧
        ReportsConflict parseTime sha256 sampleWatch [] (openPoll "a" [] [] "CONFLICTING")
          .conflicting ∧
        ∀ edited, ¬ ReportsFeedback parseTime sha256 sampleWatch []
          (openPoll "a" [] [ownComment] "MERGEABLE") "c" edited := by
  refine ⟨by decide, fun parseTime sha256 => ⟨⟨?_, ?_⟩, ⟨?_, ?_⟩, ?_, ?_⟩⟩
  · exact (reportsGreen_iff rfl _ _).mpr ⟨by rfl, by decide⟩
  · exact (reportsGreen_iff rfl _ _).mpr ⟨by rfl, by decide⟩
  · refine reportsFailing_of_mem rfl ?_
    rw [watchRun, List.foldl_nil]
    decide
  · refine reportsFailing_of_mem rfl ?_
    rw [checkScan, watchRun, List.foldl_cons, List.foldl_nil, seenChecks_afterPass _ rfl]
    decide
  · exact (reportsConflict_iff rfl _ _ _).mpr
      ⟨⟨by rfl, by decide⟩, fun h => by cases h⟩
  · intro edited hreports
    obtain ⟨-, item, hitem, -, hreportable, -⟩ := (reportsFeedback_iff rfl rfl _ _ _ _).mp hreports
    have hown : (feedbackItem "c" (openPoll "a" [] [ownComment] "MERGEABLE")).any
        (·.reportable) = false := by rfl
    simp [hitem, hreportable] at hown

end Argmax.Gh
