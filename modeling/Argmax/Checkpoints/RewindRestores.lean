import Argmax.Checkpoints.Rewind

/-!
# What a rewind restores

After a rewind the working tree holds the files of the checkpoint, and besides them the files that
were not visible before and had no room to make. So the visible tree is the checkpoint's as long as
the ignore rules that were restored go on hiding those.

An ignored file has no room to make, since the rewind is refused before it touches a file. The
listings of that check are trimmed, so this is said of listings that do not begin with a blank.
-/

namespace Argmax.Checkpoints

open Argmax.Lib.Text (trim trimStart trimEnd isWhitespace)

variable {ignores : IgnoreRules}

/-! ## The visible working tree -/

/-- A path is part of the visible working tree when it is there. -/
def Checkout.shows (ignores : IgnoreRules) (checkout : Checkout) (path : Path) : Bool :=
  !ignores checkout.files path || (checkout.seed.has path && checkout.head.has path)

variable {checkout : Checkout} {target files : Files} {deleted : List (List Char)}

theorem mem_snapshot {e : Path × Blob} :
    e ∈ (checkout.snapshotVisibleWorktree ignores).entries ↔
      e ∈ checkout.files.entries ∧ checkout.shows ignores e.1 = true := by
  simp only [Checkout.snapshotVisibleWorktree, Checkout.dropForceStagedIgnored,
    Checkout.stageVisibleWorktree, Files.mem_filter, Checkout.shows, Bool.or_eq_true,
    Bool.and_eq_true]
  tauto

/-! ## Differences -/

/-- What was added is what only the current tree has. -/
theorem mem_diff_added {current : Files} {path : Path} :
    (DiffStatus.added, path) ∈ diff target current ↔
      path ∉ target.paths ∧ path ∈ current.paths := by
  have hadded : ∀ old new, diffStatus old new = some .added ↔ old = none ∧ new.isSome = true := by
    intro old new
    cases old <;> cases new <;> simp [diffStatus]
    split_ifs <;> simp
  have hcurrent : (current.find? path).isSome = true ↔ path ∈ current.paths := by
    rw [← not_iff_not, Bool.not_eq_true, Option.isSome_eq_false_iff, Option.isNone_iff_eq_none,
      Files.find?_eq_none]
  simp only [diff, List.mem_filterMap, List.mem_insertionSort, List.mem_append, List.mem_filter,
    Option.map_eq_some_iff, Prod.mk.injEq, Bool.not_eq_true']
  constructor
  · rintro ⟨path', _, status, hstatus, rfl, rfl⟩
    rw [hadded, Files.find?_eq_none, hcurrent] at hstatus
    exact hstatus
  · rintro ⟨htarget, hmem⟩
    refine ⟨path, .inr ⟨hmem, ?_⟩, .added, ?_, rfl, rfl⟩
    · rwa [← Bool.not_eq_true, Files.has_iff]
    · rw [hadded, Files.find?_eq_none, hcurrent]
      exact ⟨htarget, hmem⟩

/-- The pairs of a diff are read back. -/
theorem pairChanges_eq_ok {changes : List (DiffStatus × Path)} {changed : List (List Char)}
    (h : pairChanges (changes.flatMap fun change => [change.1.text, change.2.text]) =
      .ok (changed, deleted)) (raw : List Char) :
    raw ∈ deleted ↔ ∃ path, (DiffStatus.added, path) ∈ changes ∧ path.text = raw := by
  induction changes generalizing changed deleted with
  | nil =>
    simp only [List.flatMap_nil, pairChanges, Except.ok.injEq, Prod.mk.injEq] at h
    simp [← h.2]
  | cons change changes ih =>
    simp only [List.flatMap_cons, List.cons_append, pairChanges] at h
    split at h
    · simp at h
    · simp at h
    · rename_i changed' deleted' _ hrest
      have hstatus : change.1.text = ['A'] ↔ change.1 = .added := by
        cases change.1 <;> simp [DiffStatus.text]
      have hpaths := ih hrest
      simp only [hstatus, Except.ok.injEq] at h
      by_cases hadded : change.1 = .added
      · rw [if_pos hadded, Prod.mk.injEq] at h
        rw [← h.2, List.mem_cons, hpaths]
        constructor
        · rintro (rfl | ⟨path, hpath, rfl⟩)
          · exact ⟨change.2, by simp [← hadded], rfl⟩
          · exact ⟨path, List.mem_cons_of_mem _ hpath, rfl⟩
        · rintro ⟨path, hpath, rfl⟩
          rcases List.mem_cons.mp hpath with rfl | hpath
          · exact .inl rfl
          · exact .inr ⟨path, hpath, rfl⟩
      · rw [if_neg hadded, Prod.mk.injEq] at h
        rw [← h.2, hpaths]
        refine ⟨fun ⟨path, hpath, hraw⟩ => ⟨path, List.mem_cons_of_mem _ hpath, hraw⟩, ?_⟩
        rintro ⟨path, hpath, rfl⟩
        rcases List.mem_cons.mp hpath with rfl | hpath
        · simp at hadded
        · exact ⟨path, hpath, rfl⟩

/-- The paths to delete are those that only the current tree has. -/
theorem treeChanges_eq_ok {current : Files} {changed : List (List Char)}
    (h : treeChanges target current = .ok (changed, deleted)) (raw : List Char) :
    raw ∈ deleted ↔ ∃ path ∈ current.paths, path ∉ target.paths ∧ path.text = raw := by
  rw [treeChanges, diffText, fields_nulList] at h
  · rw [pairChanges_eq_ok h]
    simp only [mem_diff_added]
    constructor
    · rintro ⟨path, ⟨htarget, hcurrent⟩, hraw⟩
      exact ⟨path, hcurrent, htarget, hraw⟩
    · rintro ⟨path, hcurrent, htarget, hraw⟩
      exact ⟨path, ⟨htarget, hcurrent⟩, hraw⟩
  · intro text htext
    simp only [List.mem_flatMap, List.mem_cons, List.not_mem_nil, or_false] at htext
    obtain ⟨change, _, rfl | rfl⟩ := htext
    · cases change.1 <;> simp [DiffStatus.text, nul]
    · exact change.2.clean

/-! ## Restoring -/

/-- What is left of the files when some paths were deleted. -/
theorem mem_of_deletePaths {files' : Files} (h : deletePaths deleted files = (.ok (), files'))
    (e : Path × Blob) :
    e ∈ files'.entries ↔
      e ∈ files.entries ∧ ∀ raw ∈ deleted, components e.1.text ≠ components raw := by
  induction deleted generalizing files with
  | nil =>
    simp only [deletePaths, Prod.mk.injEq] at h
    simp [h]
  | cons raw deleted ih =>
    simp only [deletePaths] at h
    split at h
    · rw [ih h]
      simp [removeFile, and_assoc]
    · rename_i hmetadata
      rw [ih h]
      -- Where nothing was found there is nothing to remove.
      have hnone : ∀ e ∈ files.entries, components e.1.text ≠ components raw := by
        intro e he heq
        have : (files.entries.any fun e => components e.1.text == components raw) = true := by
          rw [List.any_eq_true]
          exact ⟨e, he, by simpa using heq⟩
        simp [symlinkMetadata, this] at hmetadata
      simp only [List.forall_mem_cons]
      constructor
      · rintro ⟨he, hrest⟩
        exact ⟨he, hnone e he, hrest⟩
      · rintro ⟨he, _, hrest⟩
        exact ⟨he, hrest⟩
    · simp at h
    · simp at h

/-- Nothing that is listed as ignored is in the way of a restore. -/
theorem collides_of_checkRestore (h : checkRestore ignores checkout target deleted = .ok ())
    {ignored raw : List Char} (hignored : ignored ∈ listedIgnored ignores checkout)
    (hraw : raw ∈ targetPaths target ∨ raw ∈ deleted) : collides ignored raw = false := by
  simp only [checkRestore, bind, Except.bind] at h
  split at h
  · simp at h
  split at h
  · simp at h
  split at h
  · simp at h
  · rename_i hfind
    rw [List.find?_eq_none] at hfind
    have := hfind ignored hignored
    simp only [Bool.not_eq_true, List.any_eq_false] at this
    exact this raw (List.mem_append.mpr hraw)

/-- A listing ends with a separator, which is no blank. -/
theorem trimEnd_nulList (texts : List (List Char)) : trimEnd (nulList texts) = nulList texts := by
  rcases List.eq_nil_or_concat texts with rfl | ⟨front, text, rfl⟩
  · rfl
  · have hlast : nulList (front.concat text) = nulList front ++ text ++ [nul] := by
      simp [nulList]
    rw [hlast, trimEnd, List.rdropWhile_concat_neg]
    decide

/-- A listing that does not begin with a blank is read back although it is trimmed. -/
theorem fields_gitText {paths : List Path}
    (h : ∀ c ∈ (nulList (paths.map Path.text)).head?, isWhitespace c = false) :
    fields (gitText (nulList (paths.map Path.text))) = paths.map Path.text := by
  have htrim : trim (nulList (paths.map Path.text)) = nulList (paths.map Path.text) := by
    have hstart : trimStart (nulList (paths.map Path.text)) = nulList (paths.map Path.text) := by
      cases hlist : nulList (paths.map Path.text) with
      | nil => rfl
      | cons c rest =>
        rw [hlist] at h
        simp [trimStart, h c (by simp)]
    rw [trim, hstart, trimEnd_nulList]
  rw [gitText, htrim, fields_nulList]
  intro text htext
  obtain ⟨path, _, rfl⟩ := List.mem_map.mp htext
  exact path.clean

/-! ## Main results -/

/-- No listing that is trimmed begins with a blank. -/
def ListsCleanly (ignores : IgnoreRules) (checkout : Checkout) (target : Files) : Prop :=
  (∀ c ∈ (nulList (target.paths.map Path.text)).head?, isWhitespace c = false) ∧
    ∀ c ∈ (nulList ((checkout.ignoredPaths ignores).map Path.text)).head?, isWhitespace c = false

/-- What a rewind leaves. -/
structure Restored (ignores : IgnoreRules) (before after : Checkout) (checkpoint : Checkpoint) :
    Prop where
  /-- The files are those of the checkpoint, and those that were not visible before and are not in
  the way of one. -/
  files : ∀ e, e ∈ after.files.entries ↔ e ∈ checkpoint.worktreeTree.entries ∨
    (e ∈ before.files.entries ∧ before.shows ignores e.1 = false ∧
      ∀ path ∈ checkpoint.worktreeTree.paths, collides path.text e.1.text = false)
  index : after.index = some checkpoint.indexTree
  /-- No ignored file is removed or overwritten. -/
  ignored : ListsCleanly ignores before checkpoint.worktreeTree →
    ∀ e ∈ before.files.entries, e.1 ∈ before.ignoredPaths ignores → e ∈ after.files.entries
  /-- The visible tree is the checkpoint's, when the rules show its paths and go on hiding what
  they hid. -/
  visible : (∀ path ∈ checkpoint.worktreeTree.paths, after.shows ignores path = true) →
    (∀ path ∈ before.files.paths, before.shows ignores path = false →
      path ∉ checkpoint.worktreeTree.paths → after.shows ignores path = false) →
    after.snapshotVisibleWorktree ignores = checkpoint.worktreeTree

/-- What the files are once they were materialized. -/
theorem mem_of_materializeTree
    (h : materializeTree ignores checkout target deleted = (.ok (), files)) (e : Path × Blob) :
    checkRestore ignores checkout target deleted = .ok () ∧
      (e ∈ files.entries ↔ e ∈ target.entries ∨
        ((∀ path ∈ target.paths, collides path.text e.1.text = false) ∧
          e ∈ checkout.files.entries ∧ ∀ raw ∈ deleted, components e.1.text ≠ components raw)) := by
  simp only [materializeTree] at h
  split at h
  · simp at h
  · rename_i hcheck
    split at h
    · simp at h
    · rename_i files' hdelete
      simp only [Prod.mk.injEq, true_and] at h
      refine ⟨hcheck, ?_⟩
      rw [← h, checkoutIndex, Files.mem_foldl_write target.apart, mem_of_deletePaths hdelete]
      simp [Files.paths]

/-- A refusal for ignored content leaves the files alone. -/
theorem files_of_ignoredPathConflict {path : List Char}
    (h : materializeTree ignores checkout target deleted =
      (.error (.ignoredPathConflict path), files)) : files = checkout.files := by
  have hdelete : ∀ (deleted : List (List Char)) (files files' : Files),
      deletePaths deleted files ≠ (.error (.ignoredPathConflict path), files') := by
    intro deleted
    induction deleted with
    | nil => simp [deletePaths]
    | cons raw deleted ih =>
      intro files files'
      simp only [deletePaths]
      split
      · exact ih _ _
      · exact ih _ _
      · simp
      · simp
  simp only [materializeTree] at h
  split at h
  · simp only [Prod.mk.injEq] at h
    exact h.2.symm
  · split at h
    · rename_i herror
      simp only [Prod.mk.injEq] at h
      exact absurd (h.1 ▸ herror) (hdelete _ _ _)
    · simp at h

/-- The paths to delete are those that are visible and not in the checkpoint. -/
theorem mem_deleted_of_prepareRewind {s : State} {workspace : Workspace}
    {checkpoint recovery : Checkpoint} {expected : CheckoutFingerprint} {fresh : Fresh}
    {restored : List (List Char)}
    (h : prepareRewind ignores s workspace checkpoint expected fresh =
      .ok (recovery, restored, deleted)) (raw : List Char) :
    raw ∈ deleted ↔ ∃ path ∈ (s.checkout.snapshotVisibleWorktree ignores).paths,
      path ∉ checkpoint.worktreeTree.paths ∧ path.text = raw := by
  simp only [prepareRewind, bind, Except.bind, pure, Except.pure] at h
  split_ifs at h
  split at h
  · simp at h
  split at h
  · simp at h
  split at h
  · simp at h
  split at h
  · simp at h
  rename_i fingerprint hfingerprint
  split_ifs at h
  split at h
  · simp at h
  rename_i changes hchanges
  split at h
  · simp at h
  simp only [Except.ok.injEq, Prod.mk.injEq] at h
  have hworktree : fingerprint.worktreeTree = s.checkout.snapshotVisibleWorktree ignores := by
    simp only [Checkout.fingerprint] at hfingerprint
    split at hfingerprint
    · simp at hfingerprint
    · rw [← Except.ok.inj hfingerprint]
  rw [← hworktree, ← h.2.2]
  exact treeChanges_eq_ok hchanges raw

/-- A file that is in the way of none is deleted exactly if it was visible. -/
theorem kept_iff
    (hdeleted : ∀ raw, raw ∈ deleted ↔
      ∃ path ∈ (checkout.snapshotVisibleWorktree ignores).paths,
        path ∉ target.paths ∧ path.text = raw) {e : Path × Blob} (he : e ∈ checkout.files.entries)
    (hapart : ∀ path ∈ target.paths, collides path.text e.1.text = false) :
    (∀ raw ∈ deleted, components e.1.text ≠ components raw) ↔
      checkout.shows ignores e.1 = false := by
  constructor
  · intro hkept
    by_contra hshows
    have hcurrent : e ∈ (checkout.snapshotVisibleWorktree ignores).entries :=
      mem_snapshot.mpr ⟨he, by simpa using hshows⟩
    have htarget : e.1 ∉ target.paths := by
      intro hmem
      simpa using hapart e.1 hmem
    have hmem : e.1.text ∈ deleted :=
      (hdeleted _).mpr ⟨e.1, Files.mem_paths.mpr ⟨e.2, hcurrent⟩, htarget, rfl⟩
    exact hkept e.1.text hmem rfl
  · intro hhidden raw hraw heq
    obtain ⟨path, hpath, _, rfl⟩ := (hdeleted raw).mp hraw
    obtain ⟨blob, hblob⟩ := Files.mem_paths.mp hpath
    have ⟨hmem, hshows⟩ := mem_snapshot.mp hblob
    have := checkout.files.eq_of_collides he hmem (collides_of_components_eq heq)
    simp [this, hshows] at hhidden

/-- What is listed as ignored and is in the way of nothing is left. -/
theorem mem_of_ignored (h : materializeTree ignores checkout target deleted = (.ok (), files))
    (hclean : ListsCleanly ignores checkout target) {e : Path × Blob}
    (he : e ∈ checkout.files.entries) (hignored : e.1 ∈ checkout.ignoredPaths ignores) :
    e ∈ files.entries := by
  have ⟨hcheck, hfiles⟩ := mem_of_materializeTree h e
  have hlisted : e.1.text ∈ listedIgnored ignores checkout := by
    rw [listedIgnored, fields_gitText hclean.2]
    exact List.mem_map_of_mem hignored
  rw [hfiles]
  right
  refine ⟨?_, he, ?_⟩
  · intro path hpath
    rw [collides_comm]
    apply collides_of_checkRestore hcheck hlisted
    left
    rw [targetPaths, fields_gitText hclean.1]
    exact List.mem_map_of_mem hpath
  · intro raw hraw heq
    have := collides_of_checkRestore hcheck hlisted (.inr hraw)
    simp [collides_of_components_eq heq] at this

/-- **What a rewind restores.** When it succeeds, the working tree and the index are those of the
checkpoint beside what was not visible. When it is refused for ignored content, the checkout is as
it was. -/
theorem rewind_restores (ignores : IgnoreRules) (s : State) (workspace : Workspace)
    (checkpoint : Checkpoint) (expected : CheckoutFingerprint) (fresh : Fresh)
    (rewindId : String) :
    let outcome := rewindFiles ignores s workspace checkpoint expected fresh rewindId
    (outcome.1.isOk = true → Restored ignores s.checkout outcome.2.checkout checkpoint) ∧
    ∀ path, outcome.1 = .error (.ignoredPathConflict path) → outcome.2.checkout = s.checkout := by
  simp only [rewindFiles]
  split
  · simp [Except.toBool]
  rename_i recovery restored deleted hprepare
  have hdeleted := mem_deleted_of_prepareRewind hprepare
  split
  · rename_i files hmaterialize
    refine ⟨?_, by simp⟩
    intro _
    have hleft : ∀ e, e ∈ files.entries ↔ e ∈ checkpoint.worktreeTree.entries ∨
        (e ∈ s.checkout.files.entries ∧ s.checkout.shows ignores e.1 = false ∧
          ∀ path ∈ checkpoint.worktreeTree.paths, collides path.text e.1.text = false) := by
      intro e
      rw [(mem_of_materializeTree hmaterialize e).2]
      constructor
      · rintro (htarget | ⟨hapart, he, hkept⟩)
        · exact .inl htarget
        · exact .inr ⟨he, (kept_iff hdeleted he hapart).mp hkept, hapart⟩
      · rintro (htarget | ⟨he, hhidden, hapart⟩)
        · exact .inl htarget
        · exact .inr ⟨hapart, he, (kept_iff hdeleted he hapart).mpr hhidden⟩
    refine ⟨hleft, rfl, fun hclean e => mem_of_ignored hmaterialize hclean, ?_⟩
    intro hshown hhidden
    apply Files.ext_of_mem
    intro e
    rw [mem_snapshot]
    constructor
    · intro ⟨he, hshows⟩
      rcases (hleft e).mp he with htarget | ⟨hbefore, hnot, hapart⟩
      · exact htarget
      · have htarget : e.1 ∉ checkpoint.worktreeTree.paths := by
          intro hmem
          simpa using hapart e.1 hmem
        have := hhidden e.1 (Files.mem_paths.mpr ⟨e.2, hbefore⟩) hnot htarget
        simp [this] at hshows
    · intro he
      exact ⟨(hleft e).mpr (.inl he), hshown e.1 (Files.mem_paths.mpr ⟨e.2, he⟩)⟩
  · rename_i error files hmaterialize
    refine ⟨by simp [Except.toBool], ?_⟩
    intro path herror
    rw [Except.error.injEq] at herror
    rw [herror] at hmaterialize
    rw [files_of_ignoredPathConflict hmaterialize]

/-! ## An ignored file that comes into view -/

/-- A rule file at the top with one name in it. -/
def oneName : IgnoreRules := fun files path =>
  files.entries.any fun e => e.1.text == ".gitignore".toList && e.2.content.toList == path.text

def rulesPath : Path := ⟨".gitignore".toList, by decide⟩

def cachePath : Path := ⟨"cache".toList, by decide⟩

def notePath : Path := ⟨"note".toList, by decide⟩

/-- The committed note. -/
def committed : Files := Files.empty.write notePath ⟨.regular, "committed"⟩

/-- The edited note, beside a rule file that covers this name. -/
def editedNote (name : String) : Files :=
  (Files.empty.write notePath ⟨.regular, "edited"⟩).write rulesPath ⟨.regular, name⟩

def checkoutOf (files : Files) : Checkout where
  files := files
  index := some committed
  head := committed
  headSha := "e0"
  branch := some "main"
  unmerged := false
  submodules := false

/-- The checkpoint of a checkout with these files, where nothing is ignored. -/
def checkpointOf (files : Files) : Checkpoint where
  id := "c0"
  workspaceId := "w"
  sessionId := none
  label := "before"
  branch := "main"
  headSha := "e0"
  worktreeTree := files
  indexTree := committed
  untrackedPaths := (files.paths.filter fun path => path != notePath).map Path.text
  turnBoundary := none
  providerConversationId := none
  recoveryOf := none
  createdAt := "t0"

/-- Later a cache is ignored. -/
def withCache : Checkout := checkoutOf ((editedNote "cache").write cachePath ⟨.regular, "later"⟩)

/-- A rewind of that checkout, right after its preview. -/
def rewindCache (checkpoint : Checkpoint) : Except RewindError RewindFilesResult × State :=
  rewindFiles oneName ⟨withCache, [], [], []⟩ ⟨"w", "git", "/repo"⟩ checkpoint
    ⟨"e0", "main", withCache.snapshotVisibleWorktree oneName, withCache.indexTree⟩
    ⟨"c1", "t1"⟩ "r0"

/-- A checkpoint without the cache is restored beside it, and one with a cache is refused. -/
theorem rewind_restores_cache :
    Restored oneName withCache (rewindCache (checkpointOf (editedNote ""))).2.checkout
      (checkpointOf (editedNote "")) ∧
    (rewindCache (checkpointOf
      ((editedNote "").write cachePath ⟨.regular, "earlier"⟩))).2.checkout = withCache :=
  ⟨(rewind_restores oneName ⟨withCache, [], [], []⟩ ⟨"w", "git", "/repo"⟩
      (checkpointOf (editedNote ""))
      ⟨"e0", "main", withCache.snapshotVisibleWorktree oneName, withCache.indexTree⟩
      ⟨"c1", "t1"⟩ "r0").1 (by decide),
    (rewind_restores oneName ⟨withCache, [], [], []⟩ ⟨"w", "git", "/repo"⟩
      (checkpointOf ((editedNote "").write cachePath ⟨.regular, "earlier"⟩))
      ⟨"e0", "main", withCache.snapshotVisibleWorktree oneName, withCache.indexTree⟩
      ⟨"c1", "t1"⟩ "r0").2 cachePath.text (by decide)⟩

/-- The cache comes into view when the rule file of the checkpoint is back: the rewind succeeds, and
the visible tree is not that of the checkpoint. -/
theorem rewind_shows_cache :
    (captureLocked oneName (checkoutOf (editedNote "")) ⟨"w", none, "before", none, none⟩ none
      ⟨"c0", "t0"⟩).toOption = some (checkpointOf (editedNote "")) ∧
    (rewindCache (checkpointOf (editedNote ""))).1.isOk = true ∧
    (rewindCache (checkpointOf (editedNote ""))).2.checkout.snapshotVisibleWorktree oneName ≠
      (checkpointOf (editedNote "")).worktreeTree := by
  decide

end Argmax.Checkpoints
