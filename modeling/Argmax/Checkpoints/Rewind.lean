import Argmax.Checkpoints.Files
import Argmax.SessionControl.Waits

/-!
# Checkpoints and rewinds

`checkpoints/service.rs`: a checkpoint holds the visible working tree and the index of a checkout,
and a rewind brings both back. What is to be deleted comes from the difference of two trees, what
is to be restored from one of them, and what is ignored from a listing of the checkout.

Git commands do what their documentation says, on files that are told apart by their path. Which
paths the ignore rules cover depends on the files that are there, and is a parameter.
-/

namespace Argmax.Checkpoints

open Argmax.Lib.Text (trim)
open Argmax.SessionControl (SessionState)

/-! ## Errors -/

inductive RewindError where
  | workspaceMismatch
  | workspaceUnsupported
  | activeWriters
  | unmergedIndex
  | submoduleUnsupported
  /-- HEAD is no branch. -/
  | headDetached
  | stalePreview
  | revisionChanged
  | diffMalformed
  | pathEscape (raw : List Char)
  | ignoredPathConflict (path : List Char)
  | restoreDeleteFailed (path : List Char)
  deriving DecidableEq

namespace RewindError

def subCode : RewindError → String
  | workspaceMismatch => "CHECKPOINT_WORKSPACE_MISMATCH"
  | workspaceUnsupported => "CHECKPOINT_WORKSPACE_UNSUPPORTED"
  | activeWriters => "CHECKPOINT_ACTIVE_WRITERS"
  | unmergedIndex => "CHECKPOINT_UNMERGED_INDEX"
  | submoduleUnsupported => "CHECKPOINT_SUBMODULE_UNSUPPORTED"
  | headDetached => "GIT_COMMAND_FAILED"
  | stalePreview => "CHECKPOINT_REWIND_STALE_PREVIEW"
  | revisionChanged => "CHECKPOINT_REWIND_REVISION_CHANGED"
  | diffMalformed => "CHECKPOINT_DIFF_MALFORMED"
  | pathEscape _ => "CHECKPOINT_PATH_ESCAPE"
  | ignoredPathConflict _ => "CHECKPOINT_IGNORED_PATH_CONFLICT"
  | restoreDeleteFailed _ => "CHECKPOINT_RESTORE_DELETE_FAILED"

end RewindError

/-! ## The checkout -/

structure Checkout where
  /-- The files of the working tree. -/
  files : Files
  /-- The index, if the checkout has one. -/
  index : Option Files
  /-- The tree of HEAD. -/
  head : Files
  headSha : String
  /-- The branch that HEAD is. -/
  branch : Option String
  unmerged : Bool
  submodules : Bool

structure CheckoutFingerprint where
  headSha : String
  branch : String
  worktreeTree : Files
  indexTree : Files
  deriving DecidableEq

structure Checkpoint where
  id : String
  workspaceId : String
  sessionId : Option String
  label : String
  branch : String
  headSha : String
  worktreeTree : Files
  indexTree : Files
  untrackedPaths : List (List Char)
  turnBoundary : Option String
  providerConversationId : Option String
  recoveryOf : Option String
  createdAt : String
  deriving DecidableEq

/-- Whether the ignore rules cover a path, when these files are there. -/
abbrev IgnoreRules := Files → Path → Bool

section

variable (ignores : IgnoreRules)

namespace Checkout

/-- What the scratch index starts from: the index, or else HEAD. -/
def seed (checkout : Checkout) : Files := checkout.index.getD checkout.head

def indexTree (checkout : Checkout) : Files := checkout.index.getD .empty

/-- `add --all` in the scratch index. -/
def stageVisibleWorktree (checkout : Checkout) : Files :=
  checkout.files.filter fun path => checkout.seed.has path || !ignores checkout.files path

def dropForceStagedIgnored (checkout : Checkout) (index : Files) : Files :=
  index.filter fun path => !ignores checkout.files path || checkout.head.has path

def snapshotVisibleWorktree (checkout : Checkout) : Files :=
  checkout.dropForceStagedIgnored ignores (checkout.stageVisibleWorktree ignores)

/-- `ls-files --others --ignored --exclude-standard`. -/
def ignoredPaths (checkout : Checkout) : List Path :=
  checkout.files.paths.filter fun path =>
    ignores checkout.files path && !checkout.indexTree.has path

/-- `ls-files --others --exclude-standard`. -/
def untrackedPaths (checkout : Checkout) : List (List Char) :=
  (checkout.files.paths.filter fun path =>
    !ignores checkout.files path && !checkout.indexTree.has path).map Path.text

def ensureSupported (checkout : Checkout) : Except RewindError Unit :=
  if checkout.unmerged then .error .unmergedIndex
  else if checkout.submodules then .error .submoduleUnsupported
  else .ok ()

/-- `checkout_fingerprint`. -/
def fingerprint (checkout : Checkout) : Except RewindError CheckoutFingerprint :=
  match checkout.branch with
  | none => .error .headDetached
  | some branch =>
    .ok ⟨checkout.headSha, branch, checkout.snapshotVisibleWorktree ignores, checkout.indexTree⟩

end Checkout

/-! ## Differences -/

inductive DiffStatus where
  | added
  | deleted
  | modified
  | typeChanged
  deriving DecidableEq

def DiffStatus.text : DiffStatus → List Char
  | added => ['A']
  | deleted => ['D']
  | modified => ['M']
  | typeChanged => ['T']

/-- What became of what lay at a path. -/
def diffStatus : Option Blob → Option Blob → Option DiffStatus
  | none, none => none
  | none, some _ => some .added
  | some _, none => some .deleted
  | some blob, some blob' =>
    if blob = blob' then none
    else if (blob.kind = .symlink) = (blob'.kind = .symlink) then some .modified
    else some .typeChanged

/-- `diff --name-status --no-renames`. -/
def diff (target current : Files) : List (DiffStatus × Path) :=
  let paths := target.paths ++ current.paths.filter fun path => !target.has path
  (paths.insertionSort fun path path' => path.text ≤ path'.text).filterMap fun path =>
    (diffStatus (target.find? path) (current.find? path)).map fun status => (status, path)

def diffText (target current : Files) : List Char :=
  nulList ((diff target current).flatMap fun change => [change.1.text, change.2.text])

/-- Whether a path leads out of the checkout. -/
def escapes (raw : List Char) : Bool :=
  (components raw).any fun component => component == .rootDir || component == .parentDir

def validateRelativePaths (paths : List (List Char)) : Except RewindError Unit :=
  match paths.find? escapes with
  | some raw => .error (.pathEscape raw)
  | none => .ok ()

/-- The loop of `tree_changes`: the changed paths and the deleted ones. -/
def pairChanges : List (List Char) → Except RewindError (List (List Char) × List (List Char))
  | [] => .ok ([], [])
  | [_] => .error .diffMalformed
  | status :: path :: rest =>
    match validateRelativePaths [path], pairChanges rest with
    | .error error, _ => .error error
    | .ok (), .error error => .error error
    | .ok (), .ok (changed, deleted) =>
      .ok (if status = ['A'] then (changed, path :: deleted) else (path :: changed, deleted))

def treeChanges (target current : Files) :
    Except RewindError (List (List Char) × List (List Char)) :=
  pairChanges (fields (diffText target current))

/-! ## Restoring -/

/-- `git_text`: what a command printed, trimmed. -/
def gitText (raw : List Char) : List Char := trim raw

/-- `ls-tree -r --name-only -z`, as it is parsed. -/
def targetPaths (target : Files) : List (List Char) :=
  fields (gitText (nulList (target.paths.map Path.text)))

/-- The ignored paths, as they are parsed. -/
def listedIgnored (checkout : Checkout) : List (List Char) :=
  fields (gitText (nulList ((checkout.ignoredPaths ignores).map Path.text)))

/-- What is looked at before a file is touched. -/
def checkRestore (checkout : Checkout) (target : Files) (deletePaths : List (List Char)) :
    Except RewindError Unit := do
  validateRelativePaths deletePaths
  validateRelativePaths (targetPaths target)
  match (listedIgnored ignores checkout).find? fun ignored =>
    (targetPaths target ++ deletePaths).any (collides ignored) with
  | some ignored => .error (.ignoredPathConflict ignored)
  | none => .ok ()

/-- What `symlink_metadata` says of a path. -/
inductive Metadata where
  | file
  /-- A directory, with something in it. -/
  | directory
  | notFound
  /-- A file is in the place of a directory that leads there. -/
  | notADirectory

def symlinkMetadata (files : Files) (raw : List Char) : Metadata :=
  let place := components raw
  if files.entries.any fun e => components e.1.text == place then .file
  else if files.entries.any fun e => place.isPrefixOf (components e.1.text) then .directory
  else if files.entries.any fun e => (components e.1.text).isPrefixOf place then .notADirectory
  else .notFound

def removeFile (files : Files) (raw : List Char) : Files :=
  files.filter fun path => components path.text != components raw

/-- The loop that deletes. -/
def deletePaths : List (List Char) → Files → Except RewindError Unit × Files
  | [], files => (.ok (), files)
  | raw :: rest, files =>
    match symlinkMetadata files raw with
    | .file => deletePaths rest (removeFile files raw)
    | .notFound => deletePaths rest files
    -- `remove_dir` fails on a directory that holds something.
    | .directory | .notADirectory => (.error (.restoreDeleteFailed raw), files)

/-- `checkout-index --all --force` with a tree that was read into the scratch index. -/
def checkoutIndex (target files : Files) : Files :=
  target.entries.foldl (fun files e => files.write e.1 e.2) files

def materializeTree (checkout : Checkout) (target : Files) (deleted : List (List Char)) :
    Except RewindError Unit × Files :=
  match checkRestore ignores checkout target deleted with
  | .error error => (.error error, checkout.files)
  | .ok () =>
    match deletePaths deleted checkout.files with
    | (.error error, files) => (.error error, files)
    | (.ok (), files) => (.ok (), checkoutIndex target files)

/-! ## Capturing -/

structure CreateCheckpointInput where
  workspaceId : String
  sessionId : Option String
  label : String
  turnBoundary : Option String
  recoveryOf : Option String

/-- What a checkpoint draws: its id and the time. -/
structure Fresh where
  id : String
  now : String

/-- `capture_with_fingerprint`, with the conversation of the session. -/
def captureWithFingerprint (checkout : Checkout) (input : CreateCheckpointInput)
    (conversation : Option String) (fingerprint : CheckoutFingerprint) (fresh : Fresh) :
    Except RewindError Checkpoint := do
  validateRelativePaths (checkout.untrackedPaths ignores)
  return {
    id := fresh.id
    workspaceId := input.workspaceId
    sessionId := input.sessionId
    label := input.label
    branch := fingerprint.branch
    headSha := fingerprint.headSha
    worktreeTree := fingerprint.worktreeTree
    indexTree := fingerprint.indexTree
    untrackedPaths := checkout.untrackedPaths ignores
    turnBoundary := input.turnBoundary
    providerConversationId := conversation
    recoveryOf := input.recoveryOf
    createdAt := fresh.now }

def captureLocked (checkout : Checkout) (input : CreateCheckpointInput)
    (conversation : Option String) (fresh : Fresh) : Except RewindError Checkpoint := do
  checkout.ensureSupported
  captureWithFingerprint ignores checkout input conversation (← checkout.fingerprint ignores) fresh

/-! ## The rewind -/

structure Workspace where
  id : String
  kind : String
  path : String

inductive RewindStatus where
  | running
  | complete
  | failed (failure : RewindError)

/-- A row of `checkpoint_rewinds`. -/
structure Rewind where
  id : String
  checkpointId : String
  recoveryCheckpointId : String
  workspaceId : String
  status : RewindStatus

structure State where
  checkout : Checkout
  /-- The states of the sessions whose workspace is this checkout. -/
  sessions : List SessionState
  checkpoints : List Checkpoint
  rewinds : List Rewind

structure RewindFilesResult where
  checkpoint : Checkpoint
  recoveryCheckpoint : Checkpoint
  restoredPaths : List (List Char)
  deriving DecidableEq

def ensureNoActiveWriters (sessions : List SessionState) : Except RewindError Unit :=
  if sessions.any SessionState.isActive then .error .activeWriters else .ok ()

def workspacePath (workspace : Workspace) : Except RewindError String :=
  if workspace.kind ≠ "git" ∨ workspace.path = "" then .error .workspaceUnsupported
  else .ok workspace.path

/-- What is checked and read before a rewind is journaled: the recovery checkpoint, the paths that
changed and those to delete. -/
def prepareRewind (s : State) (workspace : Workspace) (checkpoint : Checkpoint)
    (expected : CheckoutFingerprint) (fresh : Fresh) :
    Except RewindError (Checkpoint × List (List Char) × List (List Char)) := do
  if checkpoint.workspaceId ≠ workspace.id then .error .workspaceMismatch
  let _ ← workspacePath workspace
  ensureNoActiveWriters s.sessions
  s.checkout.ensureSupported
  let current ← s.checkout.fingerprint ignores
  if current ≠ expected then .error .stalePreview
  if checkpoint.headSha = "" ∨ checkpoint.headSha ≠ current.headSha ∨
      checkpoint.branch ≠ current.branch then
    .error .revisionChanged
  let (restored, deleted) ← treeChanges checkpoint.worktreeTree current.worktreeTree
  let input := ⟨workspace.id, none, "Recovery before rewind to " ++ checkpoint.label, none,
    some checkpoint.id⟩
  let recovery ← captureWithFingerprint ignores s.checkout input none current fresh
  return (recovery, restored, deleted)

def finishRewind (rewinds : List Rewind) (id : String) (status : RewindStatus) : List Rewind :=
  rewinds.map fun rewind => if rewind.id = id then { rewind with status := status } else rewind

def rewindFiles (s : State) (workspace : Workspace) (checkpoint : Checkpoint)
    (expected : CheckoutFingerprint) (fresh : Fresh) (rewindId : String) :
    Except RewindError RewindFilesResult × State :=
  match prepareRewind ignores s workspace checkpoint expected fresh with
  | .error error => (.error error, s)
  | .ok (recovery, restored, deleted) =>
    -- `start_rewind`.
    let rewinds := ⟨rewindId, checkpoint.id, recovery.id, workspace.id, .running⟩ :: s.rewinds
    let checkpoints := recovery :: s.checkpoints
    match materializeTree ignores s.checkout checkpoint.worktreeTree deleted with
    | (.ok (), files) =>
      (.ok ⟨checkpoint, recovery, restored⟩,
        { s with
          checkout.files := files
          -- `read-tree` of the index tree.
          checkout.index := some checkpoint.indexTree
          checkpoints := checkpoints
          rewinds := finishRewind rewinds rewindId .complete })
    | (.error error, files) =>
      (.error error,
        { s with
          checkout.files := files
          checkpoints := checkpoints
          rewinds := finishRewind rewinds rewindId (.failed error) })

end

end Argmax.Checkpoints
