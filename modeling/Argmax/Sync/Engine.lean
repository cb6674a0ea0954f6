import Argmax.Error
import Argmax.Lib.Procedure
import Argmax.Persistence.Synced

/-!
# The sync sweep

`run_sync` of `sync/engine.rs`, for Claude, whose transcripts alone can be read. A sweep prunes,
then reads what it knows of, then imports and extends one transcript after another, and at last
deletes the imports whose transcript is gone. What a step has written stays if a later one fails.

Nothing else writes to the store meanwhile. A sweep's counts, what it publishes and the events
it stores are out of the model. A statement of the store fails on a constraint alone.
-/

namespace Argmax.Sync

open Argmax.Lib Argmax.Persistence.Synced

/-- `SyncConfig`, of Claude. -/
structure SyncConfig where
  claude : Bool
  windowHours : ℕ

/-! ## Projects -/

/-- The components of a path. -/
def components (path : String) : List (List Char) :=
  let parts := path.toList.splitOn '/'
  let named := parts.filter fun part => part ≠ [] && part ≠ ['.']
  match parts with
  | [] :: _ :: _ => ['/'] :: named
  | ['.'] :: _ => ['.'] :: named
  | _ => named

/-- `sort_by_key`, the longest root first. -/
def longestFirst (projects : List (String × String)) : List (String × String) :=
  projects.mergeSort fun project other => decide (other.2.utf8ByteSize ≤ project.2.utf8ByteSize)

def owningProject (roots : List (String × String)) (cwd : String) : Option String :=
  match roots.find? fun project => (components project.2).isPrefixOf (components cwd) with
  | none => none
  | some (id, root) =>
    if roots.any fun other => other.1 != id && components other.2 == components root then none
    else some id

/-! ## Steps -/

abbrev SyncM := Proc Store ArgmaxError

def prune (before : Option String) : SyncM Unit :=
  Proc.modify fun store => store.deleteSessions (store.prunableSessionIds before)

def extend (record : SyncedSessionRecord) (session : DiscoveredSession) : SyncM Unit :=
  Proc.modify fun store => store.extendSession record.sessionId session

/-- `import`, that is rolled back where the transcript has its session by now. -/
def importTranscript (session : DiscoveredSession) : SyncM Unit := do
  let store ← Proc.get
  match store.importSession session with
  | some store => Proc.modify fun _ => store
  | none =>
    Proc.lift (.error (.service "SQLITE"
      "UNIQUE constraint failed: synced_sessions.provider, synced_sessions.external_id"))

section Transcripts

variable (roots : List (String × String)) (known : List String)
  (existing : List SyncedSessionRecord)

/-- A transcript that was found is extended, imported or left. -/
def sweepTranscript (session : DiscoveredSession) : SyncM Unit :=
  match existing.find? fun record => record.externalId == session.externalId with
  | some record =>
    if session.sourceMtimeMs ≤ record.sourceMtimeMs then pure () else extend record session
  | none =>
    match owningProject roots session.cwd with
    | none => pure ()
    | some _ =>
      -- The conversation may be a chat's that was started here.
      if known.contains session.externalId then pure () else importTranscript session

/-- The transcripts that were found, one after another. -/
def sweepDiscovered : List DiscoveredSession → SyncM Unit
  | [] => pure ()
  | session :: discovered => do
    sweepTranscript roots known existing session
    sweepDiscovered discovered

end Transcripts

/-- The imports whose transcript is gone, as they were before the sweep extended them. -/
def vanished (present : String → Bool) (existing : List SyncedSessionRecord) : List ℕ :=
  (existing.filter fun record => !record.adopted && !present record.sourcePath).map (·.sessionId)

def sweepProvider (present : String → Bool) (discovered : List DiscoveredSession) : SyncM Unit := do
  let store ← Proc.get
  let existing := store.listSyncedSessions
  sweepDiscovered (longestFirst store.projects) store.knownConversationIds existing discovered
  Proc.modify fun store => store.deleteSessions (vanished present existing)

/-! ## Sweeps -/

variable (isoFromMs : ℤ → Option String)

/-- The window of a sweep begins here. -/
def cutoffMs (config : SyncConfig) (nowMs : ℤ) : ℤ := nowMs - config.windowHours * 3600000

/-- Its text, which the pruner compares with. -/
def cutoffIso (config : SyncConfig) (nowMs : ℤ) : String :=
  (isoFromMs (cutoffMs config nowMs)).getD ""

def runSync (config : SyncConfig) (disk : Disk) (nowMs : ℤ) : SyncM Unit :=
  if config.claude then do
    prune (some (cutoffIso isoFromMs config nowMs))
    sweepProvider disk.present (discover isoFromMs disk (cutoffMs config nowMs))
  else prune none

end Argmax.Sync
