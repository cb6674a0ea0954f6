import Argmax.Json

/-!
# The transcripts on disk

`discover` of `sync/claude.rs`: the transcripts of the store of Claude Code that were modified
inside the window of a sweep, with what the head of each tells of its session. The title and the
model of a session are out of the model.

The text of an instant is chrono's, and a parameter.
-/

namespace Argmax.Sync

/-- A file in a folder of the transcript store. -/
structure TranscriptFile where
  path : String
  /-- The name without its extension, where it can be read as text. -/
  stem : Option String
  extension : Option String
  /-- `none` for a file without metadata, else its modification time in milliseconds. -/
  metadata : Option (Option ℤ)
  /-- The lines of the head that are JSON, of a file that can be opened. -/
  head : Option (List Json)

/-- A folder of the transcript store: the transcripts of one checkout. -/
structure ProjectFolder where
  isDir : Bool
  files : Option (List TranscriptFile)

structure Disk where
  folders : Option (List ProjectFolder)
  /-- `Path::exists`. -/
  present : String → Bool

structure DiscoveredSession where
  externalId : String
  cwd : String
  sourcePath : String
  sourceMtimeMs : ℤ
  startedAt : String
  lastActivityAt : String

/-- A time before the epoch counts as the epoch. -/
def modifiedMs (modified : Option ℤ) : ℤ := (modified.filter fun time => 0 ≤ time).getD 0

/-- A text field of a line. -/
def textField (key : String) (line : Json) : Option String := (line.get key).bind Json.asStr

variable (isoFromMs : ℤ → Option String)

def readMetadata (file : TranscriptFile) (mtimeMs : ℤ) : Option DiscoveredSession := do
  let externalId ← file.stem.filter fun stem => !stem.isEmpty
  let head ← file.head
  let cwd ← head.findSome? (textField "cwd")
  let startedAt ← head.findSome? (textField "timestamp")
  -- The head may stop short of the last line, so the file's time comes first.
  let lastActivityAt ← (isoFromMs mtimeMs).or (head.filterMap (textField "timestamp")).getLast?
  some
    { externalId := externalId
      cwd := cwd
      sourcePath := file.path
      sourceMtimeMs := mtimeMs
      startedAt := startedAt
      lastActivityAt := lastActivityAt }

/-- The transcripts of the store. -/
def Disk.transcripts (disk : Disk) : List TranscriptFile :=
  ((disk.folders.getD []).filter fun folder => folder.isDir).flatMap fun folder =>
    (folder.files.getD []).filter fun file => file.extension == some "jsonl"

def discover (disk : Disk) (cutoffMs : ℤ) : List DiscoveredSession :=
  disk.transcripts.filterMap fun file => do
    let modified ← file.metadata
    let mtimeMs := modifiedMs modified
    if mtimeMs < cutoffMs then none else readMetadata isoFromMs file mtimeMs

/-- A transcript of the session `externalId` was modified inside the window. -/
def Disk.HasRecent (disk : Disk) (cutoffMs : ℤ) (externalId : String) : Prop :=
  ∃ file ∈ disk.transcripts, file.stem = some externalId ∧
    ∃ modified, file.metadata = some modified ∧ cutoffMs ≤ modifiedMs modified

theorem externalId_readMetadata {file : TranscriptFile} {mtimeMs : ℤ}
    {session : DiscoveredSession} (h : readMetadata isoFromMs file mtimeMs = some session) :
    file.stem = some session.externalId := by
  simp only [readMetadata, Option.bind_eq_bind, Option.bind_eq_some_iff, Option.some.injEq] at h
  obtain ⟨externalId, hstem, _, _, _, _, _, _, _, _, hsession⟩ := h
  rw [← hsession]
  exact (Option.filter_eq_some_iff.mp hstem).1

/-- What a sweep is offered was modified inside its window. -/
theorem hasRecent_of_mem_discover {disk : Disk} {cutoffMs : ℤ} {session : DiscoveredSession}
    (h : session ∈ discover isoFromMs disk cutoffMs) :
    disk.HasRecent cutoffMs session.externalId := by
  have ⟨file, hfile, hread⟩ := List.mem_filterMap.mp h
  simp only [Option.bind_eq_bind, Option.bind_eq_some_iff] at hread
  obtain ⟨modified, hmodified, hread⟩ := hread
  by_cases hlate : modifiedMs modified < cutoffMs
  · rw [if_pos hlate] at hread
    cases hread
  · rw [if_neg hlate] at hread
    have hstem := externalId_readMetadata isoFromMs hread
    exact ⟨file, hfile, hstem, modified, hmodified, Int.not_lt.mp hlate⟩

end Argmax.Sync
