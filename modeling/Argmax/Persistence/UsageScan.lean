import Argmax.Lib.Table
import Argmax.Lib.Transition
import Argmax.Usage.Records
import Mathlib.Algebra.BigOperators.Group.List.Basic
import Mathlib.Data.List.Dedup
import Mathlib.Data.String.Basic
import Mathlib.Algebra.Ring.Rat

/-!
# The usage ledger

`persistence/usage_scan.rs`. Each transcript file contributes the billed calls
found in it. A call that several files repeat is counted once, for the file whose
copy settled on the most tokens. The hourly table is derived: it sums the
contributions that win their call, and only the buckets an operation may have
changed are rebuilt.
-/

namespace Argmax.Persistence.UsageScan

open Argmax.Lib Argmax.Usage

/-! ## The tables -/

/-- A row of `usage_scan_files`: how far a transcript was read. -/
structure ScanFileRecord where
  path : String
  provider : String
  sessionId : Option String
  size : ℤ
  mtimeMs : ℤ
  cursorOffset : ℤ
  guardHash : Option String
  parserState : Option String

/-- A billed call as a parser found it. -/
structure UsageContribution where
  billedCallKey : Option String
  provider : String
  modelId : String
  sessionId : String
  atMs : ℤ
  hourUtc : ℤ
  tokens : UsageRecordTokens
  reportedCostUsd : Option ℚ

/-- The primary key of `usage_hourly`. -/
structure BucketIdentity where
  provider : String
  modelId : String
  sessionId : String
  sourcePath : String
  hourUtc : ℤ
  deriving DecidableEq

/-- A row of `usage_contributions`. -/
structure ContributionRow where
  sourcePath : String
  billedCallKey : String
  provider : String
  modelId : String
  sessionId : String
  atMs : ℤ
  hourUtc : ℤ
  tokens : UsageRecordTokens
  reportedCostUsd : Option ℚ
  processedTokens : ℤ
  deriving DecidableEq

namespace ContributionRow

/-- The primary key: one copy of a call for each file. -/
def copy (row : ContributionRow) : String × String := (row.sourcePath, row.billedCallKey)

/-- The bucket the row falls into. -/
def bucket (row : ContributionRow) : BucketIdentity :=
  ⟨row.provider, row.modelId, row.sessionId, row.sourcePath, row.hourUtc⟩

end ContributionRow

/-- A row of `usage_dedupe_keys`: the elected copy of a call. -/
structure DedupeRow where
  key : String
  sourcePath : String
  hourUtc : ℤ

/-- A row of `usage_hourly`. -/
structure HourlyRow where
  identity : BucketIdentity
  tokens : UsageRecordTokens
  reportedCostUsd : Option ℚ
  reportedRecords : ℕ
  records : ℕ

abbrev ContributionTable := Table ContributionRow.copy
abbrev DedupeTable := Table DedupeRow.key
abbrev HourlyTable := Table HourlyRow.identity
abbrev ScanFileTable := Table ScanFileRecord.path

/-- The tables of the scan, and, for observation only, the cutoffs it was pruned at. -/
structure Ledger where
  files : ScanFileTable
  contributions : ContributionTable
  dedupeKeys : DedupeTable
  hourly : HourlyTable
  cutoffs : List ℤ

def Ledger.empty : Ledger := ⟨.empty, .empty, .empty, .empty, []⟩

/-! ## Electing a winner -/

/-- The order of the election: more processed tokens first, then the smaller path. -/
def outranks (a b : ContributionRow) : Bool :=
  decide (b.processedTokens < a.processedTokens ∨
    (a.processedTokens = b.processedTokens ∧ a.sourcePath ≤ b.sourcePath))

/-- `winner_for_key`, with the whole row. -/
def winnerForKey (contributions : ContributionTable) (key : String) : Option ContributionRow :=
  ((contributions.rows.filter fun row => row.billedCallKey == key).mergeSort outranks).head?

/-- The join of a call's elected copy with its contribution. -/
def isElected (dedupeKeys : DedupeTable) (row : ContributionRow) : Bool :=
  (dedupeKeys.find? row.billedCallKey).any fun elected =>
    elected.sourcePath == row.sourcePath

def winningBucket (contributions : ContributionTable) (dedupeKeys : DedupeTable)
    (key : String) : Option BucketIdentity :=
  (contributions.rows.find? fun row =>
    row.billedCallKey == key && isElected dedupeKeys row).map (·.bucket)

/-! ## Summing a bucket -/

/-- `SUM` over a column that may be `NULL`. -/
def sumReported (costs : List (Option ℚ)) : Option ℚ :=
  let reported := costs.filterMap id
  if reported.isEmpty then none else some reported.sum

/-- The row of a bucket over the contributions that count, none without any. -/
def hourlyRow (identity : BucketIdentity) (rows : List ContributionRow) : Option HourlyRow :=
  if rows.isEmpty then none
  else some
    { identity := identity
      tokens := (rows.map (·.tokens)).foldr .add .zero
      reportedCostUsd := sumReported (rows.map (·.reportedCostUsd))
      reportedRecords := (rows.filter (·.reportedCostUsd.isSome)).length
      records := rows.length }

def rebuildBucket (contributions : ContributionTable) (dedupeKeys : DedupeTable)
    (hourly : HourlyTable) (identity : BucketIdentity) : HourlyTable :=
  let cleared := hourly.delete fun row => row.identity == identity
  let counted := contributions.rows.filter fun row =>
    isElected dedupeKeys row && row.bucket == identity
  match hourlyRow identity counted with
  | some row => cleared.put row
  | none => cleared

/-! ## The operations -/

/-- The keys of the non-empty records of a batch. A record without a key of its own is
known by its place. -/
def keyRecords (sourcePath : String) (batchCursor : ℤ) :
    ℕ → List UsageContribution → List (String × UsageContribution)
  | _, [] => []
  | index, record :: records =>
    let rest := keyRecords sourcePath batchCursor (index + 1) records
    if record.tokens.isEmpty then rest
    else
      let key := record.billedCallKey.getD
        ("unkeyed:" ++ sourcePath ++ ":" ++ toString batchCursor ++ ":" ++ toString index)
      (key, record) :: rest

/-- The row of a keyed record. -/
def contributionRow (sourcePath key : String) (record : UsageContribution) : ContributionRow :=
  ⟨sourcePath, key, record.provider, record.modelId, record.sessionId, record.atMs,
    record.hourUtc, record.tokens, record.reportedCostUsd, record.tokens.processed⟩

/-- The upsert: a stored copy gives way to one that settled on more tokens. -/
def upsertContribution (contributions : ContributionTable) (row : ContributionRow) :
    ContributionTable :=
  match contributions.find? row.copy with
  | some stored =>
    if stored.processedTokens < row.processedTokens then contributions.put row
    else contributions
  | none => contributions.put row

/-- One round of the election loop: record the winner of a key, and the bucket it
falls into. -/
def electKey (contributions : ContributionTable)
    (elected : DedupeTable × List BucketIdentity) (key : String) :
    DedupeTable × List BucketIdentity :=
  let dedupeKeys :=
    match winnerForKey contributions key with
    | some winner => elected.1.put ⟨key, winner.sourcePath, winner.hourUtc⟩
    | none => elected.1.delete fun row => row.key == key
  (dedupeKeys, (winningBucket contributions dedupeKeys key).toList ++ elected.2)

/-- The keys an operation on a source can affect. -/
def affectedKeys (contributions : ContributionTable) (sourcePath : String)
    (keyed : List (String × UsageContribution)) (fullReparse : Bool) : List String :=
  let known :=
    if fullReparse then
      (contributions.rows.filter fun row => row.sourcePath == sourcePath).map (·.billedCallKey)
    else []
  (known ++ keyed.map (·.1)).dedup

/-- The contributions after a batch. -/
def mergeContributions (contributions : ContributionTable) (sourcePath : String)
    (keyed : List (String × UsageContribution)) (fullReparse : Bool) : ContributionTable :=
  let remaining :=
    if fullReparse then contributions.delete fun row => row.sourcePath == sourcePath
    else contributions
  keyed.foldl
    (fun contributions entry =>
      upsertContribution contributions (contributionRow sourcePath entry.1 entry.2))
    remaining

def replaceSourceContributions (s : Ledger) (sourcePath : String) (batchCursor : ℤ)
    (records : List UsageContribution) (fullReparse : Bool) : Ledger :=
  let keyed := keyRecords sourcePath batchCursor 0 records
  let keys := affectedKeys s.contributions sourcePath keyed fullReparse
  let before := keys.filterMap (winningBucket s.contributions s.dedupeKeys)
  let contributions := mergeContributions s.contributions sourcePath keyed fullReparse
  let (dedupeKeys, buckets) := keys.foldl (electKey contributions) (s.dedupeKeys, before)
  { s with
    contributions := contributions
    dedupeKeys := dedupeKeys
    hourly := buckets.dedup.foldl (rebuildBucket contributions dedupeKeys) s.hourly }

def forgetFile (s : Ledger) (path : String) : Ledger :=
  let s := replaceSourceContributions s path 0 [] true
  { s with files := s.files.delete fun file => file.path == path }

/-- An old copy that no retained copy of its call keeps. -/
def isExpired (contributions : ContributionTable) (beforeHour : ℤ) (row : ContributionRow) : Bool :=
  decide (row.hourUtc < beforeHour) && !contributions.rows.any fun retained =>
    retained.billedCallKey == row.billedCallKey && decide (beforeHour ≤ retained.hourUtc)

def pruneBefore (s : Ledger) (beforeHour : ℤ) : Ledger :=
  let contributions := s.contributions.delete (isExpired s.contributions beforeHour)
  { s with
    hourly := s.hourly.delete fun row => decide (row.identity.hourUtc < beforeHour)
    contributions := contributions
    dedupeKeys := s.dedupeKeys.delete fun row =>
      !contributions.rows.any fun copy => copy.billedCallKey == row.key
    cutoffs := beforeHour :: s.cutoffs }

/-- One operation on the ledger. -/
inductive Action where
  | replace (sourcePath : String) (batchCursor : ℤ) (records : List UsageContribution)
      (fullReparse : Bool)
  | forget (path : String)
  | prune (beforeHour : ℤ)

def step (s : Ledger) : Action → Ledger
  | .replace sourcePath batchCursor records fullReparse =>
    replaceSourceContributions s sourcePath batchCursor records fullReparse
  | .forget path => forgetFile s path
  | .prune beforeHour => pruneBefore s beforeHour

end Argmax.Persistence.UsageScan
