import Argmax.Lib.Rfc3339
import Argmax.Persistence.UsageScan
import Argmax.Providers.Pricing
import Argmax.Usage.Cursor

/-!
# The usage summary

`usage/summary.rs`, with `list_hourly_between`. The hourly ledger is grouped into buckets of one
provider, model, chat and hour, every bucket is priced, and the priced buckets are rolled up for
the window, by provider, by model, by day and as series.

The starts of the window's days or hours and the price tables are parameters. The comparison with
the window before, and the fields that only echo the request, are left out.
-/

namespace Argmax.Usage.Summary

open Argmax.Lib Argmax.Providers Argmax.Persistence.UsageScan

/-! ## Buckets of the ledger -/

/-- What `GROUP BY` groups by. -/
structure BucketKey where
  provider : String
  modelId : String
  sessionId : String
  hourUtc : ℤ
  deriving DecidableEq

def bucketKey (row : HourlyRow) : BucketKey :=
  ⟨row.identity.provider, row.identity.modelId, row.identity.sessionId, row.identity.hourUtc⟩

structure HourlyBucket where
  key : BucketKey
  tokens : UsageRecordTokens
  reportedCostUsd : Option ℚ
  reportedRecords : ℕ
  records : ℕ

/-- The sums of one group. -/
def sumBucket (key : BucketKey) (rows : List HourlyRow) : HourlyBucket where
  key := key
  tokens := (rows.map (·.tokens)).foldr .add .zero
  reportedCostUsd := sumReported (rows.map (·.reportedCostUsd))
  reportedRecords := (rows.map (·.reportedRecords)).sum
  records := (rows.map (·.records)).sum

inductive UsageCostSource where
  | providerReported
  | listPrice
  | estimated
  | unpriced
  | mixed
  deriving DecidableEq

def providerFromKey (key : String) : Option ProviderId :=
  if key = "claude" then some .claude
  else if key = "codex" then some .codex
  else if key = "cursor" then some .cursor
  else if key = "opencode" then some .opencode
  else if key = "grok" then some .grok
  else none

structure PricedBucket where
  provider : ProviderId
  modelId : String
  sessionId : String
  bucketIndex : ℕ
  tokens : UsageRecordTokens
  costUsd : ℚ
  cacheSavingsUsd : ℚ
  costSource : UsageCostSource

/-- `rposition`: the last place that meets a condition. -/
def rposition {α : Type*} (p : α → Bool) : List α → Option ℕ
  | [] => none
  | a :: as =>
    match rposition p as with
    | some index => some (index + 1)
    | none => if p a then some 0 else none

/-- The chart bucket of an instant. -/
def bucketIndex (starts : List ℤ) (secs : ℤ) : Option ℕ := rposition (fun start => start ≤ secs) starts

/-- The milliseconds from the start of year 0 to the Unix epoch. -/
def epochMs : ℕ := Rfc3339.yearStart 1970 * 86400000

/-- `timestamp`, of a stored time. -/
def timestamp (stored : String) : Option ℤ :=
  (Rfc3339.parse stored.toList).map fun ms => ((ms : ℤ) - epochMs) / 1000

structure Rollup where
  tokens : UsageRecordTokens
  costUsd : ℚ
  cacheSavingsUsd : ℚ
  costSource : Option UsageCostSource

namespace Rollup

/-- `Rollup::default`. -/
def zero : Rollup := ⟨.zero, 0, 0, none⟩

def mergeSource (current : Option UsageCostSource) (next : UsageCostSource) : UsageCostSource :=
  match current with
  | none => next
  | some existing => if existing = next then existing else .mixed

def add (rollup : Rollup) (priced : PricedBucket) : Rollup where
  tokens := rollup.tokens.add priced.tokens
  costUsd := rollup.costUsd + priced.costUsd
  cacheSavingsUsd := rollup.cacheSavingsUsd + priced.cacheSavingsUsd
  costSource := some (mergeSource rollup.costSource priced.costSource)

/-- What an accumulator of the loop holds behind the buckets that were added to it. -/
def of (priced : List PricedBucket) : Rollup := priced.foldl add zero

/-- `cost_source`. -/
def source (rollup : Rollup) : UsageCostSource := rollup.costSource.getD .listPrice

end Rollup

/-- The chats of some buckets. -/
def sessions (priced : List PricedBucket) : ℕ := (priced.map (·.sessionId)).dedup.length

structure UsageTokenTotals where
  inputUncached : ℤ
  cacheRead : ℤ
  cacheWrite : ℤ
  output : ℤ
  reasoning : ℤ

def totalsOf (tokens : UsageRecordTokens) : UsageTokenTotals :=
  ⟨tokens.inputUncached, tokens.cacheRead, tokens.cacheWrite, tokens.output, tokens.reasoning⟩

structure UsageModelRow where
  provider : ProviderId
  modelId : String
  sessions : ℕ
  tokens : UsageTokenTotals
  costUsd : ℚ
  costSource : UsageCostSource

/-- The starts of a window's buckets in seconds, of which it has one, and the time it ends. -/
structure UsageRange where
  rangeStart : ℤ
  later : List ℤ
  nowMs : ℤ

def UsageRange.starts (range : UsageRange) : List ℤ := range.rangeStart :: range.later

def hourStartSecs (atMs : ℤ) : ℤ := atMs / 3600000 * 3600

/-- Most expensive first. -/
def modelOrder (a b : UsageModelRow × ℤ) : Bool :=
  ((compare b.1.costUsd a.1.costUsd).then <|
    (compare b.2 a.2).then <| compare a.1.modelId b.1.modelId).isLE

end Argmax.Usage.Summary
