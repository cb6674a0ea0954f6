import Argmax.Lib.Tally
import Argmax.Persistence.UsageLedger
import Argmax.Usage.Summary
import Mathlib.Tactic.Linarith
import Mathlib.Tactic.Ring

/-!
# What the usage summary adds up

A bucket of which any call reported a cost is priced by the reported costs alone. So the total of
a window is the sum over its calls, each at its reported cost or its list price, less the list
prices of the calls that share a bucket with one that reported its cost. The roll-ups are sums
over the same priced buckets and agree with the total in any case.
-/

namespace Argmax.Usage.Summary

open Argmax.Lib Argmax.Providers Argmax.Persistence.UsageScan

/-! ## Calls -/

/-- The hours of a window. -/
def UsageRange.holds (range : UsageRange) (hourUtc : ℤ) : Bool :=
  range.rangeStart ≤ hourUtc && hourUtc < hourStartSecs range.nowMs + 3600

/-- A bucket of a provider that is asked for. -/
def asked (provider : Option ProviderId) (key : BucketKey) : Bool :=
  (providerFromKey key.provider).any fun known => provider.all (· = known)

variable {range : UsageRange} {call : ContributionRow} {s : Ledger}

section Rollups

variable (hourly : HourlyTable) (sources : Sources) (range : UsageRange)
  (provider : Option ProviderId)

end Rollups

/-! ## The list price is linear -/

section Rows

variable {M : Type*} [AddCommMonoid M] {s : Ledger} {fromHour : ℤ}

end Rows

/-! ## One bucket -/

section Bucket

variable {s : Ledger} {fromHour : ℤ} {key : BucketKey}

/-- The bucket of the hourly rows of a key. -/
def bucketOf (s : Ledger) (key : BucketKey) : HourlyBucket :=
  sumBucket key (s.hourly.rows.filter fun row => bucketKey row = key)

end Bucket

/-! ## The window -/

end Argmax.Usage.Summary
