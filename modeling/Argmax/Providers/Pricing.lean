import Argmax.Providers.Normalizer
import Argmax.Usage.Records
import Mathlib.Algebra.Order.Field.Rat

/-!
# List prices

`providers/pricing.rs`. What tokens cost by the list price of their model, in exact dollars. The
table of the prices is a parameter: a model that it does not know has no price.
-/

namespace Argmax.Providers

open Argmax.Usage

/-- Dollars for a million tokens. -/
structure ModelPricing where
  input : ℚ
  output : ℚ
  cacheRead : ℚ
  cacheWrite : ℚ

/-- The price table, behind `normalize_model_id`. -/
abbrev PriceTable := String → Option ModelPricing

def costOf (listPrice : PriceTable) (usage : UsageCounts) (modelId : String) : ℚ :=
  match listPrice modelId with
  | none => 0
  | some price =>
    usage.input * price.input / 1000000 + usage.output * price.output / 1000000 +
      usage.cacheRead * price.cacheRead / 1000000 + usage.cacheWrite * price.cacheWrite / 1000000

end Argmax.Providers
