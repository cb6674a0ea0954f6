import Argmax.Application.Validation
import Argmax.Providers.Normalizer.Values
import Argmax.Usage.Records
import Mathlib.Algebra.BigOperators.Group.List.Basic
import Mathlib.Tactic.Linarith
import Mathlib.Tactic.LinearCombination
import Mathlib.Tactic.Ring

/-!
# Grok turns

`usage/grok.rs`. A completed turn reports the tokens of every model and what the turn cost. A
model may report a cost of its own, which it keeps, and what the turn's cost leaves over is split
among the others by their tokens. A model without a billed token gets no record, and takes its
cost with it.

The text of a line, the path of the file and the instants are parameters. Costs are exact
rationals, so a number of the payload is the rational that it is written as.
-/

namespace Argmax.Usage

open Argmax.Providers.Normalizer

/-! ## Numbers of the payload -/

/-- The rational that a number is written as. A float is finite. -/
def numberToRat : Number → ℚ
  | .posInt n => n
  | .negInt n => n
  | .float bits =>
    let exponent := (bits.extractLsb' 52 11).toNat
    let fraction : ℚ := (bits.extractLsb' 0 52).toNat
    let magnitude :=
      if exponent = 0 then fraction / 2 ^ 1074
      else (2 ^ 52 + fraction) * 2 ^ exponent / 2 ^ 1075
    if bits.msb then -magnitude else magnitude

/-- `Value::as_f64`. -/
def asF64 : Json → Option ℚ
  | .number n => some (numberToRat n)
  | _ => none

/-- `number_value(..) as i64`. -/
def countValue (value : Option Json) : ℤ := (BitVec.ofNat 64 (numberValue value)).toInt

/-- `ticks_to_usd`, with `TICKS_PER_USD`. -/
def ticksToUsd (value : Option Json) : Option ℚ := (value.bind asF64).map (· / 10000000000)

/-! ## The entries of a turn -/

structure ModelEntry where
  modelId : String
  tokens : UsageRecordTokens
  /-- Tokens this entry billed, the basis for its share of an aggregate cost. -/
  billedTokens : ℤ
  costUsd : Option ℚ

def entry (modelId : String) (counts : Fields) : ModelEntry :=
  let input := countValue (counts.field "inputTokens")
  let cacheRead := countValue (counts.field "cachedReadTokens")
  let cacheWrite := countValue (counts.field "cacheCreationTokens")
  let output := countValue (counts.field "outputTokens")
  let total := countValue (counts.field "totalTokens")
  { modelId
    tokens :=
      { inputUncached := max (input - cacheRead) 0
        cacheRead
        cacheWrite5m := cacheWrite
        cacheWrite1h := 0
        output
        reasoning := countValue (counts.field "reasoningTokens") }
    billedTokens := if total = 0 then input + output else total
    costUsd := ticksToUsd (counts.field "costUsdTicks") }

/-- `model_entries`, with `UNNAMED_MODEL`. -/
def modelEntries (usage : Fields) : List ModelEntry :=
  match objectValue (usage.field "modelUsage") with
  | none | some [] => [entry "grok" usage]
  | some (first :: rest) => (first :: rest).filterMap fun (modelId, value) =>
    (objectValue (some value)).map (entry modelId)

/-- The tokens of the entries without a cost of their own. -/
def unticked (entries : List ModelEntry) : ℤ :=
  ((entries.filter (·.costUsd.isNone)).map (·.billedTokens)).sum

/-- The costs that the entries report of their own. -/
def claimed (entries : List ModelEntry) : ℚ := (entries.filterMap (·.costUsd)).sum

/-- What the aggregate leaves over. -/
def remainder (entries : List ModelEntry) (aggregate : ℚ) : ℚ := max (aggregate - claimed entries) 0

/-- An entry with its share of what is left over, if it has no cost of its own. -/
def ModelEntry.allocate (remainder : ℚ) (unticked : ℤ) (entry : ModelEntry) : ModelEntry :=
  { entry with
    costUsd := some (entry.costUsd.getD (remainder * entry.billedTokens / unticked)) }

def allocateCost (entries : List ModelEntry) (usage : Fields) : List ModelEntry :=
  if unticked entries ≤ 0 then entries
  else
    match ticksToUsd (usage.field "costUsdTicks") with
    | none => entries
    | some aggregate =>
      entries.map (·.allocate (remainder entries aggregate) (unticked entries))

def billedModels (usage : Fields) : List ModelEntry := allocateCost (modelEntries usage) usage

/-! ## The records of a turn -/

structure UsageRecord where
  provider : ProviderId
  modelId : String
  sessionId : String
  atMs : ℤ
  tokens : UsageRecordTokens
  reportedCostUsd : Option ℚ
  dedupeKey : Option String
  projectPath : Option String

/-- A completed turn, as `turn_records` reads it from a line. -/
structure CompletedTurn where
  usage : Fields
  sessionId : String
  atMs : ℤ
  promptId : Option String

def timestampMs (row params : Fields) : Option ℤ :=
  (((objectValue (params.field "_meta")).bind (·.field "agentTimestampMs")).bind Json.asI64).or
    (((row.field "timestamp").bind Json.asI64).map (· * 1000))

/-- The checks of `turn_records`. -/
def completedTurn (row : Fields) (pathSession : Option String) : Option CompletedTurn := do
  let params ← objectValue (row.field "params")
  let update ← objectValue (params.field "update")
  guard (stringValue (update.field "sessionUpdate") = some "turn_completed")
  let usage ← objectValue (update.field "usage")
  let sessionId ← (stringValue (params.field "sessionId")).or pathSession
  let atMs ← timestampMs row params
  some ⟨usage, sessionId, atMs, stringValue (update.field "prompt_id")⟩

/-- The record of an entry. -/
def CompletedTurn.record (turn : CompletedTurn) (projectPath : Option String)
    (entry : ModelEntry) : UsageRecord :=
  { provider := .grok
    modelId := entry.modelId
    sessionId := turn.sessionId
    atMs := turn.atMs
    tokens := entry.tokens
    reportedCostUsd := entry.costUsd
    dedupeKey := turn.promptId.map fun prompt =>
      "grok:" ++ turn.sessionId ++ ":" ++ prompt ++ ":" ++ entry.modelId
    projectPath }

/-- The records of a completed turn. -/
def CompletedTurn.records (turn : CompletedTurn) (projectPath : Option String) : List UsageRecord :=
  ((billedModels turn.usage).filter (!·.tokens.isEmpty)).map (turn.record projectPath)

def turnRecords (row : Fields) (pathSession projectPath : Option String) : List UsageRecord :=
  match completedTurn row pathSession with
  | none => []
  | some turn => turn.records projectPath

/-! ## What the records carry -/

/-- The cost that a turn reports for the whole of it. -/
def CompletedTurn.aggregate (turn : CompletedTurn) : Option ℚ :=
  ticksToUsd (turn.usage.field "costUsdTicks")

/-- The records of a turn carry what the turn cost, and none a negative part of it. -/
def Conserves (row : Fields) (pathSession projectPath : Option String) : Prop :=
  ∀ turn ∈ completedTurn row pathSession, ∀ aggregate ∈ turn.aggregate,
    ((turnRecords row pathSession projectPath).filterMap (·.reportedCostUsd)).sum = aggregate ∧
      ∀ record ∈ turnRecords row pathSession projectPath, ∀ cost ∈ record.reportedCostUsd, 0 ≤ cost

/-- The entries that get a record. -/
def kept (entries : List ModelEntry) : List ModelEntry := entries.filter (!·.tokens.isEmpty)

/-- The entries that get none. -/
def lost (entries : List ModelEntry) : List ModelEntry := entries.filter (·.tokens.isEmpty)

/-- When the records carry the aggregate cost. -/
structure Carries (entries : List ModelEntry) (aggregate : ℚ) : Prop where
  /-- Where a rest is split, nothing of it goes to entries without a record and nothing of what
  was claimed either. Where none is, the claims of the records are the cost. -/
  whole : if 0 < unticked entries ∧ claimed entries ≤ aggregate then
      claimed (lost entries) * unticked entries +
        (aggregate - claimed entries) * unticked (lost entries) = 0
    else claimed (kept entries) = aggregate
  claims : ∀ entry ∈ kept entries, ∀ cost ∈ entry.costUsd, 0 ≤ cost
  shares : 0 < unticked entries → claimed entries < aggregate →
    ∀ entry ∈ kept entries, entry.costUsd = none → 0 ≤ entry.billedTokens

/-! ### Sums over the entries -/

theorem claimed_append (a b : List ModelEntry) : claimed (a ++ b) = claimed a + claimed b := by
  simp [claimed]

theorem unticked_append (a b : List ModelEntry) : unticked (a ++ b) = unticked a + unticked b := by
  simp [unticked]

theorem parts_perm (entries : List ModelEntry) : (kept entries ++ lost entries).Perm entries := by
  have hperm := List.filter_append_perm (fun entry : ModelEntry => !entry.tokens.isEmpty) entries
  simpa [kept, lost] using hperm

theorem claimed_parts (entries : List ModelEntry) :
    claimed (kept entries) + claimed (lost entries) = claimed entries := by
  rw [← claimed_append]
  exact ((parts_perm entries).filterMap _).sum_eq

theorem unticked_parts (entries : List ModelEntry) :
    unticked (kept entries) + unticked (lost entries) = unticked entries := by
  rw [← unticked_append]
  exact (((parts_perm entries).filter _).map _).sum_eq

/-- Entries keep what they claimed, and the others share the rest. -/
theorem claimed_allocate (rest : ℚ) (tokens : ℤ) (entries : List ModelEntry) :
    claimed (entries.map (·.allocate rest tokens)) =
      claimed entries + rest * unticked entries / tokens := by
  induction entries with
  | nil => simp [unticked]
  | cons entry entries ih =>
    rw [← List.singleton_append, List.map_append, claimed_append, ih, claimed_append,
      unticked_append]
    have hone : claimed ([entry].map (·.allocate rest tokens)) =
        claimed [entry] + rest * unticked [entry] / tokens := by
      cases h : entry.costUsd <;> simp [claimed, unticked, ModelEntry.allocate, h]
    rw [hone]
    push_cast
    ring

theorem kept_allocate (rest : ℚ) (tokens : ℤ) (entries : List ModelEntry) :
    kept (entries.map (·.allocate rest tokens)) = (kept entries).map (·.allocate rest tokens) := by
  rw [kept, List.filter_map]
  rfl

/-! ### The records -/

theorem sum_records (turn : CompletedTurn) (projectPath : Option String) :
    ((turn.records projectPath).filterMap (·.reportedCostUsd)).sum =
      claimed (kept (billedModels turn.usage)) := by
  rw [CompletedTurn.records, List.filterMap_map]
  rfl

theorem forall_records (turn : CompletedTurn) (projectPath : Option String) :
    (∀ record ∈ turn.records projectPath, ∀ cost ∈ record.reportedCostUsd, 0 ≤ cost) ↔
      ∀ entry ∈ kept (billedModels turn.usage), ∀ cost ∈ entry.costUsd, 0 ≤ cost := by
  rw [CompletedTurn.records, List.forall_mem_map]
  rfl

theorem claimed_split_iff {entries : List ModelEntry} {aggregate : ℚ}
    (htokens : 0 < unticked entries) :
    claimed (kept entries) + remainder entries aggregate * unticked (kept entries) /
        unticked entries = aggregate ↔
      if 0 < unticked entries ∧ claimed entries ≤ aggregate then
        claimed (lost entries) * unticked entries +
          (aggregate - claimed entries) * unticked (lost entries) = 0
      else claimed (kept entries) = aggregate := by
  by_cases hle : claimed entries ≤ aggregate
  · have hclaimed := claimed_parts entries
    have htokens' : (0 : ℚ) < unticked entries := by exact_mod_cast htokens
    have hparts : (unticked entries : ℚ) = unticked (kept entries) + unticked (lost entries) := by
      exact_mod_cast (unticked_parts entries).symm
    rw [if_pos ⟨htokens, hle⟩, remainder, max_eq_left (sub_nonneg.mpr hle)]
    have hscale : claimed (kept entries) + (aggregate - claimed entries) *
        unticked (kept entries) / unticked entries = aggregate ↔
        claimed (kept entries) * unticked entries + (aggregate - claimed entries) *
          unticked (kept entries) = aggregate * unticked entries := by
      rw [← mul_left_inj' htokens'.ne', add_mul, div_mul_cancel₀ _ htokens'.ne']
    rw [hscale]
    constructor <;> intro h <;> linear_combination (-1 : ℚ) * h + unticked entries * hclaimed -
      (aggregate - claimed entries) * hparts
  · rw [if_neg (by simp [hle]), remainder, max_eq_right (by linarith)]
    simp

theorem allocated_nonneg_iff {entry : ModelEntry} {rest : ℚ} {tokens : ℤ} (hrest : 0 ≤ rest)
    (htokens : 0 < tokens) :
    (∀ cost ∈ (entry.allocate rest tokens).costUsd, 0 ≤ cost) ↔
      (∀ cost ∈ entry.costUsd, 0 ≤ cost) ∧
        (0 < rest → entry.costUsd = none → 0 ≤ entry.billedTokens) := by
  have htokens' : (0 : ℚ) < tokens := by exact_mod_cast htokens
  cases hcost : entry.costUsd with
  | some own => simp [ModelEntry.allocate, hcost]
  | none =>
    simp only [ModelEntry.allocate, hcost, Option.getD_none, Option.mem_def, Option.some.injEq,
      forall_eq']
    rcases hrest.eq_or_lt with hzero | hpos
    · simp [← hzero]
    · rw [le_div_iff₀ htokens']
      simp [hpos]

/-- A rest is left over when the claims are below the aggregate. -/
theorem remainder_pos_iff {entries : List ModelEntry} {aggregate : ℚ} :
    0 < remainder entries aggregate ↔ claimed entries < aggregate := by
  rw [remainder]
  simp

theorem remainder_nonneg (entries : List ModelEntry) (aggregate : ℚ) :
    0 ≤ remainder entries aggregate := le_max_right _ _

theorem CompletedTurn.carries_iff (turn : CompletedTurn) (projectPath : Option String)
    {aggregate : ℚ} (haggregate : turn.aggregate = some aggregate) :
    (((turn.records projectPath).filterMap (·.reportedCostUsd)).sum = aggregate ∧
      ∀ record ∈ turn.records projectPath, ∀ cost ∈ record.reportedCostUsd, 0 ≤ cost) ↔
      Carries (modelEntries turn.usage) aggregate := by
  rw [CompletedTurn.aggregate] at haggregate
  rw [sum_records, forall_records, billedModels, allocateCost, haggregate]
  by_cases htokens : 0 < unticked (modelEntries turn.usage)
  · rw [if_neg (by omega), kept_allocate, claimed_allocate, claimed_split_iff htokens,
      List.forall_mem_map]
    simp only [allocated_nonneg_iff (remainder_nonneg _ _) htokens, remainder_pos_iff]
    constructor
    · intro ⟨hwhole, hsigns⟩
      exact ⟨hwhole, fun entry hmem => (hsigns entry hmem).1,
        fun _ hrest entry hmem => (hsigns entry hmem).2 hrest⟩
    · intro h
      exact ⟨h.whole, fun entry hmem =>
        ⟨h.claims entry hmem, fun hrest => h.shares htokens hrest entry hmem⟩⟩
  · have hwhole : ¬ (0 < unticked (modelEntries turn.usage) ∧
        claimed (modelEntries turn.usage) ≤ aggregate) := fun h => htokens h.1
    rw [if_pos (by omega)]
    constructor
    · intro ⟨hsum, hsigns⟩
      exact ⟨by rwa [if_neg hwhole], hsigns, fun h => absurd h htokens⟩
    · intro h
      have hsum := h.whole
      rw [if_neg hwhole] at hsum
      exact ⟨hsum, h.claims⟩

/-- **The records of a turn carry its cost just when no part of it is claimed by or split to an
entry without a record, and what is split is there to split.** -/
theorem conserves_iff (row : Fields) (pathSession projectPath : Option String) :
    Conserves row pathSession projectPath ↔ ∀ turn ∈ completedTurn row pathSession,
      ∀ aggregate ∈ turn.aggregate, Carries (modelEntries turn.usage) aggregate := by
  refine forall₂_congr fun turn hturn => forall₂_congr fun aggregate haggregate => ?_
  rw [turnRecords, Option.mem_def.mp hturn]
  exact turn.carries_iff projectPath haggregate

/-- The line of a turn that cost 3 ticks, of which a model without a token claims one. -/
def idleModelRow : Fields :=
  [("timestamp", .number (.posInt 1)),
    ("params", .object
      [("sessionId", .string "s"),
        ("update", .object
          [("sessionUpdate", .string "turn_completed"),
            ("usage", .object
              [("costUsdTicks", .number (.posInt 3)),
                ("modelUsage", .object
                  [("a", .object [("costUsdTicks", .number (.posInt 1))]),
                    ("b", .object
                      [("costUsdTicks", .number (.posInt 2)),
                        ("outputTokens", .number (.posInt 5))])])])])])]

/-- The tick of the model without a token is in no record. -/
theorem idle_model_lost : ¬ ∀ row pathSession projectPath, Conserves row pathSession projectPath := by
  intro h
  have hread : (completedTurn idleModelRow none).bind (·.aggregate) = some (3 / 10000000000) := by
    rfl
  have ⟨turn, hturn, haggregate⟩ := Option.bind_eq_some_iff.mp hread
  have hsum := (h idleModelRow none none turn hturn _ haggregate).1
  revert hsum
  decide +kernel

end Argmax.Usage
