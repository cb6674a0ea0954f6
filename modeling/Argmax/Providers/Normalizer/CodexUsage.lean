import Argmax.Lib.Lines
import Argmax.Providers.Normalizer
import Argmax.Providers.Normalizer.Values

/-!
# The usage of a Codex turn

`providers/normalizer/codex.rs`: a completed turn carries the running totals of its thread.
What it is billed is the step from the totals before. How full the context is stands in the
rollout file of the thread, which grows while the thread runs, so only the bytes behind the
last read are taken.

The JSON parser, the price of a turn and the disk are parameters. A file is read at one
moment.
-/

namespace Argmax.Providers.Normalizer

open Argmax.Lib Argmax.Lib.Text

/-- What the model takes from other libraries: `serde_json::from_str` and `cost_of`. -/
structure Library where
  fromStr : String → Option Json
  costOf : UsageCounts → String → BitVec 64

/-- The disk at one moment: the rollout file of a thread, and the bytes of a file. -/
structure Disk where
  findCodexRolloutPath : String → Option String
  contents : String → Option (List UInt8)

/-! ## The rollout -/

/-- A context size and a window, as far as they were seen. -/
structure TokenCount where
  tokens : Option ℕ
  window : Option ℕ

def TokenCount.none : TokenCount := ⟨.none, .none⟩

/-- Later values in place of earlier ones. -/
def TokenCount.update (earlier later : TokenCount) : TokenCount where
  tokens := later.tokens.or earlier.tokens
  window := later.window.or earlier.window

/-- A count that is not zero. -/
def positive (count : ℕ) : Option ℕ := if 0 < count then some count else none

/-- The count in the `info` of a token count. -/
def countOfInfo (info : Fields) : TokenCount where
  tokens := (objectValue (info.field "last_token_usage")).bind fun usage =>
    positive (numberValue (usage.field "input_tokens"))
  window := positive (numberValue (info.field "model_context_window"))

/-- The count that a line of a rollout carries. -/
def lineCount (lib : Library) (text : String) : TokenCount :=
  if !containsText text.toList "token_count".toList then .none
  else
    match lib.fromStr text with
    | some (.object fields) =>
      let map : Fields := fields
      let payload := objectValue (map.field "payload")
      let isTokenCount := stringValue (map.field "type") == some "token_count" ||
        (payload.bind fun p => stringValue (p.field "type")) == some "token_count"
      let info := (payload.bind fun p => objectValue (p.field "info")).or
        (objectValue (map.field "info"))
      if isTokenCount then (info.map countOfInfo).getD .none else .none
    | _ => .none

def isNewline (byte : UInt8) : Bool := byte == 10

/-- The bytes of a line as text, when they are UTF-8. -/
def decodeLine (bytes : List UInt8) : Option String := String.fromUTF8? ⟨bytes.toArray⟩

/-- `ends_with('\n')`. -/
def endsLine (line : List UInt8) : Bool := line.getLast?.any isNewline

/-- The loop over the lines: the latest values, and where the next read starts. -/
def readLines (lib : Library) (fileLength : ℕ) :
    TokenCount → ℕ → List (List UInt8) → TokenCount × ℕ
  | latest, consumed, [] => (latest, consumed)
  | latest, consumed, line :: lines =>
    match decodeLine line with
    | none => (latest, fileLength)
    | some text =>
      if endsLine line then
        readLines lib fileLength (latest.update (lineCount lib text)) (consumed + line.length) lines
      else (latest, consumed)

/-- The pair that is kept of the latest values. -/
def TokenCount.pair : TokenCount → Option (ℕ × Option ℕ)
  | ⟨.none, .none⟩ => .none
  | ⟨tokens, window⟩ => some (tokens.getD 0, window)

def readTokenCountFromRollout (lib : Library) (contents : Option (List UInt8)) (offset : ℕ) :
    Option (ℕ × Option ℕ) × ℕ :=
  match contents with
  | none => (none, offset)
  | some bytes =>
    let start := if bytes.length < offset then 0 else offset
    let read := readLines lib bytes.length .none start (splitInclusive isNewline (bytes.drop start))
    (read.1.pair, read.2)

/-! ## Usage -/

structure CodexCumulativeUsage where
  inputTokens : ℕ
  cachedInputTokens : ℕ
  outputTokens : ℕ
  deriving DecidableEq

/-- What `extract_usage` reads and writes of a `NormalizerSessionContext`. -/
structure UsageContext where
  codexCurrentModel : Option String
  codexCumulativeUsage : Option CodexCumulativeUsage
  codexThreadId : Option String
  codexRolloutPath : Option String
  codexRolloutSearched : Bool
  codexRolloutOffset : ℕ
  codexRolloutLastTokenCount : Option (ℕ × Option ℕ)

/-- The `info` of a token count line. -/
def inlineInfo (payload : Fields) (providerType : Option String) : Option Fields :=
  if providerType = some "event_msg" then
    ((objectValue (payload.field "payload")).filter fun inner =>
      stringValue (inner.field "type") == some "token_count").bind fun inner =>
        objectValue (inner.field "info")
  else if providerType = some "token_count" then objectValue (payload.field "info")
  else none

/-- The totals of a usage object. -/
def totalsOf (usage : Fields) : CodexCumulativeUsage where
  inputTokens := numberValue (usage.field "input_tokens")
  cachedInputTokens := numberValue (usage.field "cached_input_tokens")
  outputTokens := numberValue (usage.field "output_tokens")

namespace CodexCumulativeUsage

/-- The three counters added up, in sixty-four bits. -/
def wrappingSum (usage : CodexCumulativeUsage) : ℕ :=
  (usage.inputTokens + usage.outputTokens + usage.cachedInputTokens) % 2 ^ 64

/-- The step from the totals before. -/
def since (usage previous : CodexCumulativeUsage) : CodexCumulativeUsage where
  inputTokens := usage.inputTokens - previous.inputTokens
  cachedInputTokens := usage.cachedInputTokens - previous.cachedInputTokens
  outputTokens := usage.outputTokens - previous.outputTokens

/-- What is billed of a step. -/
def counts (delta : CodexCumulativeUsage) : UsageCounts where
  input := delta.inputTokens - delta.cachedInputTokens
  output := delta.outputTokens
  cacheRead := delta.cachedInputTokens
  cacheWrite := 0

end CodexCumulativeUsage

/-- The step that a completed turn is billed. The first turn of an unseeded resume is not. -/
def turnDelta (totals : CodexCumulativeUsage) : Option CodexCumulativeUsage → CodexCumulativeUsage
  | none => ⟨0, 0, 0⟩
  | some previous => totals.since previous

/-- The rollout path is searched once. -/
def searchRollout (disk : Disk) (context : UsageContext) : UsageContext :=
  if context.codexRolloutPath.isNone && !context.codexRolloutSearched then
    match context.codexThreadId with
    | some threadId =>
      { context with
        codexRolloutSearched := true
        codexRolloutPath := disk.findCodexRolloutPath threadId }
    | none => context
  else context

/-- The new bytes of the rollout are read. -/
def readRollout (lib : Library) (disk : Disk) (context : UsageContext) : UsageContext :=
  match context.codexRolloutPath with
  | none => context
  | some path =>
    let read := readTokenCountFromRollout lib (disk.contents path) context.codexRolloutOffset
    { context with
      codexRolloutOffset := read.2
      codexRolloutLastTokenCount := read.1.or context.codexRolloutLastTokenCount }

/-- What is kept of the rollout, when the session has one. -/
def UsageContext.occupancy (context : UsageContext) : Option (ℕ × Option ℕ) :=
  if context.codexRolloutPath.isSome then context.codexRolloutLastTokenCount else none

/-- The record of a turn, when it has anything to report. -/
def usageRecord (lib : Library) (model : Option String) (tokens : UsageCounts)
    (contextTokens contextWindow : Option ℕ) : Option NormalizedUsage :=
  if (tokens.input + tokens.output + tokens.cacheRead) % 2 ^ 64 = 0 ∧ contextTokens = none ∧
      contextWindow = none then none
  else
    let modelId := model.getD "unknown"
    some ⟨modelId, tokens, lib.costOf tokens modelId, none, contextTokens, contextWindow⟩

/-- The record of a completed turn, by its step and what is known of the rollout. -/
def turnRecord (lib : Library) (model : Option String) (delta : CodexCumulativeUsage)
    (occupancy : Option (ℕ × Option ℕ)) : Option NormalizedUsage :=
  let fromRollout := occupancy.bind fun pair => positive pair.1
  usageRecord lib model delta.counts (fromRollout.or (positive delta.inputTokens))
    (occupancy.bind (·.2))

def extractUsage (lib : Library) (disk : Disk) (payload : Fields) (providerType : Option String)
    (context : UsageContext) : UsageContext × Option NormalizedUsage :=
  match inlineInfo payload providerType with
  | some info =>
    match objectValue (info.field "last_token_usage") with
    | none => (context, none)
    | some usage =>
      let totals := totalsOf usage
      if totals.wrappingSum = 0 then (context, none)
      else
        (context, usageRecord lib context.codexCurrentModel totals.counts
          (some totals.inputTokens) (positive (numberValue (info.field "model_context_window"))))
  | none =>
    if providerType = some "turn.completed" then
      match objectValue (payload.field "usage") with
      | none => (context, none)
      | some usage =>
        let totals := totalsOf usage
        if totals.wrappingSum = 0 then (context, none)
        else
          let delta := turnDelta totals context.codexCumulativeUsage
          let context := { context with codexCumulativeUsage := some totals }
          let context := readRollout lib disk (searchRollout disk context)
          (context, turnRecord lib context.codexCurrentModel delta context.occupancy)
    else (context, none)

end Argmax.Providers.Normalizer
