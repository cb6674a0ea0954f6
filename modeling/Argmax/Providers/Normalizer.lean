import Argmax.Application.Validation
import Argmax.Lib.Segments
import Argmax.Lib.Text

/-!
# Normalizing provider output

The parts of `providers/normalizer/mod.rs` that every provider's output goes through.
The text of a chunk is taken line by line: a line that is a JSON object goes to the
provider's payload normalizer, any other becomes an event of its own, unless it is the
noise of a log record.

The JSON parser, the pattern of a log record and the payload normalizers are parameters.
The id that is made for an event and the time that is copied from the chunk are left out.
-/

namespace Argmax.Providers

open Argmax.Lib Argmax.Lib.Text

/-! ## Data -/

inductive ProviderOutputStream where
  | stdout
  | stderr
  | pty
  | system
  deriving DecidableEq

def ProviderOutputStream.asStr : ProviderOutputStream → String
  | .stdout => "stdout"
  | .stderr => "stderr"
  | .pty => "pty"
  | .system => "system"

structure ProviderOutputEvent where
  sessionId : String
  stream : ProviderOutputStream
  message : List Char

structure PersistTimelineEventInput where
  sessionId : String
  type : String
  message : String
  payload : Json
  deriving DecidableEq

structure UsageCounts where
  input : ℕ
  output : ℕ
  cacheRead : ℕ
  cacheWrite : ℕ
  deriving DecidableEq

/-- The cost is a float, given by its bits. -/
structure NormalizedUsage where
  modelId : String
  tokens : UsageCounts
  costUsd : BitVec 64
  eventId : Option String
  contextTokens : Option ℕ
  contextWindow : Option ℕ
  deriving DecidableEq

structure NormalizedApprovalRequest where
  sessionId : String
  command : String
  cwd : String
  provider : String
  riskLevel : String
  providerRequestId : Option String

structure NormalizedProviderResult where
  events : List PersistTimelineEventInput
  usages : List NormalizedUsage
  approvals : List NormalizedApprovalRequest
  permissionBlocked : Bool
  providerConversationId : Option String

namespace NormalizedProviderResult

/-- `NormalizedProviderResult::default`. -/
def empty : NormalizedProviderResult := ⟨[], [], [], false, none⟩

/-- What `normalize_provider_event` does with the result of the next line. -/
def extend (result out : NormalizedProviderResult) : NormalizedProviderResult where
  events := result.events ++ out.events
  usages := result.usages ++ out.usages
  approvals := result.approvals ++ out.approvals
  permissionBlocked := result.permissionBlocked || out.permissionBlocked
  providerConversationId := out.providerConversationId.or result.providerConversationId

@[simp] theorem empty_extend (result : NormalizedProviderResult) :
    empty.extend result = result := by
  simp [empty, extend]

@[simp] theorem extend_empty (result : NormalizedProviderResult) :
    result.extend empty = result := by
  simp [empty, extend]

theorem extend_assoc (first second third : NormalizedProviderResult) :
    (first.extend second).extend third = first.extend (second.extend third) := by
  simp [extend, Bool.or_assoc, Option.or_assoc]

end NormalizedProviderResult

/-- After a log record the lines that follow belong to it. -/
inductive RawTracingContinuation where
  | none
  | keep
  | drop

/-- `NormalizerSessionContext`: what a log record leaves, and what the payload normalizers
keep for their provider. -/
structure NormalizerSessionContext (σ : Type) where
  rawTracingContinuation : RawTracingContinuation
  payloads : σ

/-- What the normalizer rests on. -/
structure Protocol (σ : Type) where
  /-- `serde_json::from_str`. -/
  fromStr : List Char → Option Json
  /-- What the pattern of a log record captures: target and message. -/
  tracingRecord : List Char → Option (List Char × List Char)
  /-- `normalize_json_payload`, in a session and on a stream. -/
  normalizeJsonPayload : ProviderId → String → ProviderOutputStream → List (String × Json) →
    NormalizerSessionContext σ → NormalizedProviderResult × NormalizerSessionContext σ

/-! ## Lines that are no objects -/

/-- How many characters the pattern of an ANSI control sequence matches at the start:
parameters, intermediates and a final character. -/
def terminalControl : List Char → Option ℕ
  | '\x1b' :: '[' :: rest =>
    let parameters := rest.takeWhile fun c => '0' ≤ c && c ≤ '?'
    let rest := rest.drop parameters.length
    let intermediates := rest.takeWhile fun c => ' ' ≤ c && c ≤ '/'
    match rest.drop intermediates.length with
    | final :: _ =>
      if '@' ≤ final && final ≤ '~' then some (parameters.length + intermediates.length + 3)
      else none
    | [] => none
  | _ => none

/-- The text without its first characters and without the controls in what follows. -/
def stripFrom : ℕ → List Char → List Char
  | _, [] => []
  | skip + 1, _ :: cs => stripFrom skip cs
  | 0, c :: cs =>
    match terminalControl (c :: cs) with
    | some n => stripFrom (n - 1) cs
    | none => c :: stripFrom 0 cs

def stripTerminalControls (value : List Char) : List Char := stripFrom 0 value

def targetIs (target : List Char) (module : String) : Bool :=
  target == module.toList ||
    (module.toList.isPrefixOf target && "::".toList.isPrefixOf (target.drop module.toList.length))

def noisyCodexTracingModules : List String :=
  ["rmcp", "codex_rmcp_client", "codex_mcp", "codex_core::tools", "codex_core_plugins",
    "codex_skills", "codex_skills_extension", "codex_models_manager",
    "codex_api::endpoint::responses_websocket"]

def isNoisyProviderTracing (target message : List Char) : Bool :=
  (targetIs target "codex_app_server::bespoke_event_handling" &&
      containsText message
        "Argmax does not support Codex app-server request mcpServer/elicitation/request".toList) ||
    (targetIs target "codex_core::util" &&
      containsText message "Custom tool call output is missing for call id:".toList) ||
    noisyCodexTracingModules.any fun module => targetIs target module

def noisyPlainStderrPrefixes : List String :=
  ["Skill descriptions were shortened to fit", "failed to parse plugin hooks config",
    "Reconnecting...", "[mcp-sdk] SEP-2352:"]

def isNoisyPlainStderr (line : List Char) : Bool :=
  noisyPlainStderrPrefixes.any fun start => start.toList.isPrefixOf line

/-- `timeline_event`, of a type that `enrich_tool_activity` leaves as it is. -/
def timelineEvent (event : ProviderOutputEvent) (type message : String) (payload : Json) :
    PersistTimelineEventInput :=
  ⟨event.sessionId, type, message, payload⟩

/-- `normalized`, of a single event without usage. -/
def normalized (event : PersistTimelineEventInput) : NormalizedProviderResult :=
  ⟨[event], [], [], false, none⟩

def rawTracingError (event : ProviderOutputEvent) (cleaned : List Char) :
    NormalizedProviderResult :=
  normalized (timelineEvent event "error" (String.ofList cleaned)
    (.object [("stream", .string event.stream.asStr)]))

def rawLineEvent (event : ProviderOutputEvent) (cleaned : List Char) (isProtocolJson : Bool) :
    NormalizedProviderResult :=
  let type := if event.stream = .stderr then "error" else "message.delta"
  let payload :=
    if isProtocolJson then
      Json.object [("raw", .bool true), ("stream", .string event.stream.asStr)]
    else Json.object [("stream", .string event.stream.asStr)]
  normalized (timelineEvent event type (String.ofList cleaned) payload)

section Lines

variable {σ : Type} (protocol : Protocol σ) (provider : ProviderId)
  (event : ProviderOutputEvent)

def normalizeRawLine (line : List Char) (isProtocolJson : Bool)
    (context : NormalizerSessionContext σ) :
    NormalizedProviderResult × NormalizerSessionContext σ :=
  let cleaned := trim (stripTerminalControls line)
  if cleaned.isEmpty then (.empty, context)
  else if isProtocolJson then
    (rawLineEvent event cleaned true, { context with rawTracingContinuation := .none })
  else
    match protocol.tracingRecord cleaned with
    | some (target, message) =>
      if isNoisyProviderTracing target message then
        (.empty, { context with rawTracingContinuation := .drop })
      else
        (rawTracingError event cleaned, { context with rawTracingContinuation := .keep })
    | none =>
      match context.rawTracingContinuation with
      | .drop => (.empty, context)
      | .keep => (rawTracingError event cleaned, context)
      | .none =>
        if event.stream = .stderr && isNoisyPlainStderr cleaned then (.empty, context)
        else (rawLineEvent event cleaned false, context)

/-! ## Lines -/

def jsonParseLineCap : ℕ := 4194304

def normalizeLine (line : List Char) (context : NormalizerSessionContext σ) :
    NormalizedProviderResult × NormalizerSessionContext σ :=
  if jsonParseLineCap < byteLength line then
    (normalized (timelineEvent event "error"
      ("[argmax: skipped " ++ toString (byteLength line) ++ "-byte line (> " ++
        toString jsonParseLineCap ++ " bytes); too large to parse]")
      (.object [("droppedBytes", .number (.posInt (byteLength line))),
        ("stream", .string event.stream.asStr), ("truncated", .bool true)])), context)
  else
    match protocol.fromStr line with
    | some (.object payload) =>
      protocol.normalizeJsonPayload provider event.sessionId event.stream payload
        { context with rawTracingContinuation := .none }
    | some _ => normalizeRawLine protocol event line true context
    | none => normalizeRawLine protocol event line false context

/-- `str::lines`: a line ends with a line feed, which may follow a carriage return. -/
def lines (text : List Char) : List (List Char) :=
  (segments (· == '\n') text).map fun line =>
    if line.getLast? = some '\n' then
      if line.dropLast.getLast? = some '\r' then line.dropLast.dropLast else line.dropLast
    else line

/-- One line of a chunk, added to the result so far. -/
def normalizeNext (rawLine : List Char)
    (state : NormalizedProviderResult × NormalizerSessionContext σ) :
    NormalizedProviderResult × NormalizerSessionContext σ :=
  let line := trim rawLine
  if line.isEmpty then state
  else
    let (out, context) := normalizeLine protocol provider event line state.2
    (state.1.extend out, context)

def normalizeProviderEvent (context : NormalizerSessionContext σ) :
    NormalizedProviderResult × NormalizerSessionContext σ :=
  (lines event.message).foldl
    (fun state rawLine => normalizeNext protocol provider event rawLine state)
    (.empty, context)

end Lines

end Argmax.Providers
