import Argmax.Usage.Records
import Mathlib.Data.List.Chain

/-!
# The Cursor estimate

`usage/cursor.rs`. Cursor reports no usage, so a chat's model calls are rebuilt from its
transcript: every call re-reads a base prompt and the conversation so far, and adds what arrived
since the call before it.
-/

namespace Argmax.Usage

/-- `EVENT_TOKEN_CAP`: the most one event adds to the conversation. -/
def eventTokenCap : ℕ := 10000

def charsPerToken : ℕ := 4

/-- `CONTEXT_WINDOW_TOKENS`: a conversation that outgrows it starts over. -/
def contextWindowTokens : ℕ := 1000000

def baseContextTokens : ℕ := 20000

/-- One model call rebuilt from the transcript. -/
structure EstimatedCall where
  createdAt : String
  input : ℕ
  cacheRead : ℕ
  output : ℕ

/-- What an event of the transcript is to the estimate. -/
inductive ContextKind where
  /-- Of `CALL_EVENTS`: one model call. -/
  | call
  /-- Of `CONTEXT_EVENTS` only. -/
  | context
  /-- `session.cleared`. -/
  | cleared
  deriving DecidableEq

/-- A row of the transcript, in the order of `created_at, rowid`. -/
structure ContextEvent where
  createdAt : String
  kind : ContextKind
  /-- The characters of the message and of the payload that the model sees. -/
  chars : ℕ

def ContextEvent.tokens (event : ContextEvent) : ℕ :=
  min eventTokenCap (event.chars / charsPerToken)

/-- The loop of `estimate_calls`, at a conversation of `content` tokens. -/
def estimateCallsFrom (content contentAtLastCall : ℕ) : List ContextEvent → List EstimatedCall
  | [] => []
  | event :: events =>
    match event.kind with
    | .cleared => estimateCallsFrom 0 0 events
    | kind =>
      let fresh := content - contentAtLastCall
      let call : EstimatedCall :=
        ⟨event.createdAt, fresh, baseContextTokens + content - fresh, event.tokens⟩
      let atLastCall := if kind = .call then content else contentAtLastCall
      let grown := content + event.tokens
      let rest :=
        if contextWindowTokens < grown then estimateCallsFrom 0 0 events
        else estimateCallsFrom grown atLastCall events
      if kind = .call then call :: rest else rest

/-- `estimate_calls`: every model call of a chat, in order. -/
def estimateCalls (events : List ContextEvent) : List EstimatedCall := estimateCallsFrom 0 0 events

/-- Dollars for a million tokens. -/
structure CursorRates where
  input : ℚ
  cacheRead : ℚ
  output : ℚ

def CursorRates.cost (rates : CursorRates) (call : EstimatedCall) : ℚ :=
  (call.input * rates.input + call.cacheRead * rates.cacheRead + call.output * rates.output) /
    1000000

/-- `cursor_rates`: the published rate of a model at a time. -/
abbrev CursorRateTable := String → String → Option CursorRates

/-! ## What an estimate keeps -/

/-- What the model reads for a call: the base prompt and the conversation before it. -/
def EstimatedCall.prompt (call : EstimatedCall) : ℕ := call.input + call.cacheRead

/-- A call reads the base prompt from the cache, and a conversation of at most one window. -/
def EstimatedCall.Fits (call : EstimatedCall) : Prop :=
  baseContextTokens ≤ call.cacheRead ∧ call.prompt ≤ baseContextTokens + contextWindowTokens

/-- The next call reads from the cache what this one read, unless the conversation starts over. -/
def Rereads (call next : EstimatedCall) : Prop :=
  next.cacheRead = baseContextTokens ∨ next.cacheRead = call.prompt

/-- The calls are those of the transcript, each reads a conversation of at most one window, and
what one call has read the next one finds in the cache. -/
structure Estimates (events : List ContextEvent) (calls : List EstimatedCall) : Prop where
  made : calls.map (fun call => (call.createdAt, call.output)) =
    (events.filter fun event => event.kind = .call).map fun event =>
      (event.createdAt, event.tokens)
  fits : ∀ call ∈ calls, call.Fits
  rereads : calls.IsChain Rereads

variable {content last : ℕ} {events : List ContextEvent}

theorem map_estimateCallsFrom (events : List ContextEvent) (content last : ℕ) :
    (estimateCallsFrom content last events).map (fun call => (call.createdAt, call.output)) =
      (events.filter fun event => event.kind = .call).map fun event =>
        (event.createdAt, event.tokens) := by
  induction events generalizing content last with
  | nil => rfl
  | cons event events ih =>
    cases hkind : event.kind <;> simp only [estimateCallsFrom, hkind, if_true, reduceCtorEq, if_false]
    case cleared => simp [hkind, ih]
    all_goals split <;> simp [hkind, ih]

theorem fits_estimateCallsFrom (hlast : last ≤ content) (hcontent : content ≤ contextWindowTokens) :
    ∀ call ∈ estimateCallsFrom content last events, call.Fits := by
  induction events generalizing content last with
  | nil => simp [estimateCallsFrom]
  | cons event events ih =>
    have hreset := ih le_rfl (Nat.zero_le _)
    -- What follows goes on with the grown conversation, or with an empty one.
    have hrest : ∀ atLast ≤ content, ∀ call ∈ (if contextWindowTokens < content + event.tokens then
        estimateCallsFrom 0 0 events else
        estimateCallsFrom (content + event.tokens) atLast events), call.Fits := by
      intro atLast hatLast
      split
      · exact hreset
      · exact ih (by omega) (by omega)
    cases hkind : event.kind <;> simp only [estimateCallsFrom, hkind, if_true, reduceCtorEq, if_false]
    case call =>
      refine List.forall_mem_cons.mpr ⟨?_, hrest content le_rfl⟩
      simp only [EstimatedCall.Fits, EstimatedCall.prompt]
      omega
    case context => exact hrest last hlast
    case cleared => exact hreset

/-- A call before the rest of the transcript that read the conversation up to `last`. -/
theorem isChain_estimateCallsFrom (hlast : last ≤ content) (call : EstimatedCall)
    (hcall : last = 0 ∨ call.prompt = baseContextTokens + last) :
    (call :: estimateCallsFrom content last events).IsChain Rereads := by
  induction events generalizing content last call with
  | nil => exact .singleton call
  | cons event events ih =>
    cases hkind : event.kind <;> simp only [estimateCallsFrom, hkind, if_true, reduceCtorEq, if_false]
    case cleared => exact ih le_rfl call (.inl rfl)
    case context =>
      split
      · exact ih le_rfl call (.inl rfl)
      · exact ih (by omega) call hcall
    case call =>
      refine .cons_cons ?_ ?_
      · simp only [Rereads]
        omega
      · split
        · exact ih le_rfl _ (.inl rfl)
        · refine ih (by omega) _ (.inr ?_)
          simp only [EstimatedCall.prompt]
          omega

/-- **The Cursor estimate.** -/
theorem estimates_estimateCalls (events : List ContextEvent) :
    Estimates events (estimateCalls events) where
  made := map_estimateCallsFrom events 0 0
  fits := fits_estimateCallsFrom le_rfl (Nat.zero_le _)
  rereads := (isChain_estimateCallsFrom le_rfl ⟨"", 0, 0, 0⟩ (.inl rfl)).tail

end Argmax.Usage
