import Argmax.Error

/-!
# Identifiers shared by the commands

`application/validation.rs`. A provider is one of five command-line agents.
-/

namespace Argmax

/-- The provider of a session. -/
inductive ProviderId where
  | claude
  | codex
  | cursor
  | opencode
  | grok
  deriving DecidableEq

/-- `parse_provider`, of `providers/runtime.rs`. -/
def parseProvider (value : String) : ArgmaxResult ProviderId :=
  if value = "claude" then .ok .claude
  else if value = "codex" then .ok .codex
  else if value = "cursor" then .ok .cursor
  else if value = "opencode" then .ok .opencode
  else if value = "grok" then .ok .grok
  else .error (.service "PROVIDER_UNKNOWN" ("unknown provider " ++ value))

end Argmax
