import Argmax.Json

/-!
# The domain error

`ArgmaxError` is the one error type the commands return. It serialises with a
top-level `code`, and a service error names its leaf in `sub_code`.
-/

namespace Argmax

/-- A single failure of a boundary check. -/
structure InvalidInputIssue where
  path : List String
  code : String
  message : String
  deriving DecidableEq

/-- The error of every command. -/
inductive ArgmaxError where
  | invalidInput (issues : List InvalidInputIssue)
  | recordNotFound (kind id : String)
  | migrationDrift (detail : String)
  | serviceError (subCode message : String)
  deriving DecidableEq

/-- The result of every command. -/
abbrev ArgmaxResult (α : Type*) := Except ArgmaxError α

/-- What comes of two steps, when something comes of them. -/
theorem ArgmaxResult.bind_eq_ok {α β : Type} {x : ArgmaxResult α} {f : α → ArgmaxResult β}
    {b : β} : x >>= f = .ok b ↔ ∃ a, x = .ok a ∧ f a = .ok b := by
  cases x <;> simp [bind, Except.bind]

theorem ArgmaxResult.map_eq_ok {α β : Type} {x : ArgmaxResult α} {f : α → β} {b : β} :
    f <$> x = .ok b ↔ ∃ a, x = .ok a ∧ f a = b := by
  cases x <;> simp [Functor.map, Except.map]

/-- A loop over a list comes to its end when every round does. -/
theorem ArgmaxResult.forM_eq_ok {α : Type} {xs : List α} {f : α → ArgmaxResult Unit} :
    xs.forM f = .ok () ↔ ∀ x ∈ xs, f x = .ok () := by
  induction xs with
  | nil => simp [pure, Except.pure]
  | cons x xs ih =>
    rw [List.forM, ArgmaxResult.bind_eq_ok, List.forall_mem_cons, ← ih]
    exact ⟨fun ⟨_, hx, hxs⟩ => ⟨hx, hxs⟩, fun ⟨hx, hxs⟩ => ⟨(), hx, hxs⟩⟩

/-- A call of the store, which fails when it is the one at fault. -/
def attempt {Call : Type*} [DecidableEq Call] (fault : Option Call) (call : Call) :
    Except ArgmaxError Unit :=
  if fault = some call then .error (.serviceError "SQLITE" "database error") else .ok ()

theorem attempt_eq_ok {Call : Type*} [DecidableEq Call] {fault : Option Call} {call : Call}
    {u : Unit} : attempt fault call = .ok u ↔ fault ≠ some call := by
  rw [attempt]
  split <;> simp_all

@[simp] theorem attempt_none {Call : Type*} [DecidableEq Call] (call : Call) :
    attempt none call = .ok () := rfl

namespace InvalidInputIssue

/-- The serialised form of an issue. -/
def toJson (issue : InvalidInputIssue) : Json :=
  .object [("code", .string issue.code), ("message", .string issue.message),
    ("path", .array (issue.path.map .string))]

end InvalidInputIssue

namespace ArgmaxError

/-- The error with a single issue. -/
def invalid (issue : InvalidInputIssue) : ArgmaxError := .invalidInput [issue]

/-- A failure inside a service, with its leaf code. -/
def service (subCode message : String) : ArgmaxError := .serviceError subCode message

/-- The text of an error. -/
def toString : ArgmaxError → String
  | .invalidInput issues => "invalid input (" ++ issues.length.repr ++ ")"
  | .recordNotFound kind id => kind ++ " not found: " ++ id
  | .migrationDrift detail => "migration drift detected: " ++ detail
  | .serviceError _ message => message

/-- The serialised error: the variant's tag under `code`, then its fields, in the
key order of the map. -/
def toJson : ArgmaxError → Json
  | .invalidInput issues =>
    .object [("code", .string "INVALID_INPUT"),
      ("issues", .array (issues.map InvalidInputIssue.toJson))]
  | .recordNotFound kind id =>
    .object [("code", .string "RECORD_NOT_FOUND"), ("id", .string id), ("kind", .string kind)]
  | .migrationDrift detail =>
    .object [("code", .string "MIGRATION_DRIFT"), ("detail", .string detail)]
  | .serviceError subCode message =>
    .object [("code", .string "SERVICE_ERROR"), ("message", .string message),
      ("sub_code", .string subCode)]

end ArgmaxError

end Argmax
