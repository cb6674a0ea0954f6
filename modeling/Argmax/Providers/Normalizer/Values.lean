import Argmax.Json

/-!
# Reading the fields of a provider's line

The readers of `providers/normalizer/mod.rs`, and what a field reads as after another one
was set.
-/

namespace Argmax.Providers.Normalizer

/-- A `serde_json::Map`. -/
abbrev Fields := List (String × Json)

/-- `Map::get`. -/
def Fields.field (fields : Fields) (key : String) : Option Json :=
  (fields.find? fun field => field.1 == key).map (·.2)

def stringValue (value : Option Json) : Option String :=
  (value.bind Json.asStr).filter fun s => !s.isEmpty

def objectValue : Option Json → Option Fields
  | some (.object fields) => some fields
  | _ => none

def arrayValue (value : Option Json) : Option (List Json) := value.bind Json.asArray

/-- `Value::as_u64`. -/
def asU64 : Json → Option ℕ
  | .number (.posInt n) => if n < 2 ^ 64 then some n else none
  | _ => none

def numberValue (value : Option Json) : ℕ := (value.bind asU64).getD 0

def toAsciiLowercase (text : String) : String := String.ofList (text.toList.map Char.toLower)

@[simp] theorem field_insertField_self (fields : Fields) (key : String) (value : Json) :
    Fields.field (Json.insertField key value fields) key = some value :=
  Json.get_insertField_self fields key value

theorem field_insertField_of_ne (fields : Fields) {key other : String} (h : other ≠ key)
    (value : Json) :
    Fields.field (Json.insertField key value fields) other = fields.field other :=
  Json.get_insertField_of_ne fields h value

end Argmax.Providers.Normalizer
