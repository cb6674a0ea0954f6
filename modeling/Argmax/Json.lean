import Mathlib.Data.List.Basic
import Mathlib.Data.Int.Notation
import Mathlib.Algebra.GroupWithZero.Nat

/-!
# JSON values

The values `serde_json` works with. An object keeps its fields in the order in
which the map iterates. The text form of a value, and the reading of one, belong
to the library: models that need them take a printer and a parser as
parameters.
-/

namespace Argmax

/-- A `serde_json::Number`: an unsigned or a negative integer, or a float given
by its bits. -/
inductive Number where
  | posInt (n : ℕ)
  | negInt (n : ℤ)
  | float (bits : BitVec 64)
  deriving DecidableEq

/-- A `serde_json::Value`. -/
inductive Json where
  | null
  | bool (b : Bool)
  | number (n : Number)
  | string (s : String)
  | array (items : List Json)
  | object (fields : List (String × Json))
  deriving Inhabited

namespace Json

/-! ## Equality -/

mutual

/-- Equality of values, decided constructor by constructor. -/
def decEq : (a b : Json) → Decidable (a = b)
  | null, null => .isTrue rfl
  | bool a, bool b => decidable_of_iff (a = b) (by simp)
  | number a, number b => decidable_of_iff (a = b) (by simp)
  | string a, string b => decidable_of_iff (a = b) (by simp)
  | array as, array bs =>
    @decidable_of_iff (array as = array bs) (as = bs) (by simp) (decEqList as bs)
  | object as, object bs =>
    @decidable_of_iff (object as = object bs) (as = bs) (by simp) (decEqFields as bs)
  | null, bool _ | null, number _ | null, string _ | null, array _ | null, object _
  | bool _, null | bool _, number _ | bool _, string _ | bool _, array _ | bool _, object _
  | number _, null | number _, bool _ | number _, string _ | number _, array _
  | number _, object _
  | string _, null | string _, bool _ | string _, number _ | string _, array _
  | string _, object _
  | array _, null | array _, bool _ | array _, number _ | array _, string _
  | array _, object _
  | object _, null | object _, bool _ | object _, number _ | object _, string _
  | object _, array _ => .isFalse (by simp)

/-- Equality of arrays. -/
def decEqList : (as bs : List Json) → Decidable (as = bs)
  | [], [] => .isTrue rfl
  | [], _ :: _ => .isFalse (by simp)
  | _ :: _, [] => .isFalse (by simp)
  | a :: as, b :: bs =>
    @decidable_of_iff (a :: as = b :: bs) (a = b ∧ as = bs) (by simp)
      (@instDecidableAnd _ _ (decEq a b) (decEqList as bs))

/-- Equality of the field lists of objects. -/
def decEqFields : (as bs : List (String × Json)) → Decidable (as = bs)
  | [], [] => .isTrue rfl
  | [], _ :: _ => .isFalse (by simp)
  | _ :: _, [] => .isFalse (by simp)
  | (k, a) :: as, (l, b) :: bs =>
    @decidable_of_iff ((k, a) :: as = (l, b) :: bs) (k = l ∧ a = b ∧ as = bs)
      (by simp [and_assoc])
      (@instDecidableAnd _ _ _ (@instDecidableAnd _ _ (decEq a b) (decEqFields as bs)))

end

instance : DecidableEq Json := decEq

/-! ## Fields -/

/-- `Map::insert`: the fields of a map are in the order of their keys. -/
def insertField (key : String) (value : Json) : List (String × Json) → List (String × Json)
  | [] => [(key, value)]
  | (k, v) :: fields =>
    if key < k then (key, value) :: (k, v) :: fields
    else if key = k then (key, value) :: fields
    else (k, v) :: insertField key value fields

/-! ## Reading -/

/-- `Value::get`: the field of an object, `none` for every other value. -/
def get (key : String) : Json → Option Json
  | object fields => (fields.find? fun field => field.1 == key).map (·.2)
  | _ => none

@[simp] theorem get_insertField_self (fields : List (String × Json)) (key : String)
    (value : Json) : (object (insertField key value fields)).get key = some value := by
  induction fields with
  | nil => simp [insertField, get]
  | cons first fields ih =>
    rw [insertField]
    split
    · simp [get]
    · split
      · simp [get]
      · rename_i hne
        have hfirst : (first.1 == key) = false := by simpa using Ne.symm hne
        rw [get, List.find?_cons, hfirst]
        exact ih

/-- Setting a field leaves every other one. -/
theorem get_insertField_of_ne (fields : List (String × Json)) {key other : String}
    (h : other ≠ key) (value : Json) :
    (object (insertField key value fields)).get other = (object fields).get other := by
  have hkey : (key == other) = false := by simpa using Ne.symm h
  induction fields with
  | nil => simp [insertField, get, hkey]
  | cons first fields ih =>
    rw [insertField]
    split
    · rw [get, List.find?_cons, hkey]
      rfl
    · split
      · rename_i heq
        rw [get, List.find?_cons, get, List.find?_cons, ← heq, hkey]
      · rw [get, List.find?_cons, get, List.find?_cons]
        cases hfirst : first.1 == other
        · exact ih
        · rfl

def asStr : Json → Option String
  | string s => some s
  | _ => none

def asBool : Json → Option Bool
  | bool b => some b
  | _ => none

/-- `Value::as_i64`: an integer that fits sixty-four signed bits. -/
def asI64 : Json → Option ℤ
  | number (.posInt n) => if n < 2 ^ 63 then some n else none
  | number (.negInt n) => some n
  | _ => none

def asArray : Json → Option (List Json)
  | array items => some items
  | _ => none

end Json

end Argmax
