import TurboAgent.Data.Text

/-!
# JSON values

JSON documents as the runtime's records use them.  A number is a decimal
`mantissa * 10 ^ (-exponent)`; an object is an association list whose keys are kept
distinct by `set`, which replaces the value of a key that is already there.

The accessors follow the C helpers: a missing field, a value of another type and a
missing document all read as absent.
-/

namespace TurboAgent

inductive Json where
  | null
  | bool (value : Bool)
  | number (mantissa : Int) (exponent : Nat)
  | string (text : String)
  | array (elements : List Json)
  | object (fields : List (String × Json))
  deriving Repr, Inhabited

namespace Json

mutual
def same : Json → Json → Bool
  | .null, .null => true
  | .bool left, .bool right => left == right
  | .number mantissa exponent, .number mantissa' exponent' =>
      mantissa == mantissa' && exponent == exponent'
  | .string left, .string right => left == right
  | .array left, .array right => sameList left right
  | .object left, .object right => sameFields left right
  | _, _ => false

/-- Structural equality test of element lists. -/
def sameList : List Json → List Json → Bool
  | [], [] => true
  | left :: lefts, right :: rights => same left right && sameList lefts rights
  | _, _ => false

def sameFields : List (String × Json) → List (String × Json) → Bool
  | [], [] => true
  | (key, left) :: lefts, (key', right) :: rights =>
      key == key' && same left right && sameFields lefts rights
  | _, _ => false
end

mutual
theorem same_iff : (left right : Json) → (same left right = true ↔ left = right)
  | .null, right => by cases right <;> simp [same]
  | .bool value, right => by cases right <;> simp [same]
  | .number mantissa exponent, right => by cases right <;> simp [same]
  | .string text, right => by cases right <;> simp [same]
  | .array elements, right => by
      cases right with
      | array elements' => simp [same, sameList_iff elements elements']
      | _ => simp [same]
  | .object fields, right => by
      cases right with
      | object fields' => simp [same, sameFields_iff fields fields']
      | _ => simp [same]

theorem sameList_iff : (left right : List Json) →
    (sameList left right = true ↔ left = right)
  | [], right => by cases right <;> simp [sameList]
  | value :: values, right => by
      cases right with
      | nil => simp [sameList]
      | cons value' values' =>
          simp [sameList, same_iff value value', sameList_iff values values']

theorem sameFields_iff : (left right : List (String × Json)) →
    (sameFields left right = true ↔ left = right)
  | [], right => by cases right <;> simp [sameFields]
  | (key, value) :: fields, right => by
      cases right with
      | nil => simp [sameFields]
      | cons field' fields' =>
          simp [sameFields, same_iff value field'.2, sameFields_iff fields fields',
            Prod.ext_iff, and_assoc]
end

instance : DecidableEq Json := fun left right =>
  decidable_of_iff (same left right = true) (same_iff left right)

@[reducible] def int (value : Int) : Json := .number value 0

def findField : List (String × Json) → String → Option Json
  | [], _ => none
  | (name, value) :: fields, key => if name = key then some value else findField fields key

/-- `json_object_get`. -/
def field : Json → String → Option Json
  | .object fields, key => findField fields key
  | _, _ => none

/-- Replace the value of a key in a field list, or append it. -/
def putField : List (String × Json) → String → Json → List (String × Json)
  | [], key, value => [(key, value)]
  | (name, old) :: fields, key, value =>
      if name = key then (key, value) :: fields
      else (name, old) :: putField fields key value

/-- `turbo_runtime_json_object_set` on an object; other values stay as they are. -/
def set : Json → String → Json → Json
  | .object fields, key, value => .object (putField fields key value)
  | other, _, _ => other

/-- `json_type(value) == JSON_OBJECT`. -/
def isObject : Json → Bool
  | .object _ => true
  | _ => false

/-- `json_object_size`. -/
def size : Json → Nat
  | .object fields => fields.length
  | _ => 0

/-- Lower end of `int64_t`. -/
def int64Min : Int := -9223372036854775808

/-- Upper end of `int64_t`. -/
def int64Max : Int := 9223372036854775807

/-- `turbo_runtime_json_value_as_int64`: integral numbers in range, otherwise the
default. -/
def asInt64 (value : Option Json) (default : Int) : Int :=
  match value with
  | some (.number mantissa exponent) =>
      if 10 ^ exponent ∣ mantissa then
        let integer := mantissa / 10 ^ exponent
        if int64Min ≤ integer ∧ integer ≤ int64Max then integer else default
      else default
  | _ => default

/-- The text of a string field, up to its first NUL: `json_get_string`. -/
def getString (record : Json) (key : String) : Option String :=
  match record.field key with
  | some (.string text) => some (String.ofList (text.toList.takeWhile (· ≠ '\x00')))
  | _ => none

@[simp] theorem asInt64_int {value default : Int} (lower : int64Min ≤ value)
    (upper : value ≤ int64Max) : asInt64 (some (int value)) default = value := by
  simp [asInt64, lower, upper]

theorem getString_of_field {record : Json} {key text : String}
    (stored : record.field key = some (.string text)) (plain : noNul text = true) :
    record.getString key = some text := by
  have all : ∀ ch ∈ text.toList, decide (ch ≠ '\x00') = true := by
    intro ch member
    simp only [noNul, Bool.not_eq_true', List.contains_eq_mem,
      decide_eq_false_iff_not] at plain
    simp only [ne_eq, decide_not, Bool.not_eq_true', decide_eq_false_iff_not]
    intro nul
    exact plain (nul ▸ member)
  simp only [getString, stored, List.takeWhile_eq_self_iff.mpr all,
    String.ofList_toList]

/-- What is read has no NUL. -/
theorem getString_noNul {record : Json} {key text : String}
    (found : record.getString key = some text) : noNul text = true := by
  rw [getString] at found
  split at found
  next =>
    cases found
    simp only [noNul, String.toList_ofList, Bool.not_eq_true', List.contains_eq_mem,
      decide_eq_false_iff_not]
    intro member
    have kept := List.mem_takeWhile_imp member
    simp at kept
  next => cases found

end Json

end TurboAgent
