import TurboAgent.AgentCompiler.PlanHash
import TurboAgent.Logic.Framing

/-!
# The encoding of JSON values

What a walk over a JSON value feeds to the hash, as a list of bytes, and what can be read off it.
Strings and keys tell where they end.  Arrays, objects and numbers do not, and the part of a
string behind a NUL is not encoded: a value is read back only from a value of the same shape.
-/

namespace TurboAgent.AgentCompiler

open Logic
open ToolSchema (cString cString_eq)

/-- Number literals have different texts, without a NUL. -/
structure Literals (numberText : Int → Nat → List UInt8) : Prop where
  injective : ∀ {mantissa mantissa' : Int} {exponent exponent' : Nat},
    numberText mantissa exponent = numberText mantissa' exponent' →
      mantissa = mantissa' ∧ exponent = exponent'
  noZero : ∀ mantissa exponent, 0 ∉ numberText mantissa exponent

/-! ## Strings and numbers of the plan -/

theorem cString_noNul (text : String) : '\x00' ∉ (cString text).toList := by
  rw [cString, String.toList_ofList]
  intro member
  simpa using List.mem_takeWhile_imp member

theorem stringBytes_append {left right : String} {rest rest' : List UInt8}
    (same : stringBytes left ++ rest = stringBytes right ++ rest') :
    cString left = cString right ∧ rest = rest' := by
  simp only [stringBytes, List.append_assoc, List.singleton_append] at same
  obtain ⟨bytes, rests⟩ := Framed.split_at_mark (utf8_mark _) (utf8_mark _) same
  exact ⟨utf8_injective bytes, rests⟩

theorem stringBytes_framed : Framed fun text : CString => stringBytes text.1 := by
  intro left right rest rest' same
  obtain ⟨texts, rests⟩ := stringBytes_append same
  rw [cString_eq left.2, cString_eq right.2] at texts
  exact ⟨Subtype.ext texts, rests⟩

theorem stringBytes_noZero (text : String) : 0 ∉ stringBytes text := by
  rw [stringBytes, List.mem_append, List.mem_singleton, not_or]
  exact ⟨utf8_noZero (cString_noNul text), by decide⟩

theorem length_little (width value : Nat) : (little width value).length = width := by
  induction width generalizing value with
  | zero => rfl
  | succ width ih => rw [little, List.length_cons, ih]

theorem little_inj {width left right : Nat} (leftBound : left < 256 ^ width)
    (rightBound : right < 256 ^ width) (same : little width left = little width right) :
    left = right := by
  induction width generalizing left right with
  | zero =>
      rw [pow_zero, Nat.lt_one_iff] at leftBound rightBound
      rw [leftBound, rightBound]
  | succ width ih =>
      obtain ⟨byte, others⟩ := List.cons.inj same
      rw [pow_succ] at leftBound rightBound
      have high := ih (Nat.div_lt_of_lt_mul (by rwa [Nat.mul_comm]))
        (Nat.div_lt_of_lt_mul (by rwa [Nat.mul_comm])) others
      have low := congrArg UInt8.toNat byte
      simp only [UInt8.toNat_ofNat'] at low
      omega

theorem u32_framed : Framed fun value : UInt32 => little 4 value.toNat := by
  apply Framed.of_width fun value : UInt32 => length_little 4 value.toNat
  intro left right same
  exact UInt32.toNat_inj.mp (little_inj left.toNat_lt right.toNat_lt same)

theorem u64_framed : Framed fun value : UInt64 => little 8 value.toNat := by
  apply Framed.of_width fun value : UInt64 => length_little 8 value.toNat
  intro left right same
  exact UInt64.toNat_inj.mp (little_inj left.toNat_lt right.toNat_lt same)

/-! ## JSON values -/

section

variable (numberText : Int → Nat → List UInt8)

mutual
/-- The encoding of a value whose keys are in order. -/
def orderedBytes : Json → List UInt8
  | .null => stringBytes "null"
  | .bool value => stringBytes "bool" ++ stringBytes (if value then "true" else "false")
  | .number mantissa exponent => stringBytes "number" ++ numberText mantissa exponent
  | .string text => stringBytes "string" ++ stringBytes text
  | .array elements => stringBytes "array" ++ elementsBytes elements
  | .object fields => stringBytes "object" ++ fieldsBytes fields

def elementsBytes : List Json → List UInt8
  | [] => []
  | element :: elements => orderedBytes element ++ elementsBytes elements

def fieldsBytes : List (String × Json) → List UInt8
  | [] => []
  | (key, value) :: fields => stringBytes key ++ (orderedBytes value ++ fieldsBytes fields)
end

def hiddenPart (text : String) : List Char := text.toList.dropWhile (· ≠ '\x00')

mutual
/-- The same kinds of values, with as many elements and fields, number literals of the same length
and the same hidden parts of strings. -/
def SameShape : Json → Json → Prop
  | .null, .null => True
  | .bool _, .bool _ => True
  | .number mantissa exponent, .number mantissa' exponent' =>
      (numberText mantissa exponent).length = (numberText mantissa' exponent').length
  | .string left, .string right => hiddenPart left = hiddenPart right
  | .array lefts, .array rights => SameElementShapes lefts rights
  | .object lefts, .object rights => SameFieldShapes lefts rights
  | _, _ => False

def SameElementShapes : List Json → List Json → Prop
  | [], [] => True
  | left :: lefts, right :: rights => SameShape left right ∧ SameElementShapes lefts rights
  | _, _ => False

def SameFieldShapes : List (String × Json) → List (String × Json) → Prop
  | [], [] => True
  | (_, left) :: lefts, (_, right) :: rights => SameShape left right ∧ SameFieldShapes lefts rights
  | _, _ => False
end

end

section

variable {numberText : Int → Nat → List UInt8}

mutual
theorem sameShape_refl : (value : Json) → SameShape numberText value value
  | .null => trivial
  | .bool _ => trivial
  | .number _ _ => rfl
  | .string _ => rfl
  | .array elements => sameElementShapes_refl elements
  | .object fields => sameFieldShapes_refl fields

theorem sameElementShapes_refl : (elements : List Json) →
    SameElementShapes numberText elements elements
  | [] => trivial
  | element :: elements => ⟨sameShape_refl element, sameElementShapes_refl elements⟩

theorem sameFieldShapes_refl : (fields : List (String × Json)) →
    SameFieldShapes numberText fields fields
  | [] => trivial
  | (_, value) :: fields => ⟨sameShape_refl value, sameFieldShapes_refl fields⟩
end

mutual
theorem orderedBytes_noZero (literals : Literals numberText) : (value : Json) →
    0 ∉ orderedBytes numberText value
  | .null => stringBytes_noZero _
  | .bool _ => List.not_mem_append (stringBytes_noZero _) (stringBytes_noZero _)
  | .number _ _ => List.not_mem_append (stringBytes_noZero _) (literals.noZero _ _)
  | .string _ => List.not_mem_append (stringBytes_noZero _) (stringBytes_noZero _)
  | .array elements =>
      List.not_mem_append (stringBytes_noZero _) (elementsBytes_noZero literals elements)
  | .object fields =>
      List.not_mem_append (stringBytes_noZero _) (fieldsBytes_noZero literals fields)

theorem elementsBytes_noZero (literals : Literals numberText) : (elements : List Json) →
    0 ∉ elementsBytes numberText elements
  | [] => List.not_mem_nil
  | element :: elements =>
      List.not_mem_append (orderedBytes_noZero literals element)
        (elementsBytes_noZero literals elements)

theorem fieldsBytes_noZero (literals : Literals numberText) : (fields : List (String × Json)) →
    0 ∉ fieldsBytes numberText fields
  | [] => List.not_mem_nil
  | (_, value) :: fields =>
      List.not_mem_append (stringBytes_noZero _)
        (List.not_mem_append (orderedBytes_noZero literals value)
          (fieldsBytes_noZero literals fields))
end

theorem string_eq {left right : String} (seen : cString left = cString right)
    (hidden : hiddenPart left = hiddenPart right) : left = right := by
  have start := congrArg String.toList seen
  rw [cString, cString, String.toList_ofList, String.toList_ofList] at start
  apply String.toList_inj.mp
  calc left.toList
      = left.toList.takeWhile (· ≠ '\x00') ++ hiddenPart left :=
        List.takeWhile_append_dropWhile.symm
    _ = right.toList.takeWhile (· ≠ '\x00') ++ hiddenPart right := by rw [start, hidden]
    _ = right.toList := List.takeWhile_append_dropWhile

mutual
theorem orderedBytes_append (literals : Literals numberText) : (left right : Json) →
    SameShape numberText left right → PlainKeys left → PlainKeys right →
    ∀ {rest rest' : List UInt8},
      orderedBytes numberText left ++ rest = orderedBytes numberText right ++ rest' →
      left = right ∧ rest = rest'
  | .null, right, shape, _, _, rest, rest', same => by
      cases right with
      | null => exact ⟨rfl, (stringBytes_append same).2⟩
      | _ => exact shape.elim
  | .bool value, right, shape, _, _, rest, rest', same => by
      cases right with
      | bool value' =>
          rw [orderedBytes, orderedBytes, List.append_assoc, List.append_assoc] at same
          obtain ⟨texts, rests⟩ := stringBytes_append (stringBytes_append same).2
          refine ⟨?_, rests⟩
          revert texts
          cases value <;> cases value' <;> decide
      | _ => exact shape.elim
  | .number mantissa exponent, right, shape, _, _, rest, rest', same => by
      cases right with
      | number mantissa' exponent' =>
          rw [orderedBytes, orderedBytes, List.append_assoc, List.append_assoc] at same
          obtain ⟨texts, rests⟩ := List.append_inj (stringBytes_append same).2 shape
          obtain ⟨rfl, rfl⟩ := literals.injective texts
          exact ⟨rfl, rests⟩
      | _ => exact shape.elim
  | .string text, right, shape, _, _, rest, rest', same => by
      cases right with
      | string text' =>
          rw [orderedBytes, orderedBytes, List.append_assoc, List.append_assoc] at same
          obtain ⟨seen, rests⟩ := stringBytes_append (stringBytes_append same).2
          rw [string_eq seen shape]
          exact ⟨rfl, rests⟩
      | _ => exact shape.elim
  | .array elements, right, shape, plain, plain', rest, rest', same => by
      cases right with
      | array elements' =>
          rw [orderedBytes, orderedBytes, List.append_assoc, List.append_assoc] at same
          obtain ⟨rfl, rests⟩ := elementsBytes_append literals elements elements' shape plain plain'
            (stringBytes_append same).2
          exact ⟨rfl, rests⟩
      | _ => exact shape.elim
  | .object fields, right, shape, plain, plain', rest, rest', same => by
      cases right with
      | object fields' =>
          rw [orderedBytes, orderedBytes, List.append_assoc, List.append_assoc] at same
          obtain ⟨rfl, rests⟩ := fieldsBytes_append literals fields fields' shape plain plain'
            (stringBytes_append same).2
          exact ⟨rfl, rests⟩
      | _ => exact shape.elim

theorem elementsBytes_append (literals : Literals numberText) : (lefts rights : List Json) →
    SameElementShapes numberText lefts rights → ElementsPlainKeys lefts →
    ElementsPlainKeys rights → ∀ {rest rest' : List UInt8},
      elementsBytes numberText lefts ++ rest = elementsBytes numberText rights ++ rest' →
      lefts = rights ∧ rest = rest'
  | [], rights, shape, _, _ => by
      intro same
      cases rights with
      | nil => exact ⟨rfl, same⟩
      | cons right rights => exact shape.elim
  | left :: lefts, rights, shape, plain, plain' => by
      intro same
      cases rights with
      | nil => exact shape.elim
      | cons right rights =>
          rw [elementsBytes, elementsBytes, List.append_assoc, List.append_assoc] at same
          obtain ⟨rfl, others⟩ :=
            orderedBytes_append literals left right shape.1 plain.1 plain'.1 same
          obtain ⟨rfl, rests⟩ :=
            elementsBytes_append literals lefts rights shape.2 plain.2 plain'.2 others
          exact ⟨rfl, rests⟩

theorem fieldsBytes_append (literals : Literals numberText) :
    (lefts rights : List (String × Json)) →
    SameFieldShapes numberText lefts rights → FieldsPlainKeys lefts → FieldsPlainKeys rights →
    ∀ {rest rest' : List UInt8},
      fieldsBytes numberText lefts ++ rest = fieldsBytes numberText rights ++ rest' →
      lefts = rights ∧ rest = rest'
  | [], rights, shape, _, _ => by
      intro same
      cases rights with
      | nil => exact ⟨rfl, same⟩
      | cons right rights => exact shape.elim
  | (key, left) :: lefts, rights, shape, plain, plain' => by
      intro same
      cases rights with
      | nil => exact shape.elim
      | cons right rights =>
          obtain ⟨key', right⟩ := right
          simp only [fieldsBytes, List.append_assoc] at same
          obtain ⟨keys, values⟩ := stringBytes_append same
          rw [cString_eq plain.1, cString_eq plain'.1] at keys
          obtain ⟨rfl, others⟩ :=
            orderedBytes_append literals left right shape.1 plain.2.1 plain'.2.1 values
          obtain ⟨rfl, rests⟩ :=
            fieldsBytes_append literals lefts rights shape.2 plain.2.2 plain'.2.2 others
          rw [keys]
          exact ⟨rfl, rests⟩
end

/-! ## Ordering keys -/

theorem fieldsPlainKeys_iff {fields : List (String × Json)} : FieldsPlainKeys fields ↔
    ∀ field ∈ fields, noNul field.1 = true ∧ PlainKeys field.2 := by
  induction fields with
  | nil => simp [FieldsPlainKeys]
  | cons field fields ih =>
      obtain ⟨key, value⟩ := field
      simp [FieldsPlainKeys, ih, and_assoc]

mutual
theorem sortKeys_plainKeys : (value : Json) → PlainKeys value → PlainKeys (sortKeys value)
  | .null, _ => trivial
  | .bool _, _ => trivial
  | .number _ _, _ => trivial
  | .string _, _ => trivial
  | .array elements, plain => sortElements_plainKeys elements plain
  | .object fields, plain => by
      have sorted := fieldsPlainKeys_iff.mp (sortFields_plainKeys fields plain)
      apply fieldsPlainKeys_iff.mpr
      intro field member
      exact sorted field ((List.mem_insertionSort _).mp member)

theorem sortElements_plainKeys : (elements : List Json) → ElementsPlainKeys elements →
    ElementsPlainKeys (sortElements elements)
  | [], _ => trivial
  | element :: elements, plain =>
      ⟨sortKeys_plainKeys element plain.1, sortElements_plainKeys elements plain.2⟩

theorem sortFields_plainKeys : (fields : List (String × Json)) → FieldsPlainKeys fields →
    FieldsPlainKeys (sortFields fields)
  | [], _ => trivial
  | (_, value) :: fields, plain =>
      ⟨plain.1, sortKeys_plainKeys value plain.2.1, sortFields_plainKeys fields plain.2.2⟩
end

/-! ## The walk -/

/-- A walk feeds the given bytes, or the first of them when the hash becomes zero. -/
def Feeds (before after : Accumulator) (data : List UInt8) : Prop :=
  ∃ fed rest, after.fed = before.fed ++ fed ∧ fed ++ rest = data ∧ (after.hash ≠ 0 → rest = [])

@[simp] theorem cstring_fed (accumulator : Accumulator) (text : String) :
    (accumulator.cstring text).fed = accumulator.fed ++ stringBytes text := rfl

@[simp] theorem u32_fed (accumulator : Accumulator) (value : UInt32) :
    (accumulator.u32 value).fed = accumulator.fed ++ little 4 value.toNat := rfl

@[simp] theorem u64_fed (accumulator : Accumulator) (value : UInt64) :
    (accumulator.u64 value).fed = accumulator.fed ++ little 8 value.toNat := rfl

namespace Feeds

theorem all {before after : Accumulator} {data : List UInt8}
    (fed : after.fed = before.fed ++ data) : Feeds before after data :=
  ⟨data, [], fed, List.append_nil data, fun _ => rfl⟩

theorem nonzero {before after : Accumulator} {data : List UInt8} (feeds : Feeds before after data)
    (live : after.hash ≠ 0) : after.fed = before.fed ++ data := by
  obtain ⟨fed, rest, result, whole, ended⟩ := feeds
  rw [ended live, List.append_nil] at whole
  rw [result, whole]

theorem after {before next after : Accumulator} {first second : List UInt8}
    (fed : next.fed = before.fed ++ first) (feeds : Feeds next after second) :
    Feeds before after (first ++ second) := by
  obtain ⟨more, rest, result, whole, ended⟩ := feeds
  refine ⟨first ++ more, rest, ?_, ?_, ended⟩
  · rw [result, fed, List.append_assoc]
  · rw [List.append_assoc, whole]

theorem stop {before after : Accumulator} {first second : List UInt8}
    (feeds : Feeds before after first) (zero : after.hash = 0) :
    Feeds before after (first ++ second) := by
  obtain ⟨fed, rest, result, whole, -⟩ := feeds
  refine ⟨fed, rest ++ second, result, ?_, fun live => absurd zero live⟩
  rw [← List.append_assoc, whole]

end Feeds

mutual
theorem hashOrdered_feeds (accumulator : Accumulator) : (value : Json) →
    Feeds accumulator (hashOrdered numberText accumulator value) (orderedBytes numberText value)
  | .null => .all rfl
  | .bool _ => .all (List.append_assoc _ _ _)
  | .number _ _ => .all (List.append_assoc _ _ _)
  | .string _ => .all (List.append_assoc _ _ _)
  | .array elements => .after rfl (hashElements_feeds _ elements)
  | .object fields => .after rfl (hashFields_feeds _ fields)

theorem hashElements_feeds (accumulator : Accumulator) : (elements : List Json) →
    Feeds accumulator (hashElements numberText accumulator elements)
      (elementsBytes numberText elements)
  | [] => .all (List.append_nil _).symm
  | element :: elements => by
      have first := hashOrdered_feeds accumulator element
      simp only [hashElements, elementsBytes]
      split
      next zero => exact first.stop zero
      next live => exact .after (first.nonzero live) (hashElements_feeds _ elements)

theorem hashFields_feeds (accumulator : Accumulator) : (fields : List (String × Json)) →
    Feeds accumulator (hashFields numberText accumulator fields) (fieldsBytes numberText fields)
  | [] => .all (List.append_nil _).symm
  | (key, value) :: fields => by
      have first := hashOrdered_feeds (accumulator.cstring key) value
      simp only [hashFields, fieldsBytes]
      split
      next zero => exact .after rfl (first.stop zero)
      next live => exact .after rfl (.after (first.nonzero live) (hashFields_feeds _ fields))
end

def jsonBytes (numberText : Int → Nat → List UInt8) (value : Json) : List UInt8 :=
  orderedBytes numberText (sortKeys value)

theorem hashJson_feeds (accumulator : Accumulator) (value : Json) :
    Feeds accumulator (hashJson numberText accumulator value) (jsonBytes numberText value) :=
  hashOrdered_feeds accumulator (sortKeys value)

theorem hashMetadata_fed (literals : Literals numberText) (accumulator : Accumulator)
    (metadata : Option Document) :
    ∃ fed, 0 ∉ fed ∧ (hashMetadata numberText accumulator metadata).fed =
      accumulator.fed ++ (stringBytes "execution_metadata" ++ fed) := by
  cases metadata with
  | none =>
      refine ⟨stringBytes "none", stringBytes_noZero _, ?_⟩
      simp [hashMetadata]
  | some document =>
      obtain ⟨fed, rest, result, whole, -⟩ :=
        hashJson_feeds (accumulator.cstring "execution_metadata") document.value
      refine ⟨fed, ?_, ?_⟩
      · have clean := orderedBytes_noZero literals (sortKeys document.value)
        rw [← jsonBytes, ← whole, List.mem_append, not_or] at clean
        exact clean.1
      · rw [hashMetadata, result, cstring_fed, List.append_assoc]

end

end TurboAgent.AgentCompiler
