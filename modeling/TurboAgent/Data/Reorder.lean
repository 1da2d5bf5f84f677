import TurboAgent.Data.Fields

/-!
# Reordered objects

JSON values that differ in the order of the keys of their objects, at any depth: the keys of one
object are permuted, within an element or a field, and so on.  What the two have in common at the
root is read off once, so that what looks at a value from the root goes down both at the same time.
-/

namespace TurboAgent.Json

inductive Reordered : Json → Json → Prop where
  | refl (value : Json) : Reordered value value
  | permute {fields fields' : List (String × Json)} :
      fields.Perm fields' → Reordered (.object fields) (.object fields')
  | element (before after : List Json) {value value' : Json} : Reordered value value' →
      Reordered (.array (before ++ value :: after)) (.array (before ++ value' :: after))
  | field (before after : List (String × Json)) (key : String) {value value' : Json} :
      Reordered value value' →
      Reordered (.object (before ++ (key, value) :: after))
        (.object (before ++ (key, value') :: after))
  | trans {first second third : Json} :
      Reordered first second → Reordered second third → Reordered first third

variable {value value' : Json}

theorem Reordered.symm (same : Reordered value value') : Reordered value' value := by
  induction same with
  | refl value => exact .refl value
  | permute permuted => exact .permute permuted.symm
  | element before after _ ih => exact .element before after ih
  | field before after key _ ih => exact .field before after key ih
  | trans _ _ first second => exact .trans second first

def FieldsReordered (fields fields' : List (String × Json)) : Prop :=
  ∀ key value, (key, value) ∈ fields → ∃ value', (key, value') ∈ fields' ∧ Reordered value value'

/-- What values that are reordered have in common at the root. -/
inductive Alike : Json → Json → Prop where
  | null : Alike .null .null
  | bool (value : Bool) : Alike (.bool value) (.bool value)
  | number (mantissa : Int) (exponent : Nat) :
      Alike (.number mantissa exponent) (.number mantissa exponent)
  | string (text : String) : Alike (.string text) (.string text)
  | array {elements elements' : List Json} : List.Forall₂ Reordered elements elements' →
      Alike (.array elements) (.array elements')
  | object {fields fields' : List (String × Json)} :
      (fields.map Prod.fst).Perm (fields'.map Prod.fst) → FieldsReordered fields fields' →
      FieldsReordered fields' fields → Alike (.object fields) (.object fields')

theorem forall₂_reordered_refl (elements : List Json) :
    List.Forall₂ Reordered elements elements :=
  List.forall₂_same.mpr fun element _ => .refl element

theorem forall₂_reordered_trans {first second third : List Json}
    (left : List.Forall₂ Reordered first second) (right : List.Forall₂ Reordered second third) :
    List.Forall₂ Reordered first third := by
  induction left generalizing third with
  | nil => exact right
  | cons same _ ih =>
      cases right with
      | cons same' rest => exact .cons (.trans same same') (ih rest)

theorem FieldsReordered.refl (fields : List (String × Json)) : FieldsReordered fields fields :=
  fun _ value member => ⟨value, member, .refl value⟩

theorem FieldsReordered.of_perm {fields fields' : List (String × Json)}
    (permuted : fields.Perm fields') : FieldsReordered fields fields' :=
  fun _ value member => ⟨value, permuted.mem_iff.mp member, .refl value⟩

theorem FieldsReordered.trans {first second third : List (String × Json)}
    (left : FieldsReordered first second) (right : FieldsReordered second third) :
    FieldsReordered first third := by
  intro key value member
  obtain ⟨value', member', same⟩ := left key value member
  obtain ⟨value'', member'', same'⟩ := right key value' member'
  exact ⟨value'', member'', .trans same same'⟩

theorem FieldsReordered.of_field (before after : List (String × Json)) (key : String)
    (same : Reordered value value') :
    FieldsReordered (before ++ (key, value) :: after) (before ++ (key, value') :: after) := by
  intro name other member
  rcases List.mem_append.mp member with earlier | here
  · exact ⟨other, List.mem_append_left _ earlier, .refl other⟩
  rcases List.mem_cons.mp here with found | later
  · cases found
    exact ⟨value', by simp, same⟩
  · exact ⟨other, List.mem_append_right _ (List.mem_cons_of_mem _ later), .refl other⟩

theorem Alike.refl (value : Json) : Alike value value := by
  cases value with
  | null => exact .null
  | bool value => exact .bool value
  | number mantissa exponent => exact .number mantissa exponent
  | string text => exact .string text
  | array elements => exact .array (forall₂_reordered_refl elements)
  | object fields => exact .object (.refl _) (.refl fields) (.refl fields)

theorem Alike.trans {first second third : Json} (left : Alike first second)
    (right : Alike second third) : Alike first third := by
  cases left with
  | array same =>
      cases right with
      | array same' =>
          exact .array (forall₂_reordered_trans same same')
  | object keys forth back =>
      cases right with
      | object keys' forth' back' =>
          exact .object (keys.trans keys') (forth.trans forth') (back'.trans back)
  | _ => exact right

theorem Reordered.alike (same : Reordered value value') : Alike value value' := by
  induction same with
  | refl value => exact .refl value
  | permute permuted =>
      exact .object (permuted.map _) (.of_perm permuted) (.of_perm permuted.symm)
  | element before after same _ =>
      exact .array (List.rel_append (forall₂_reordered_refl before)
        (.cons same (forall₂_reordered_refl after)))
  | field before after key same _ =>
      refine .object ?_ (.of_field before after key same) (.of_field before after key same.symm)
      simp
  | trans _ _ left right => exact left.trans right

end TurboAgent.Json
