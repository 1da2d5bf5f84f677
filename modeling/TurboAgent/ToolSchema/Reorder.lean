import TurboAgent.Data.Reorder
import TurboAgent.ToolSchema.Correctness

/-!
# The validator and the order of keys

The validator finds the fields of a value by their keys, or looks at all of them: it accepts a value
when it accepts the value with the keys of its objects in another order.
-/

namespace TurboAgent.ToolSchema

open Json (Alike FieldsReordered Reordered)

/-! ## Keys -/

variable {fields : List (String × Json)}

theorem fieldsKeyed_iff :
    FieldsKeyed fields ↔ ∀ key value, (key, value) ∈ fields → Keyed value := by
  refine ⟨fun keyed key value member => keyed_field keyed member, ?_⟩
  intro each
  induction fields with
  | nil => trivial
  | cons field fields ih =>
      obtain ⟨key, value⟩ := field
      refine ⟨each key value List.mem_cons_self, ih ?_⟩
      intro other value' member
      exact each other value' (List.mem_cons_of_mem _ member)

theorem elementsKeyed_iff {elements : List Json} :
    ElementsKeyed elements ↔ ∀ element ∈ elements, Keyed element := by
  refine ⟨fun keyed element member => keyed_element keyed member, ?_⟩
  intro each
  induction elements with
  | nil => trivial
  | cons element elements ih =>
      refine ⟨each element List.mem_cons_self, ih ?_⟩
      intro other member
      exact each other (List.mem_cons_of_mem _ member)

theorem keyed_reordered {value value' : Json} (same : Reordered value value')
    (keyed : Keyed value) : Keyed value' := by
  induction same with
  | refl value => exact keyed
  | permute permuted =>
      refine ⟨(permuted.map _).nodup_iff.mp keyed.1, fieldsKeyed_iff.mpr ?_⟩
      intro key value member
      exact fieldsKeyed_iff.mp keyed.2 key value (permuted.mem_iff.mpr member)
  | element before after _ ih =>
      have each := elementsKeyed_iff.mp keyed
      refine elementsKeyed_iff.mpr fun element member => ?_
      rcases List.mem_append.mp member with earlier | here
      · exact each element (List.mem_append_left _ earlier)
      rcases List.mem_cons.mp here with rfl | later
      · exact ih (each _ (by simp))
      · exact each element (List.mem_append_right _ (List.mem_cons_of_mem _ later))
  | field before after key _ ih =>
      have each := fieldsKeyed_iff.mp keyed.2
      refine ⟨by simpa using keyed.1, fieldsKeyed_iff.mpr fun other value member => ?_⟩
      rcases List.mem_append.mp member with earlier | here
      · exact each other value (List.mem_append_left _ earlier)
      rcases List.mem_cons.mp here with found | later
      · cases found
        exact ih (each key _ (by simp))
      · exact each other value (List.mem_append_right _ (List.mem_cons_of_mem _ later))
  | trans _ _ first second => exact second (first keyed)

theorem findField_eq_some_iff (distinct : (fields.map Prod.fst).Nodup) {key : String} {value : Json} :
    Json.findField fields key = some value ↔ (key, value) ∈ fields := by
  refine ⟨mem_of_findField, fun member => ?_⟩
  obtain ⟨before, after, rfl⟩ := List.append_of_mem member
  exact findField_middle distinct

variable {fields' : List (String × Json)}

theorem findField_isSome_perm (keys : (fields.map Prod.fst).Perm (fields'.map Prod.fst))
    (key : String) : (Json.findField fields key).isSome = (Json.findField fields' key).isSome := by
  rw [Bool.eq_iff_iff, Option.isSome_iff_exists, Option.isSome_iff_exists, Json.exists_findField,
    Json.exists_findField]
  exact keys.mem_iff

section

variable {double : Int → Nat → Double} {value value' schema : Json}

/-! ## What a node asks -/

theorem jsonEqual_reordered {levels : Nat} {other : Json} (same : Reordered value value')
    (equal : jsonEqual double levels value other = true) :
    jsonEqual double levels value' other = true := by
  induction levels generalizing value value' other with
  | zero => cases equal
  | succ levels ih =>
      cases same.alike with
      | null | bool | number | string => exact equal
      | @array elements elements' each =>
          cases other with
          | array others =>
              simp only [jsonEqual, Bool.and_eq_true, beq_iff_eq, List.all_eq_true] at equal ⊢
              refine ⟨each.length_eq.symm.trans equal.1, ?_⟩
              rw [List.forall₂_iff_get] at each
              intro pair member
              obtain ⟨index, bound, rfl⟩ := List.getElem_of_mem member
              rw [List.length_zip] at bound
              have here : index < elements'.length := by omega
              have there : index < elements.length := by
                have lengths := each.1
                omega
              have fits : index < (elements.zip others).length := by
                rw [List.length_zip]
                omega
              rw [List.getElem_zip]
              have first := equal.2 _ (List.getElem_mem fits)
              rw [List.getElem_zip] at first
              exact ih (each.2 index there here) first
          | _ => cases equal
      | @object fields fields' keys forth back =>
          cases other with
          | object others =>
              simp only [jsonEqual, Bool.and_eq_true, beq_iff_eq, List.all_eq_true] at equal ⊢
              have lengths := keys.length_eq
              rw [List.length_map, List.length_map] at lengths
              refine ⟨lengths.symm.trans equal.1, ?_⟩
              rintro ⟨key, value⟩ member
              obtain ⟨old, there, same⟩ := back key value member
              have first := equal.2 (key, old) there
              dsimp only at first ⊢
              cases found : Json.findField others key with
              | none =>
                  rw [found] at first
                  cases first
              | some other =>
                  rw [found] at first
                  exact ih same.symm first
          | _ => cases equal

theorem typeMatches_alike (alike : Alike value value') (name : String) :
    typeMatches double value name = typeMatches double value' name := by
  cases alike <;> rfl

theorem anyType_alike (alike : Alike value value') (entries : List Json) :
    anyType double value entries = anyType double value' entries := by
  induction entries with
  | nil => rfl
  | cons entry entries ih =>
      cases entry with
      | string name => rw [anyType, anyType, typeMatches_alike alike, ih]
      | _ => rfl

theorem typeAdmitted_alike (alike : Alike value value') {declared : Json}
    (admitted : TypeAdmitted double value declared) : TypeAdmitted double value' declared := by
  cases declared with
  | string name => exact (typeMatches_alike alike (cString name)).symm.trans admitted
  | array entries => exact (anyType_alike alike entries).symm.trans admitted
  | _ => exact admitted

theorem requiredHolds_perm {reading : Reading}
    (keys : (fields.map Prod.fst).Perm (fields'.map Prod.fst)) {required : Json}
    (holds : RequiredHolds reading fields required) : RequiredHolds reading fields' required := by
  cases required with
  | array entries =>
      intro entry member
      obtain ⟨name, rfl, found⟩ := holds entry member
      exact ⟨name, rfl, (findField_isSome_perm keys _).symm.trans found⟩
  | _ => exact holds

theorem additionalHolds_perm (keys : (fields.map Prod.fst).Perm (fields'.map Prod.fst))
    {additional : Json} (holds : AdditionalHolds fields schema additional) :
    AdditionalHolds fields' schema additional := by
  cases additional with
  | bool allowed =>
      intro closed field member
      have listed : field.1 ∈ fields.map Prod.fst :=
        keys.mem_iff.mpr (List.mem_map_of_mem member)
      obtain ⟨other, there, same⟩ := List.mem_map.mp listed
      rw [← same]
      exact holds closed other there
  | _ => exact holds

theorem contentsHold_alike {reading : Reading} (alike : Alike value value')
    (holds : ContentsHold reading schema value) : ContentsHold reading schema value' := by
  cases alike with
  | null | bool | number | string => exact holds
  | array each =>
      rw [ContentsHold, ← each.length_eq]
      exact holds
  | @object fields fields' keys forth back =>
      have lengths := keys.length_eq
      rw [List.length_map, List.length_map] at lengths
      obtain ⟨sizes, required, properties, additional⟩ := holds
      refine ⟨lengths ▸ sizes, ?_, properties, ?_⟩
      · intro entry stored
        exact requiredHolds_perm keys (required entry stored)
      · intro entry stored
        exact additionalHolds_perm keys (additional entry stored)

theorem passes_reordered (same : Reordered value value') (passes : Passes double value schema) :
    Passes double value' schema := by
  obtain ⟨keywords, type, enumeration, constant, contents⟩ := passes
  refine ⟨keywords, ?_, ?_, ?_, contentsHold_alike same.alike contents⟩
  · intro declared stored
    exact typeAdmitted_alike same.alike (type declared stored)
  · intro values stored
    obtain ⟨entries, rfl, entry, member, equal⟩ := enumeration values stored
    exact ⟨entries, rfl, entry, member, jsonEqual_reordered same equal⟩
  · intro other stored
    exact jsonEqual_reordered same (constant other stored)

/-! ## The walk -/

theorem Child.reordered {child schema' : Json} (down : Child (value', schema) (child, schema'))
    (same : Reordered value value') (keyed : Keyed value) :
    ∃ child', Child (value, schema) (child', schema') ∧ Reordered child' child := by
  cases same.alike with
  | null | bool | number | string => cases down
  | @array elements elements' each =>
      cases down with
      | item stored member =>
          rw [List.forall₂_iff_get] at each
          obtain ⟨index, here, rfl⟩ := List.getElem_of_mem member
          have there : index < elements.length := by
            have lengths := each.1
            omega
          exact ⟨_, .item stored (List.getElem_mem there), each.2 index there here⟩
  | @object fields fields' keys forth back =>
      cases down with
      | property stored listed found =>
          obtain ⟨old, there, same⟩ := back _ _ (mem_of_findField found)
          exact ⟨old, .property stored listed ((findField_eq_some_iff keyed.1).mpr there), same.symm⟩
      | additional stored member unlisted =>
          obtain ⟨old, there, same⟩ := back _ _ member
          exact ⟨old, .additional stored there unlisted, same.symm⟩

theorem Reach.reordered {steps : Nat} {last schema' : Json}
    (reach : Reach steps (value', schema) (last, schema')) (same : Reordered value value')
    (keyed : Keyed value) :
    ∃ last', Reach steps (value, schema) (last', schema') ∧ Reordered last' last := by
  induction steps generalizing value value' schema with
  | zero =>
      cases reach
      exact ⟨value, .here, same⟩
  | succ steps ih =>
      cases reach with
      | @down _ _ child _ first rest =>
          obtain ⟨child', first', same'⟩ := first.reordered same keyed
          obtain ⟨last', rest', alike⟩ := ih rest same' (first'.keyed keyed)
          exact ⟨last', .down first' rest', alike⟩

theorem validateNode_reordered {levels : Nat} (same : Reordered value value')
    (keyed : Keyed value) (valid : validateNode double levels value schema = .ok ()) :
    validateNode double levels value' schema = .ok () := by
  rw [validateNode_eq_ok] at valid ⊢
  intro steps last schema' reach
  obtain ⟨last', reach', alike⟩ := reach.reordered same keyed
  obtain ⟨near, passes⟩ := valid steps last' schema' reach'
  exact ⟨near, passes_reordered alike passes⟩

theorem validateArguments_reordered {definition : Definition} (same : Reordered value value')
    (keyed : Keyed value) :
    validateArguments double definition value = .ok () ↔
      validateArguments double definition value' = .ok () := by
  unfold validateArguments
  split
  next => rfl
  split
  next => rfl
  next => exact ⟨validateNode_reordered same keyed,
    validateNode_reordered same.symm (keyed_reordered same keyed)⟩

end

end TurboAgent.ToolSchema
