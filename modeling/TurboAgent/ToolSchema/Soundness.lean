import TurboAgent.ToolSchema.Correctness

/-!
# What the validator accepts

Whatever the schema, an accepted value satisfies it when strings are read as C reads them.  The
schema may have keywords with unknown types, repeated keys or constants that are nested too deep:
then the validator accepts less, and nothing wrong.
-/

namespace TurboAgent.ToolSchema

variable {double : Int → Nat → Double}

/-- As many fields as there are distinct keys to be found have distinct keys themselves. -/
theorem nodup_of_found {lefts rights : List (String × Json)}
    (distinct : (lefts.map Prod.fst).Nodup) (lengths : lefts.length = rights.length)
    (found : ∀ field ∈ lefts, (Json.findField rights field.1).isSome = true) :
    (rights.map Prod.fst).Nodup := by
  have within : lefts.map Prod.fst ⊆ rights.map Prod.fst := by
    intro key member
    obtain ⟨field, here, rfl⟩ := List.mem_map.mp member
    obtain ⟨value, stored⟩ := Option.isSome_iff_exists.mp (found field here)
    exact List.mem_map.mpr ⟨(field.1, value), mem_of_findField stored, rfl⟩
  have same : (lefts.map Prod.fst).Perm (rights.map Prod.fst) :=
    (List.subperm_of_subset distinct within).perm_of_length_le (by simp [lengths])
  exact same.nodup_iff.mp distinct

theorem jsonEqual_sound {levels : Nat} {left right : Json} (keyed : Keyed left)
    (equal : jsonEqual double levels left right = true) : Same (.c double) left right := by
  induction levels generalizing left right with
  | zero => cases equal
  | succ levels ih =>
      cases left with
      | null => cases right <;> simp_all [jsonEqual, Same]
      | bool value => cases right <;> simp_all [jsonEqual, Same]
      | number mantissa exponent => cases right <;> simp_all [jsonEqual, Same, Reading.c]
      | string text => cases right <;> simp_all [jsonEqual, Same, Reading.c]
      | array lefts =>
          cases right with
          | array rights =>
              simp only [jsonEqual, Bool.and_eq_true, beq_iff_eq, List.all_eq_true] at equal
              rw [Same, sameElements_iff, List.forall₂_iff_zip]
              refine ⟨equal.1, ?_⟩
              intro left right member
              have inLeft := (List.of_mem_zip member).1
              exact ih (keyed_element keyed inLeft) (equal.2 (left, right) member)
          | _ => cases equal
      | object lefts =>
          cases right with
          | object rights =>
              simp only [jsonEqual, Bool.and_eq_true, beq_iff_eq, List.all_eq_true] at equal
              have pairs : ∀ field ∈ lefts, ∃ right,
                  Json.findField rights field.1 = some right ∧ Same (.c double) field.2 right := by
                intro field member
                have each := equal.2 field member
                split at each
                next right found => exact ⟨right, found, ih (keyed_field keyed.2 member) each⟩
                next => cases each
              have distinct : (rights.map Prod.fst).Nodup := by
                apply nodup_of_found keyed.1 equal.1
                intro field member
                obtain ⟨right, found, -⟩ := pairs field member
                rw [found]
                rfl
              rw [Same, sameFields_iff keyed.1 distinct]
              exact ⟨equal.1, pairs⟩
          | _ => cases equal

variable {value : Json}

theorem typeMatches_sound {name : String} (matched : typeMatches double value name = some true) :
    HasType (.c double) value name := by
  have known : name ∈ typeNames := by
    by_contra unknown
    simp only [typeNames, List.mem_cons, List.not_mem_nil, or_false, not_or] at unknown
    obtain ⟨object, array, string, number, integer, boolean, null⟩ := unknown
    simp [typeMatches, object, array, string, number, integer, boolean, null] at matched
  obtain ⟨answer, given, holds⟩ := typeMatches_known double value known
  rw [given, Option.some.injEq] at matched
  exact holds.mp matched

theorem anyType_sound {entries : List Json} (matched : anyType double value entries = .ok true) :
    ∃ name, .string name ∈ entries ∧ HasType (.c double) value (cString name) := by
  induction entries with
  | nil => cases matched
  | cons entry entries ih =>
      cases entry with
      | string name =>
          rw [anyType] at matched
          split at matched
          next => cases matched
          next here => exact ⟨name, List.mem_cons_self, typeMatches_sound here⟩
          next =>
            obtain ⟨other, member, has⟩ := ih matched
            exact ⟨other, List.mem_cons_of_mem _ member, has⟩
      | _ => cases matched

theorem typeAdmitted_sound {declared : Json} (accepted : TypeAdmitted double value declared) :
    TypeHolds (.c double) value declared := by
  cases declared with
  | string name => exact typeMatches_sound accepted
  | array entries => exact anyType_sound accepted
  | _ => exact accepted

theorem Passes.meets {schema : Json} (passes : Passes double value schema) (keyed : Keyed value) :
    Meets (.c double) (TypeHolds (.c double)) (Same (.c double)) value schema := by
  apply passes.2.mono
  · exact fun _ _ => typeAdmitted_sound
  · exact fun _ _ _ _ => jsonEqual_sound keyed
  · exact fun _ _ => jsonEqual_sound keyed
  · exact id

theorem Reach.keyed {steps : Nat} {node last : Json × Json} (reach : Reach steps node last)
    (keyed : Keyed node.1) : Keyed last.1 := by
  induction reach with
  | here => exact keyed
  | down child _ ih => exact ih (child.keyed keyed)

theorem validateNode_sound {levels : Nat} {schema : Json} (keyed : Keyed value)
    (accepted : validateNode double levels value schema = .ok ()) :
    Satisfies (.c double) value schema := by
  intro steps value' schema' reach
  exact (validateNode_eq_ok.mp accepted steps value' schema' reach).2.meets (reach.keyed keyed)

theorem validateArguments_sound {definition : Definition} {arguments : Json}
    (keyed : Keyed arguments) (accepted : validateArguments double definition arguments = .ok ()) :
    ∃ schema, parseParameters definition = some schema ∧
      Satisfies (.c double) arguments schema := by
  unfold validateArguments at accepted
  split at accepted
  next => cases accepted
  split at accepted
  next => cases accepted
  next schema parsed => exact ⟨schema, parsed, validateNode_sound keyed accepted⟩

end TurboAgent.ToolSchema
