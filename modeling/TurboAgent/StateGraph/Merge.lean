import TurboAgent.Data.Paths
import TurboAgent.StateGraph.Updates

/-!
# Merged objects

A merged object is the union of an update and a current object in which the update wins.  It is
described key by key and path by path: what an update sets stays set when it is merged again,
and the order of its keys makes no difference to what is read.
-/

namespace TurboAgent.StateGraph

open Json (ReadsAlike)

def mergeChild (child : Json) (current : Option Json) : Json :=
  match child, current with
  | .object inner, some (.object known) => .object (mergeFields inner known)
  | child, _ => child

/-- Somewhere on the way along a path the update has a value that replaces what is there. -/
def Overrides (current update : Json) (path : List Json.Step) : Prop :=
  ∃ front back value, path = front ++ back ∧ update.atPath front = some value ∧
    ¬(value.isObject = true ∧ ∃ other, current.atPath front = some other ∧ other.isObject = true)

/-- What stands at a path of a merged object: the value of the update where the update overrides
what was there, the merged object where both have an object, and the current value elsewhere. -/
structure UnionAt (current update merged : Json) (path : List Json.Step) : Prop where
  overridden : Overrides current update path → merged.atPath path = update.atPath path
  joined : ¬Overrides current update path → ∀ inner known,
    update.atPath path = some (.object inner) → current.atPath path = some (.object known) →
      merged.atPath path = some (.object (mergeFields inner known))
  kept : ¬Overrides current update path →
    (¬∃ inner known, update.atPath path = some (.object inner) ∧
      current.atPath path = some (.object known)) →
    merged.atPath path = current.atPath path

section

variable {update known result : List (String × Json)} {keys : List String}

theorem mergeKeys_cons {key : String} {child : Json}
    (found : Json.findField update key = some child) :
    mergeKeys update (key :: keys) result = mergeKeys update keys
      (Json.putField result key (mergeChild child (Json.findField result key))) := by
  rw [mergeKeys]
  split
  next missing =>
    rw [found] at missing
    cases missing
  next inner known same stored =>
    rw [found, Option.some.injEq] at same
    subst same
    rw [stored]
    rfl
  next other same apart =>
    rw [found, Option.some.injEq] at same
    subst same
    congr 2
    unfold mergeChild
    split
    next inner known stored => exact (apart inner known stored rfl).elim
    next => rfl

theorem mergeChild_of_not_object {child : Json} {current : Option Json}
    (apart : ¬(child.isObject = true ∧ ∃ other, current = some other ∧ other.isObject = true)) :
    mergeChild child current = child := by
  unfold mergeChild
  split
  next inner known => exact absurd ⟨rfl, _, rfl, rfl⟩ apart
  next => rfl

/-- Merging changes nothing where each child is already what it would become. -/
theorem mergeKeys_settled
    (settled : ∀ key ∈ keys, ∃ child value, Json.findField update key = some child ∧
      Json.findField result key = some value ∧ mergeChild child (some value) = value) :
    mergeKeys update keys result = result := by
  induction keys with
  | nil => rw [mergeKeys]
  | cons key keys ih =>
      rw [List.forall_mem_cons] at settled
      obtain ⟨⟨child, value, found, stored, same⟩, others⟩ := settled
      rw [mergeKeys_cons found, stored, same, Json.putField_same stored]
      exact ih others

def Repeats (child : Json) : Prop :=
  ∀ current, mergeChild child (some (mergeChild child current)) = mergeChild child current

/-- What the loop leaves at a key, when merging its children again changes nothing. -/
theorem findField_mergeKeys
    (repeats : ∀ key child, Json.findField update key = some child → Repeats child)
    (listed : ∀ key ∈ keys, key ∈ update.map Prod.fst) (key : String) :
    Json.findField (mergeKeys update keys result) key =
      if key ∈ keys then
        (Json.findField update key).map fun child => mergeChild child (Json.findField result key)
      else Json.findField result key := by
  induction keys generalizing result with
  | nil =>
      rw [mergeKeys]
      rfl
  | cons first keys ih =>
      rw [List.forall_mem_cons] at listed
      obtain ⟨child, found⟩ := Json.exists_findField.mpr listed.1
      rw [mergeKeys_cons found, ih listed.2]
      by_cases same : first = key
      · subst same
        rw [Json.findField_putField_same, found, Option.map_some, Option.map_some,
          repeats first child found, ite_self, if_pos List.mem_cons_self]
      · rw [Json.findField_putField_other _ _ same]
        simp [Ne.symm same]

theorem repeats_of_children {inner : List (String × Json)}
    (repeats : ∀ key child, Json.findField inner key = some child → Repeats child)
    (self : mergeFields inner inner = inner) : Repeats (.object inner) := by
  intro current
  unfold Repeats at repeats
  by_cases object : ∃ known, current = some (.object known)
  · obtain ⟨known, rfl⟩ := object
    simp only [mergeChild, Json.object.injEq]
    apply mergeKeys_settled
    intro key listed
    obtain ⟨child, found⟩ := Json.exists_findField.mpr listed
    refine ⟨child, mergeChild child (Json.findField known key), found, ?_, repeats key child found _⟩
    rw [mergeFields, findField_mergeKeys repeats (fun _ => id), if_pos listed, found,
      Option.map_some]
  · have first : mergeChild (.object inner) current = .object inner := by
      apply mergeChild_of_not_object
      rintro ⟨-, other, rfl, isObject⟩
      cases other with
      | object known => exact object ⟨known, rfl⟩
      | _ => cases isObject
    rw [first, mergeChild, self]

/-- Merging a child again changes nothing, and neither does merging an object with itself. -/
theorem repeats_and_self (size : Nat) : ∀ child : Json, sizeOf child < size →
    Repeats child ∧ ∀ inner, child = .object inner → mergeFields inner inner = inner := by
  induction size with
  | zero => exact fun child small => absurd small (Nat.not_lt_zero _)
  | succ size ih =>
      intro child small
      cases child with
      | object inner =>
          have smaller : ∀ key other, Json.findField inner key = some other →
              sizeOf other < size := by
            intro key other found
            have less := Json.sizeOf_child found
            omega
          have self : mergeFields inner inner = inner := by
            apply mergeKeys_settled
            intro key listed
            obtain ⟨other, found⟩ := Json.exists_findField.mpr listed
            refine ⟨other, other, found, found, ?_⟩
            cases other with
            | object deeper =>
                rw [mergeChild, ((ih _ (smaller key _ found)).2 deeper rfl)]
            | _ => rfl
          refine ⟨repeats_of_children ?_ self, ?_⟩
          · exact fun key other found => (ih other (smaller key other found)).1
          · rintro other ⟨⟩
            exact self
      | _ =>
          refine ⟨fun current => rfl, ?_⟩
          rintro inner ⟨⟩

theorem repeats (child : Json) : Repeats child :=
  (repeats_and_self _ child (Nat.lt_succ_self _)).1

theorem findField_mergeFields (update known : List (String × Json)) (key : String) :
    Json.findField (mergeFields update known) key =
      match Json.findField update key with
      | some child => some (mergeChild child (Json.findField known key))
      | none => Json.findField known key := by
  rw [mergeFields, findField_mergeKeys (fun _ child _ => repeats child) (fun _ => id)]
  cases found : Json.findField update key with
  | none => rw [if_neg (Json.findField_eq_none.mp found)]
  | some child => rw [if_pos (Json.exists_findField.mp ⟨child, found⟩), Option.map_some]

theorem mergeFields_again (update known : List (String × Json)) :
    mergeFields update (mergeFields update known) = mergeFields update known := by
  have again := repeats (.object update) (some (.object known))
  simpa only [mergeChild, Json.object.injEq] using again

/-! ## Paths -/

theorem not_overrides_nil : ¬Overrides (.object known) (.object update) [] := by
  rintro ⟨front, back, value, split, here, apart⟩
  obtain ⟨rfl, rfl⟩ := List.append_eq_nil_iff.mp split.symm
  cases here
  exact apart ⟨rfl, _, rfl, rfl⟩

/-- Whether an update overrides what is at a path is decided at its first step, or after it. -/
theorem overrides_key {name : String} {path : List Json.Step} :
    Overrides (.object known) (.object update) (.key name :: path) ↔
      ∃ child, Json.findField update name = some child ∧
        ((¬(child.isObject = true ∧
            ∃ other, Json.findField known name = some other ∧ other.isObject = true)) ∨
          ∃ inner deeper, child = .object inner ∧
            Json.findField known name = some (.object deeper) ∧
            Overrides (.object deeper) (.object inner) path) := by
  constructor
  · rintro ⟨front, back, value, split, here, apart⟩
    cases front with
    | nil =>
        cases here
        exact absurd ⟨rfl, _, rfl, rfl⟩ apart
    | cons step front =>
        obtain ⟨rfl, rfl⟩ := List.cons.inj split
        rw [Json.atPath_key, Option.bind_eq_some_iff] at here
        obtain ⟨child, found, below⟩ := here
        refine ⟨child, found, ?_⟩
        by_cases both : child.isObject = true ∧
          ∃ other, Json.findField known name = some other ∧ other.isObject = true
        · right
          obtain ⟨isObject, other, stored, isObject'⟩ := both
          cases child with
          | object inner =>
              cases other with
              | object deeper =>
                  refine ⟨inner, deeper, rfl, stored, front, back, value, rfl, below, ?_⟩
                  rwa [Json.atPath_key, stored, Option.bind_some] at apart
              | _ => cases isObject'
          | _ => cases isObject
        · exact .inl both
  · rintro ⟨child, found, apart | ⟨inner, deeper, rfl, stored, front, back, value, rfl, below, apart⟩⟩
    · refine ⟨[.key name], path, child, rfl, ?_, ?_⟩
      · rw [Json.atPath_key, found]
        rfl
      · rw [Json.atPath_key]
        cases stored : Json.findField known name with
        | none => simp
        | some other =>
            rw [stored] at apart
            simpa [Json.atPath] using apart
    · refine ⟨.key name :: front, back, value, rfl, ?_, ?_⟩
      · rw [Json.atPath_key, found]
        exact below
      · rw [Json.atPath_key, stored]
        exact apart

theorem mergeFields_union (update known : List (String × Json)) (path : List Json.Step) :
    UnionAt (.object known) (.object update) (.object (mergeFields update known)) path := by
  induction path generalizing update known with
  | nil =>
      constructor
      · exact fun overrides => absurd overrides not_overrides_nil
      · rintro - inner deeper ⟨⟩ ⟨⟩
        rfl
      · exact fun _ apart => absurd ⟨_, _, rfl, rfl⟩ apart
  | cons step path ih =>
      cases step with
      | index position =>
          constructor
          · exact fun _ => rfl
          · rintro - inner deeper ⟨⟩
          · exact fun _ _ => rfl
      | key name =>
          have here := findField_mergeFields update known name
          cases found : Json.findField update name with
          | none =>
              rw [found] at here
              constructor
              · rw [overrides_key, found]
                rintro ⟨child, ⟨⟩, -⟩
              · intro _ inner deeper absent
                rw [Json.atPath_key, found] at absent
                cases absent
              · intro _ _
                rw [Json.atPath_key, Json.atPath_key, here]
          | some child =>
              simp only [found] at here
              by_cases both : child.isObject = true ∧
                ∃ other, Json.findField known name = some other ∧ other.isObject = true
              · obtain ⟨isObject, other, stored, isObject'⟩ := both
                cases child with
                | object inner =>
                    cases other with
                    | object deeper =>
                        rw [stored] at here
                        have below := ih inner deeper
                        have same : Overrides (.object known) (.object update)
                            (.key name :: path) ↔
                            Overrides (.object deeper) (.object inner) path := by
                          rw [overrides_key, found, stored]
                          simp [Json.isObject]
                        constructor
                        · rw [same, Json.atPath_key, Json.atPath_key, here, found]
                          exact below.overridden
                        · rw [same, Json.atPath_key, Json.atPath_key, Json.atPath_key, here, found,
                            stored]
                          exact below.joined
                        · rw [same, Json.atPath_key, Json.atPath_key, Json.atPath_key, here, found,
                            stored]
                          exact below.kept
                    | _ => cases isObject'
                | _ => cases isObject
              · rw [mergeChild_of_not_object both] at here
                have overrides : Overrides (.object known) (.object update) (.key name :: path) :=
                  overrides_key.mpr ⟨child, found, .inl both⟩
                constructor
                · intro _
                  rw [Json.atPath_key, Json.atPath_key, here, found]
                · exact fun none => absurd overrides none
                · exact fun none => absurd overrides none

/-! ## The order of keys -/

theorem mergeFields_alike (size : Nat) : ∀ update other known : List (String × Json),
    sizeOf update < size → ReadsAlike (.object update) (.object other) →
    ReadsAlike (.object (mergeFields update known)) (.object (mergeFields other known)) := by
  induction size with
  | zero => exact fun update other known small => absurd small (Nat.not_lt_zero _)
  | succ size ih =>
      intro update other known small alike
      apply Json.readsAlike_of_fields
      intro key
      rw [findField_mergeFields, findField_mergeFields]
      rcases alike.fields key with ⟨first, second⟩ | ⟨child, same, first, second, children⟩
      · rw [first, second]
        cases Json.findField known key with
        | none => exact .inl ⟨rfl, rfl⟩
        | some value => exact .inr ⟨value, value, rfl, rfl, .refl value⟩
      · rw [first, second]
        refine .inr ⟨_, _, rfl, rfl, ?_⟩
        have smaller := Json.sizeOf_findField first
        by_cases both : child.isObject = true ∧
          ∃ value, Json.findField known key = some value ∧ value.isObject = true
        · obtain ⟨isObject, value, stored, isObject'⟩ := both
          have isObject'' := children.isObject.symm.trans isObject
          cases child with
          | object inner =>
              cases same with
              | object inner' =>
                  cases value with
                  | object deeper =>
                      rw [stored]
                      simp only [Json.object.sizeOf_spec] at smaller
                      exact ih inner inner' deeper (by omega) children
                  | _ => cases isObject'
              | _ => cases isObject''
          | _ => cases isObject
        · rw [mergeChild_of_not_object both,
            mergeChild_of_not_object (children.isObject ▸ both)]
          exact children

end

def noSums : JsonLibrary where
  plus := fun left _ => left
  typeCode := fun _ => 0

end TurboAgent.StateGraph
