import TurboAgent.Data.Json

/-!
# Fields of JSON objects

How reading and setting fields go together.
-/

namespace TurboAgent.Json

@[simp] theorem findField_nil (key : String) : findField [] key = none := rfl

theorem findField_cons (name key : String) (value : Json) (fields : List (String × Json)) :
    findField ((name, value) :: fields) key =
      if name = key then some value else findField fields key := rfl

theorem findField_cons_same (key : String) (value : Json) (fields : List (String × Json)) :
    findField ((key, value) :: fields) key = some value := by
  rw [findField_cons, if_pos rfl]

variable {key : String}

theorem findField_cons_other {name : String} (distinct : name ≠ key) (value : Json)
    (fields : List (String × Json)) :
    findField ((name, value) :: fields) key = findField fields key := by
  rw [findField_cons, if_neg distinct]

@[simp] theorem putField_nil (key : String) (value : Json) : putField [] key value = [(key, value)] := rfl

theorem putField_cons (name key : String) (old value : Json) (fields : List (String × Json)) :
    putField ((name, old) :: fields) key value =
      if name = key then (key, value) :: fields else (name, old) :: putField fields key value := rfl

theorem findField_append (front back : List (String × Json)) (key : String) :
    findField (front ++ back) key = (findField front key).or (findField back key) := by
  induction front with
  | nil => rfl
  | cons field front ih =>
      rw [List.cons_append, findField_cons, findField_cons]
      split
      next => rfl
      next => exact ih

variable {fields : List (String × Json)}

theorem findField_eq_none : findField fields key = none ↔ key ∉ fields.map Prod.fst := by
  induction fields with
  | nil => simp [findField_nil]
  | cons field fields ih =>
      rw [findField_cons]
      split
      next same => simp [same]
      next other =>
        rw [ih]
        simp [Ne.symm other]

theorem exists_findField :
    (∃ value, findField fields key = some value) ↔ key ∈ fields.map Prod.fst := by
  rw [← Option.ne_none_iff_exists', ne_eq, findField_eq_none, not_not]

variable {value : Json}

theorem sizeOf_findField (found : findField fields key = some value) :
    sizeOf value < sizeOf fields := by
  induction fields with
  | nil => cases found
  | cons field fields ih =>
      obtain ⟨name, first⟩ := field
      rw [findField_cons] at found
      split at found
      next =>
        cases found
        simp only [List.cons.sizeOf_spec, Prod.mk.sizeOf_spec]
        omega
      next =>
        have smaller := ih found
        simp only [List.cons.sizeOf_spec]
        omega

theorem sizeOf_child (found : findField fields key = some value) :
    sizeOf value < sizeOf (object fields) := by
  have smaller := sizeOf_findField found
  rw [object.sizeOf_spec]
  omega

theorem putField_putField (fields : List (String × Json)) (key : String) (old new : Json) :
    putField (putField fields key old) key new = putField fields key new := by
  induction fields with
  | nil => simp [putField_nil, putField_cons]
  | cons entry fields ih =>
      obtain ⟨name, value⟩ := entry
      rw [putField_cons, putField_cons]
      split
      next => rw [putField_cons, if_pos rfl]
      next other => rw [putField_cons, if_neg other, ih]

theorem findField_putField_same (fields : List (String × Json)) (key : String) (value : Json) :
    findField (putField fields key value) key = some value := by
  induction fields with
  | nil => simp [putField_nil, findField_cons]
  | cons entry fields ih =>
      obtain ⟨name, old⟩ := entry
      rw [putField_cons]
      split
      next => rw [findField_cons, if_pos rfl]
      next other => rw [findField_cons, if_neg other, ih]

theorem findField_putField_other (fields : List (String × Json)) {other : String} (value : Json)
    (distinct : key ≠ other) :
    findField (putField fields key value) other = findField fields other := by
  induction fields with
  | nil => simp [putField_nil, findField_nil, findField_cons, distinct]
  | cons entry fields ih =>
      obtain ⟨name, old⟩ := entry
      rw [putField_cons, findField_cons]
      split
      next same => rw [findField_cons, if_neg distinct, if_neg (same ▸ distinct)]
      next => rw [findField_cons, ih]

theorem putField_same (stored : findField fields key = some value) :
    putField fields key value = fields := by
  induction fields with
  | nil => cases stored
  | cons entry fields ih =>
      obtain ⟨name, old⟩ := entry
      rw [findField_cons] at stored
      rw [putField_cons]
      split at stored
      next same =>
        cases stored
        rw [if_pos same, same]
      next other => rw [if_neg other, ih stored]

theorem set_set (state : Json) (key : String) (old new : Json) :
    (state.set key old).set key new = state.set key new := by
  cases state with
  | object fields => rw [set, set, set, putField_putField]
  | _ => rfl

theorem set_same {record : Json} (stored : record.field key = some value) :
    record.set key value = record := by
  cases record with
  | object fields => rw [set, putField_same stored]
  | _ => cases stored

theorem isObject_set (state : Json) (key : String) (value : Json) :
    (state.set key value).isObject = state.isObject := by
  cases state <;> rfl

theorem field_set_same {state : Json} (object : state.isObject = true) (key : String)
    (value : Json) : (state.set key value).field key = some value := by
  cases state with
  | object fields => exact findField_putField_same fields key value
  | _ => exact absurd object (by simp [isObject])

theorem field_set_other (state : Json) {other : String} (value : Json) (distinct : key ≠ other) :
    (state.set key value).field other = state.field other := by
  cases state with
  | object fields => exact findField_putField_other fields value distinct
  | _ => rfl

end TurboAgent.Json
