import TurboAgent.Data.Fields

/-!
# Paths into JSON documents

A path leads through the keys of objects and the positions of arrays.  Two documents that read
alike at every path differ at most in the order of their keys.
-/

namespace TurboAgent.Json

inductive Step where
  | key (name : String)
  | index (position : Nat)
  deriving DecidableEq

def child : Json → Step → Option Json
  | .object fields, .key name => findField fields name
  | .array elements, .index position => elements[position]?
  | _, _ => none

def atPath : Json → List Step → Option Json
  | value, [] => some value
  | value, step :: path => (child value step).bind fun inner => atPath inner path

def outline : Json → Json
  | .array _ => .array []
  | .object _ => .object []
  | value => value

def ReadsAlike (left right : Json) : Prop :=
  ∀ path, (left.atPath path).map outline = (right.atPath path).map outline

/-- What two documents have one step inside them reads alike. -/
def ChildrenAlike (left right : Option Json) : Prop :=
  (left = none ∧ right = none) ∨
    ∃ first second, left = some first ∧ right = some second ∧ ReadsAlike first second

@[simp] theorem atPath_key (fields : List (String × Json)) (name : String) (path : List Step) :
    (object fields).atPath (.key name :: path) =
      (findField fields name).bind fun inner => inner.atPath path :=
  rfl

theorem ReadsAlike.refl (value : Json) : ReadsAlike value value := fun _ => rfl

variable {left right : Json}

theorem ReadsAlike.outline_eq (alike : ReadsAlike left right) : left.outline = right.outline := by
  simpa [atPath] using alike []

theorem ReadsAlike.children (alike : ReadsAlike left right) (step : Step) :
    ChildrenAlike (left.child step) (right.child step) := by
  have here := alike [step]
  have deeper := fun path => alike (step :: path)
  simp only [atPath] at here deeper
  cases first : left.child step with
  | none =>
      cases second : right.child step with
      | none => exact .inl ⟨rfl, rfl⟩
      | some other => simp [first, second] at here
  | some inner =>
      cases second : right.child step with
      | none => simp [first, second] at here
      | some other =>
          refine .inr ⟨inner, other, rfl, rfl, fun path => ?_⟩
          simpa [first, second] using deeper path

theorem readsAlike_of_children (outlines : left.outline = right.outline)
    (children : ∀ step, ChildrenAlike (left.child step) (right.child step)) :
    ReadsAlike left right := by
  intro path
  cases path with
  | nil => simp [atPath, outlines]
  | cons step path =>
      rw [atPath, atPath]
      rcases children step with ⟨first, second⟩ | ⟨inner, other, first, second, alike⟩
      · rw [first, second]
      · rw [first, second]
        exact alike path

theorem ReadsAlike.isObject (alike : ReadsAlike left right) : left.isObject = right.isObject := by
  have outlines := alike.outline_eq
  revert outlines
  cases left <;> cases right <;> simp [outline, Json.isObject]

variable {left right : List (String × Json)}

theorem ReadsAlike.fields (alike : ReadsAlike (.object left) (.object right)) (key : String) :
    ChildrenAlike (findField left key) (findField right key) :=
  alike.children (.key key)

theorem readsAlike_of_fields
    (fields : ∀ key, ChildrenAlike (findField left key) (findField right key)) :
    ReadsAlike (.object left) (.object right) := by
  have outlines : (object left).outline = (object right).outline := rfl
  apply readsAlike_of_children outlines
  intro step
  cases step with
  | key name => exact fields name
  | index position => exact .inl ⟨rfl, rfl⟩

theorem findField_perm (perm : left.Perm right) (distinct : (left.map Prod.fst).Nodup)
    (key : String) : findField left key = findField right key := by
  induction perm with
  | nil => rfl
  | cons field _ ih =>
      rw [List.map_cons, List.nodup_cons] at distinct
      rw [findField, findField, ih distinct.2]
  | swap first second fields =>
      rw [findField, findField, findField, findField]
      simp only [List.map_cons, List.nodup_cons, List.mem_cons, not_or] at distinct
      by_cases here : first.1 = key
      · have apart : second.1 ≠ key := here ▸ distinct.1.1
        rw [if_pos here, if_neg apart, if_pos here]
      · simp [here]
  | trans first _ ihFirst ihSecond =>
      rw [ihFirst distinct, ihSecond ((first.map Prod.fst).nodup_iff.mp distinct)]

theorem readsAlike_of_perm (perm : left.Perm right) (distinct : (left.map Prod.fst).Nodup) :
    ReadsAlike (.object left) (.object right) := by
  apply readsAlike_of_fields
  intro key
  rw [findField_perm perm distinct]
  cases findField right key with
  | none => exact .inl ⟨rfl, rfl⟩
  | some value => exact .inr ⟨value, value, rfl, rfl, .refl value⟩

end TurboAgent.Json
