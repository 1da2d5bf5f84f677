import Mathlib

/-!
# Slots

An array that grows to the index that is written.  What a slot holds in the end depends on the
updates of its index and on their order, and not on the updates in between.
-/

namespace TurboAgent.Logic.Slots

variable {α ι : Type} {empty : α}

/-- Change the slot of an index; the ones in front of it are there, empty or not. -/
def update (empty : α) (slots : List α) (index : Nat) (change : α → α) : List α :=
  (slots ++ List.replicate (index + 1 - slots.length) empty).modify index change

/-- What an index holds; a slot that is not there is empty. -/
def look (empty : α) (slots : List α) (index : Nat) : α :=
  slots.getD index empty

/-- One update after the other. -/
def run (empty : α) (key : ι → Nat) (change : ι → α → α) (slots : List α) (items : List ι) :
    List α :=
  items.foldl (fun slots item => update empty slots (key item) (change item)) slots

variable {index : Nat}

theorem look_of_getElem? {slots : List α} {slot : α} (held : slots[index]? = some slot) :
    look empty slots index = slot := by
  rw [look, List.getD_eq_getElem?_getD, held, Option.getD_some]

theorem getElem?_of_look {slots : List α} (inside : index < slots.length) :
    slots[index]? = some (look empty slots index) := by
  rw [look, List.getD_eq_getElem?_getD, List.getElem?_eq_getElem inside, Option.getD_some]

theorem look_grown (slots : List α) (count index : Nat) :
    look empty (slots ++ List.replicate count empty) index = look empty slots index := by
  rw [look, look, List.getD_eq_getElem?_getD, List.getD_eq_getElem?_getD, List.getElem?_append]
  split
  next => rfl
  next outside =>
    rw [List.getElem?_eq_none (Nat.le_of_not_lt outside), List.getElem?_replicate]
    split <;> rfl

theorem length_grown (slots : List α) (index : Nat) :
    (slots ++ List.replicate (index + 1 - slots.length) empty).length =
      max slots.length (index + 1) := by
  rw [List.length_append, List.length_replicate]
  omega

theorem length_update (slots : List α) (index : Nat) (change : α → α) :
    (update empty slots index change).length = max slots.length (index + 1) := by
  rw [update, List.length_modify, length_grown]

theorem look_update_same (slots : List α) (index : Nat) (change : α → α) :
    look empty (update empty slots index change) index = change (look empty slots index) := by
  have inside : index < (slots ++ List.replicate (index + 1 - slots.length) empty).length := by
    rw [length_grown]
    omega
  have held := @getElem?_of_look _ empty _ _ inside
  rw [look_grown] at held
  apply look_of_getElem?
  rw [update, List.getElem?_modify_eq, held]
  rfl

theorem look_update_other {other : Nat} (different : index ≠ other) (slots : List α)
    (change : α → α) :
    look empty (update empty slots index change) other = look empty slots other := by
  rw [← look_grown slots (index + 1 - slots.length) other, look, look,
    List.getD_eq_getElem?_getD, List.getD_eq_getElem?_getD, update,
    List.getElem?_modify_ne _ _ different]

variable {key : ι → Nat} {change : ι → α → α}

@[simp] theorem run_nil (slots : List α) : run empty key change slots [] = slots := rfl

theorem run_cons (slots : List α) (item : ι) (items : List ι) :
    run empty key change slots (item :: items) =
      run empty key change (update empty slots (key item) (change item)) items := rfl

theorem run_append (slots : List α) (items others : List ι) :
    run empty key change slots (items ++ others) =
      run empty key change (run empty key change slots items) others :=
  List.foldl_append

/-- A slot sees the updates of its index, in their order. -/
theorem look_run (items : List ι) (slots : List α) (index : Nat) :
    look empty (run empty key change slots items) index =
      (items.filter fun item => key item = index).foldl (fun slot item => change item slot)
        (look empty slots index) := by
  induction items generalizing slots with
  | nil => rfl
  | cons item items ih =>
      rw [run_cons, ih]
      by_cases same : key item = index
      · rw [List.filter_cons_of_pos (by simpa using same), List.foldl_cons, ← same,
          look_update_same]
      · rw [List.filter_cons_of_neg (by simpa using same), look_update_other same]

/-- Slots are there up to the greatest index that was written. -/
theorem lt_length_run (items : List ι) (slots : List α) (index : Nat) :
    index < (run empty key change slots items).length ↔
      index < slots.length ∨ ∃ item ∈ items, index ≤ key item := by
  induction items generalizing slots with
  | nil => simp [run_nil]
  | cons item items ih =>
      rw [run_cons, ih, length_update, lt_max_iff, Nat.lt_succ_iff, or_assoc]
      simp only [List.mem_cons, exists_eq_or_imp]

/-- Every index below a bound is written, and no other. -/
theorem length_run {items : List ι} {bound : Nat} (below : ∀ item ∈ items, key item < bound)
    (each : ∀ index < bound, ∃ item ∈ items, key item = index) :
    (run empty key change [] items).length = bound := by
  apply eq_of_forall_lt_iff
  intro index
  rw [lt_length_run]
  constructor
  · rintro (inside | ⟨item, member, written⟩)
    · exact absurd inside (Nat.not_lt_zero _)
    · exact Nat.lt_of_le_of_lt written (below item member)
  · intro inside
    obtain ⟨item, member, same⟩ := each index inside
    exact .inr ⟨item, member, Nat.le_of_eq same.symm⟩

end TurboAgent.Logic.Slots
