import Mathlib

/-!
# Ring buffers

A fixed array used as a queue: the elements stand from `head` on, `count` of them, and wrap
around at the end of the array.  A removed cell is cleared.
-/

namespace TurboAgent

/-- An array with the place of its first element and the number of its elements. -/
structure Ring (α : Type) where
  cells : List α
  (head count : Nat)
  deriving DecidableEq

namespace Ring

variable {α : Type}

/-- The cell of the element at an offset. -/
def slot (ring : Ring α) (offset : Nat) : Nat :=
  (ring.head + offset) % ring.cells.length

/-- Write an element behind the last one. -/
def push (ring : Ring α) (value : α) : Ring α :=
  { ring with
    cells := ring.cells.set (ring.slot ring.count) value
    count := ring.count + 1 }

/-- The head is a cell, and there are no more elements than cells. -/
structure Valid (ring : Ring α) : Prop where
  head : ring.head < ring.cells.length
  count : ring.count ≤ ring.cells.length

@[simp] theorem cells_push (ring : Ring α) (value : α) :
    (ring.push value).cells.length = ring.cells.length := by
  simp [push]

variable {ring : Ring α}

/-- Different offsets are different cells. -/
theorem slot_inj {left right : Nat} (leftLt : left < ring.cells.length)
    (rightLt : right < ring.cells.length) (same : ring.slot left = ring.slot right) :
    left = right := by
  have congruent : ring.head + left ≡ ring.head + right [MOD ring.cells.length] := same
  have cancelled := Nat.ModEq.add_left_cancel' ring.head congruent
  rwa [Nat.ModEq, Nat.mod_eq_of_lt leftLt, Nat.mod_eq_of_lt rightLt] at cancelled

theorem slot_lt (valid : ring.Valid) (offset : Nat) : ring.slot offset < ring.cells.length :=
  Nat.mod_lt _ (Nat.zero_lt_of_lt valid.head)

theorem Valid.push (valid : ring.Valid) (value : α) (room : ring.count < ring.cells.length) :
    (ring.push value).Valid where
  head := by
    rw [cells_push]
    exact valid.head
  count := by
    rw [cells_push]
    exact room

variable [Inhabited α]

/-- An empty ring of cleared cells. -/
def empty (capacity : Nat) : Ring α :=
  ⟨List.replicate capacity default, 0, 0⟩

/-- The first element. -/
def first (ring : Ring α) : α :=
  ring.cells.getD ring.head default

/-- Clear and pass the first element. -/
def pop (ring : Ring α) : Ring α where
  cells := ring.cells.set ring.head default
  head := (ring.head + 1) % ring.cells.length
  count := ring.count - 1

/-- Clear all cells. -/
def clear (ring : Ring α) : Ring α :=
  empty ring.cells.length

/-- The elements in order. -/
def contents (ring : Ring α) : List α :=
  (List.range ring.count).map fun offset => ring.cells.getD (ring.slot offset) default

@[simp] theorem cells_pop (ring : Ring α) : ring.pop.cells.length = ring.cells.length := by
  simp [pop]

@[simp] theorem cells_clear (ring : Ring α) : ring.clear.cells.length = ring.cells.length := by
  simp [clear, empty]

@[simp] theorem contents_clear (ring : Ring α) : ring.clear.contents = [] := rfl

@[simp] theorem length_contents (ring : Ring α) : ring.contents.length = ring.count := by
  simp [contents]

theorem Valid.clear (valid : ring.Valid) : ring.clear.Valid where
  head := by
    rw [cells_clear]
    exact Nat.zero_lt_of_lt valid.head
  count := Nat.zero_le _

theorem Valid.pop (valid : ring.Valid) : ring.pop.Valid where
  head := by
    rw [cells_pop]
    exact Nat.mod_lt _ (Nat.zero_lt_of_lt valid.head)
  count := by
    rw [cells_pop]
    exact Nat.le_trans (Nat.sub_le _ _) valid.count

/-- A written element is the last one. -/
theorem contents_push (valid : ring.Valid) (value : α) (room : ring.count < ring.cells.length) :
    (ring.push value).contents = ring.contents ++ [value] := by
  have same : ∀ offset, (ring.push value).slot offset = ring.slot offset := by
    intro offset
    simp [slot, push]
  have count : (ring.push value).count = ring.count + 1 := rfl
  rw [contents, count, List.range_succ, List.map_append, contents]
  congr 1
  · apply List.map_congr_left
    intro offset member
    have less := List.mem_range.mp member
    have other : ring.slot ring.count ≠ ring.slot offset := by
      intro equal
      have := slot_inj room (Nat.lt_trans less room) equal
      omega
    rw [same]
    simp [push, List.getD, other]
  · rw [List.map_cons, List.map_nil, same]
    simp [push, List.getD, slot_lt valid]

/-- The elements are the first one and the ones that stay. -/
theorem contents_pop (valid : ring.Valid) (some : 0 < ring.count) :
    ring.contents = ring.first :: ring.pop.contents := by
  obtain ⟨rest, isCount⟩ : ∃ rest, ring.count = rest + 1 := ⟨ring.count - 1, by omega⟩
  have count : ring.pop.count = rest := by simp [pop, isCount]
  have start : ring.slot 0 = ring.head := Nat.mod_eq_of_lt valid.head
  have next : ∀ offset, ring.pop.slot offset = ring.slot (offset + 1) := by
    intro offset
    simp only [slot, cells_pop]
    rw [show ring.pop.head = (ring.head + 1) % ring.cells.length from rfl, Nat.mod_add_mod]
    congr 1
    omega
  rw [contents, contents, isCount, count, List.range_succ_eq_map, List.map_cons, List.map_map,
    start]
  congr 1
  apply List.map_congr_left
  intro offset member
  have less := List.mem_range.mp member
  have bound := valid.count
  have other : ring.head ≠ ring.slot (offset + 1) := by
    rw [← start]
    intro equal
    have := slot_inj (by omega) (by omega) equal
    omega
  rw [Function.comp_apply, next]
  simp [pop, List.getD, other]

end Ring

end TurboAgent
