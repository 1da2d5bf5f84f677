import Mathlib.Data.List.Sort
import Mathlib.Order.Compare

/-!
# The front of a sorted list

A sort by a comparator that takes some items for equal may leave these in any order.  Its first
items are the same for every sort when the items that are taken for equal, and are not the same,
stand behind them.
-/

namespace TurboAgent.Logic.Sorting

variable {α : Type*}

/-- What a sort by a comparator may give. -/
structure Sorts (cmp : α → α → Ordering) (items sorted : List α) : Prop where
  perm : sorted.Perm items
  sorted : sorted.Pairwise fun left right => (cmp left right).isLE

/-- A function that sorts by every comparator that is an order. -/
def Conforms (sort : (α → α → Ordering) → List α → List α) : Prop :=
  ∀ cmp [Std.TransCmp cmp] items, Sorts cmp items (sort cmp items)

/-- How many items stand before one in every sorted list. -/
def before (cmp : α → α → Ordering) (items : List α) (item : α) : Nat :=
  items.countP fun other => cmp other item = .lt

/-- The items that are taken for equal stand behind the first `count`. -/
def Determined (cmp : α → α → Ordering) (items : List α) (count : Nat) : Prop :=
  ∀ left ∈ items, ∀ right ∈ items, left ≠ right → cmp left right = .eq →
    count ≤ before cmp items left

variable {cmp : α → α → Ordering} {items : List α}

theorem before_perm {others : List α} (perm : items.Perm others) (item : α) :
    before cmp items item = before cmp others item :=
  perm.countP_eq _

variable {count : Nat}

theorem Determined.perm {others : List α} (determined : Determined cmp items count)
    (perm : items.Perm others) : Determined cmp others count := by
  intro left isLeft right isRight different equal
  rw [← before_perm perm]
  exact determined left (perm.mem_iff.mpr isLeft) right (perm.mem_iff.mpr isRight) different equal

theorem Determined.tail {first : α} {rest : List α}
    (determined : Determined cmp (first :: rest) (count + 1)) : Determined cmp rest count := by
  intro left isLeft right isRight different equal
  have behind := determined left (List.mem_cons_of_mem _ isLeft) right
    (List.mem_cons_of_mem _ isRight) different equal
  rw [before, List.countP_cons] at behind
  rw [before]
  split at behind <;> omega

section Ordered

variable [Std.TransCmp cmp]

/-- The first item of a sorted list has none before it. -/
theorem before_first {first : α} {rest : List α}
    (sorted : (first :: rest).Pairwise fun left right => (cmp left right).isLE) :
    before cmp (first :: rest) first = 0 := by
  rw [before, List.countP_eq_zero]
  intro other member
  have reaches : (cmp first other).isLE = true := by
    rcases List.mem_cons.mp member with rfl | later
    · exact Ordering.isLE_of_eq_eq Std.ReflCmp.compare_self
    · exact (List.pairwise_cons.mp sorted).1 other later
  simpa using Std.OrientedCmp.not_lt_of_isLE reaches

/-- Sorted lists of the same items have the same front, if it is determined. -/
theorem Determined.take_eq {left right : List α} (determined : Determined cmp left count)
    (leftSorted : left.Pairwise fun left right => (cmp left right).isLE)
    (rightSorted : right.Pairwise fun left right => (cmp left right).isLE) (perm : left.Perm right) :
    left.take count = right.take count := by
  induction count generalizing left right with
  | zero => rfl
  | succ count ih =>
      cases left with
      | nil => rw [perm.nil_eq]
      | cons first rest =>
          cases right with
          | nil => exact absurd perm.symm.nil_eq (List.cons_ne_nil _ _).symm
          | cons other others =>
              have firstThere : first ∈ other :: others := perm.mem_iff.mp List.mem_cons_self
              have otherThere : other ∈ first :: rest := perm.mem_iff.mpr List.mem_cons_self
              have same : first = other := by
                by_contra different
                -- each of the two is among the items that the other stands in front of
                have forth : (cmp first other).isLE = true :=
                  (List.pairwise_cons.mp leftSorted).1 other
                    ((List.mem_cons.mp otherThere).resolve_left (Ne.symm different))
                have back : (cmp other first).isLE = true :=
                  (List.pairwise_cons.mp rightSorted).1 first
                    ((List.mem_cons.mp firstThere).resolve_left different)
                have equal : cmp first other = .eq :=
                  Std.OrientedCmp.isLE_antisymm forth back
                have behind := determined first List.mem_cons_self other otherThere different equal
                rw [before_first leftSorted] at behind
                omega
              subst same
              rw [List.take_succ_cons, List.take_succ_cons,
                ih determined.tail (List.pairwise_cons.mp leftSorted).2
                  (List.pairwise_cons.mp rightSorted).2 (List.perm_cons _ |>.mp perm)]

theorem mergeSort_sorts (cmp : α → α → Ordering) [Std.TransCmp cmp] (items : List α) :
    Sorts cmp items (items.mergeSort fun left right => (cmp left right).isLE) := by
  refine ⟨List.mergeSort_perm _ _, ?_⟩
  apply List.pairwise_mergeSort
  · exact fun _ _ _ => Std.TransCmp.isLE_trans
  · intro left right
    cases order : cmp left right with
    | lt => rfl
    | eq => rfl
    | gt =>
        rw [Std.OrientedCmp.lt_of_gt order]
        rfl

theorem exists_sorts (cmp : α → α → Ordering) [Std.TransCmp cmp] (items : List α) :
    ∃ sorted, Sorts cmp items sorted :=
  ⟨_, mergeSort_sorts cmp items⟩

/-- An item can be sorted in front of all that are taken for equal to it. -/
theorem exists_sorts_leading (cmp : α → α → Ordering) [Std.TransCmp cmp] {item : α}
    (member : item ∈ items) :
    ∃ sorted, Sorts cmp items sorted ∧ sorted[before cmp items item]? = some item := by
  obtain ⟨front, back, rfl⟩ := List.append_of_mem member
  have moved : (item :: (front ++ back)).Perm (front ++ item :: back) := List.perm_middle.symm
  obtain ⟨earlier, isEarlier⟩ := exists_sorts cmp
    ((front ++ back).filter fun other => cmp other item = .lt)
  obtain ⟨later, isLater⟩ := exists_sorts cmp
    ((front ++ back).filter fun other => !decide (cmp other item = .lt))
  have leads : ∀ other ∈ earlier, (cmp other item).isLE = true := by
    intro other isOther
    have kept := (List.mem_filter.mp (isEarlier.perm.mem_iff.mp isOther)).2
    exact Ordering.isLE_of_eq_lt (of_decide_eq_true kept)
  have follows : ∀ other ∈ later, (cmp item other).isLE = true := by
    intro other isOther
    have kept := (List.mem_filter.mp (isLater.perm.mem_iff.mp isOther)).2
    by_contra reversed
    simp [Std.OrientedCmp.lt_of_not_isLE reversed] at kept
  refine ⟨earlier ++ item :: later, ⟨?_, ?_⟩, ?_⟩
  · have split := (isEarlier.perm.append isLater.perm).trans
      (List.filter_append_perm (fun other => decide (cmp other item = .lt)) (front ++ back))
    exact (List.perm_middle.trans (split.cons item)).trans moved
  · rw [List.pairwise_append]
    refine ⟨isEarlier.sorted, List.pairwise_cons.mpr ⟨follows, isLater.sorted⟩, ?_⟩
    intro left isLeft
    exact List.forall_mem_cons.mpr ⟨leads left isLeft,
        fun right isRight => Std.TransCmp.isLE_trans (leads left isLeft) (follows right isRight)⟩
  · have itself : cmp item item = .eq := Std.ReflCmp.compare_self
    have length : before cmp (front ++ item :: back) item = earlier.length := by
      rw [← before_perm moved, before, List.countP_cons, itself, List.countP_eq_length_filter,
        isEarlier.perm.length_eq]
      rfl
    rw [length, List.getElem?_append_right (Nat.le_refl _), Nat.sub_self]
    rfl

/-- The front of the sorted lists is the same for all of them exactly when it is determined. -/
theorem determined_iff :
    Determined cmp items count ↔ ∀ left right, Sorts cmp items left → Sorts cmp items right →
      left.take count = right.take count := by
  constructor
  · intro determined left right isLeft isRight
    exact (determined.perm isLeft.perm.symm).take_eq isLeft.sorted isRight.sorted
      (isLeft.perm.trans isRight.perm.symm)
  · intro same left isLeft right isRight different equal
    by_contra ahead
    obtain ⟨leftSorted, leftSorts, leftThere⟩ := exists_sorts_leading cmp isLeft
    obtain ⟨rightSorted, rightSorts, rightThere⟩ := exists_sorts_leading cmp isRight
    have place : before cmp items left = before cmp items right :=
      List.countP_congr fun other _ => by rw [Std.TransCmp.congr_right equal]
    have inside := Nat.lt_of_not_le ahead
    have taken := congrArg (·[before cmp items left]?) (same _ _ leftSorts rightSorts)
    simp only [List.getElem?_take_of_lt inside] at taken
    rw [leftThere, place, rightThere] at taken
    exact different (Option.some.inj taken)

end Ordered

/-- Every sorted list is the result of a sort. -/
theorem Sorts.exists_conforms {sorted : List α} (sorts : Sorts cmp items sorted) :
    ∃ sort, Conforms sort ∧ sort cmp items = sorted := by
  classical
  refine ⟨fun other others => if Sorts other others sorted then sorted
    else others.mergeSort fun left right => (other left right).isLE, ?_, if_pos sorts⟩
  intro other _ others
  dsimp only
  split
  next already => exact already
  next => exact mergeSort_sorts other others

end TurboAgent.Logic.Sorting
