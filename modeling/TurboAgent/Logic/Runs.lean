import Mathlib

/-!
# Maximal runs

Positions below a count pass a test or do not.  A scan from left to right skips those that do not,
goes on to the end of those that do, and visits the run that it has found.  The runs are in order,
no two of them touch, and together they are what passes the test.
-/

namespace TurboAgent.Logic.Runs

/-- The first and the last position of a run. -/
structure Run where
  (first last : Nat)
  deriving DecidableEq

/-- A position is in a run. -/
def Run.Covers (run : Run) (position : Nat) : Prop :=
  run.first ≤ position ∧ position ≤ run.last

/-- The first position from a start on that passes a test, or the count. -/
def next (test : Nat → Bool) (count start : Nat) : Nat :=
  if start < count then if test start then start else next test count (start + 1) else start
termination_by count - start

section Next

variable {test : Nat → Bool} {count start : Nat}

theorem le_next (test : Nat → Bool) (count start : Nat) : start ≤ next test count start := by
  fun_induction next test count start with
  | case1 => exact le_rfl
  | case2 start within failed ih => omega
  | case3 => exact le_rfl

theorem next_le (bounded : start ≤ count) : next test count start ≤ count := by
  fun_induction next test count start with
  | case1 => exact bounded
  | case2 start within failed ih => exact ih within
  | case3 => exact bounded

/-- A position that is found passes the test. -/
theorem test_next (found : next test count start < count) :
    test (next test count start) = true := by
  fun_induction next test count start with
  | case1 start within passed => exact passed
  | case2 start within failed ih => exact ih found
  | case3 start outside => exact absurd found outside

/-- What is skipped does not pass the test. -/
theorem test_before {position : Nat} (after : start ≤ position)
    (before : position < next test count start) : test position = false := by
  fun_induction next test count start with
  | case1 => omega
  | case2 start within failed ih =>
      rcases Nat.eq_or_lt_of_le after with rfl | later
      · exact Bool.eq_false_iff.mpr failed
      · exact ih later before
  | case3 => omega

theorem lt_next (within : start < count) (failed : test start = false) :
    start < next test count start := by
  rw [next, if_pos within, if_neg (Bool.eq_false_iff.mp failed)]
  exact le_next test count (start + 1)

end Next

/-- The end of the run that begins at a position. -/
def stop (test : Nat → Bool) (count first : Nat) : Nat :=
  next (fun position => !test position) count first

theorem lt_stop {test : Nat → Bool} {count start : Nat} (found : next test count start < count) :
    next test count start < stop test count (next test count start) :=
  lt_next found (by rw [test_next found]; rfl)

/-- The runs from a start on. -/
def runs (test : Nat → Bool) (count start : Nat) : List Run :=
  if found : next test count start < count then
    ⟨next test count start, stop test count (next test count start) - 1⟩ ::
      runs test count (stop test count (next test count start))
  else []
termination_by count - start
decreasing_by
  have := le_next test count start
  have := lt_stop found
  omega

/-- The scan, which ends at the first visit that fails. -/
def scan {ε β : Type} (test : Nat → Bool) (count : Nat) (visit : Run → Except ε β) (start : Nat) :
    Except ε (List β) :=
  if found : next test count start < count then do
    let value ← visit ⟨next test count start, stop test count (next test count start) - 1⟩
    let rest ← scan test count visit (stop test count (next test count start))
    return value :: rest
  else return []
termination_by count - start
decreasing_by
  have := le_next test count start
  have := lt_stop found
  omega

/-- A scan visits the runs. -/
theorem scan_eq {ε β : Type} (test : Nat → Bool) (count : Nat) (visit : Run → Except ε β)
    (start : Nat) : scan test count visit start = (runs test count start).mapM visit := by
  fun_induction runs test count start with
  | case1 start found ih =>
      rw [scan, dif_pos found, List.mapM_cons, ih]
  | case2 start missing =>
      rw [scan, dif_neg missing]
      rfl

section Spec

variable {test : Nat → Bool} {count start : Nat}

/-- A run is not empty, and ends before the count. -/
theorem bounds_of_mem {run : Run} (member : run ∈ runs test count start) :
    next test count start ≤ run.first ∧ run.first ≤ run.last ∧ run.last < count := by
  fun_induction runs test count start with
  | case1 start found ih =>
      have grows := lt_stop found
      have bounded : stop test count (next test count start) ≤ count := next_le found.le
      rcases List.mem_cons.mp member with rfl | later
      · dsimp only
        omega
      · obtain ⟨first, order, last⟩ := ih later
        have := le_next test count (stop test count (next test count start))
        omega
  | case2 => cases member

/-- Between two runs there is a position that does not pass the test. -/
theorem runs_apart (test : Nat → Bool) (count start : Nat) :
    (runs test count start).Pairwise fun left right => left.last + 1 < right.first := by
  fun_induction runs test count start with
  | case1 start found ih =>
      refine List.pairwise_cons.mpr ⟨?_, ih⟩
      intro run member
      obtain ⟨first, order, last⟩ := bounds_of_mem member
      have grows := lt_stop found
      have stopped : stop test count (next test count start) < count := by
        have := le_next test count (stop test count (next test count start))
        omega
      have failed : test (stop test count (next test count start)) = false := by
        have ended : (!test (stop test count (next test count start))) = true := test_next stopped
        simpa using ended
      have := lt_next stopped failed
      dsimp only
      omega
  | case2 => exact List.Pairwise.nil

/-- The runs are what passes the test. -/
theorem covered_iff {position : Nat} (after : start ≤ position) (within : position < count) :
    (∃ run ∈ runs test count start, run.Covers position) ↔ test position = true := by
  fun_induction runs test count start with
  | case1 start found ih =>
      have grows := lt_stop found
      have here : Run.Covers ⟨next test count start, stop test count (next test count start) - 1⟩
          position ↔ next test count start ≤ position ∧
            position < stop test count (next test count start) := by
        rw [Run.Covers]
        dsimp only
        omega
      rw [List.exists_mem_cons_iff, here]
      rcases Nat.lt_or_ge position (next test count start) with early | late
      · have failed := test_before after early
        rw [failed]
        constructor
        · rintro (⟨inside, -⟩ | ⟨run, member, inside, -⟩)
          · omega
          · have := bounds_of_mem member
            have := le_next test count (stop test count (next test count start))
            omega
        · intro passed
          cases passed
      rcases Nat.lt_or_ge position (stop test count (next test count start)) with inside | past
      · have passed : test position = true := by
          have inRun : (!test position) = false := test_before late inside
          simpa using inRun
        exact iff_of_true (.inl ⟨late, inside⟩) passed
      · rw [ih past]
        constructor
        · rintro (⟨-, inside⟩ | passed)
          · omega
          · exact passed
        · exact .inr
  | case2 start missing =>
      have before : position < next test count start := by omega
      rw [test_before after before]
      simp

end Spec

end TurboAgent.Logic.Runs
