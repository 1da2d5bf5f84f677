import Mathlib

/-!
# Lines

A text with a mark at the end of every line: the lines that are ended, and what comes after the
last mark.
-/

namespace TurboAgent.Logic.Lines

universe u

variable {α : Type u} [DecidableEq α] {mark : α}

/-- The lines that are ended. -/
def ended (mark : α) (text : List α) : List (List α) := (text.splitOn mark).dropLast

/-- What comes after the last mark. -/
def unended (mark : α) (text : List α) : List α := (text.splitOn mark).getLast?.getD []

variable {text : List α}

theorem splitOn_clean (clean : mark ∉ text) : text.splitOn mark = [text] := by
  refine List.splitOnP_eq_singleton fun ch member => ?_
  rw [beq_eq_false_iff_ne]
  rintro rfl
  exact clean member

theorem ended_clean (clean : mark ∉ text) : ended mark text = [] := by
  rw [ended, splitOn_clean clean]
  rfl

theorem unended_clean (clean : mark ∉ text) : unended mark text = text := by
  rw [unended, splitOn_clean clean]
  rfl

theorem ended_line {line : List α} (clean : mark ∉ line) (text : List α) :
    ended mark (line ++ mark :: text) = line :: ended mark text := by
  have some : text.splitOn mark ≠ [] := List.splitOnP_ne_nil _ _
  rw [ended, List.splitOn_append_cons_self_of_not_mem clean, List.dropLast_cons_of_ne_nil some,
    ended]

theorem unended_line {line : List α} (clean : mark ∉ line) (text : List α) :
    unended mark (line ++ mark :: text) = unended mark text := by
  have some : text.splitOn mark ≠ [] := List.splitOnP_ne_nil _ _
  rw [unended, List.splitOn_append_cons_self_of_not_mem clean, unended,
    List.getLast?_cons_of_ne_nil some]

/-- A text with a mark has a first line. -/
theorem exists_line (marked : mark ∈ text) :
    text = text.takeWhile (· != mark) ++ mark :: (text.dropWhile (· != mark)).tail ∧
      mark ∉ text.takeWhile (· != mark) := by
  have clean : mark ∉ text.takeWhile (· != mark) := by
    intro member
    have apart := List.mem_takeWhile_imp member
    simp at apart
  refine ⟨?_, clean⟩
  have split : text.takeWhile (· != mark) ++ text.dropWhile (· != mark) = text :=
    List.takeWhile_append_dropWhile
  cases rest : text.dropWhile (· != mark) with
  | nil =>
      rw [rest, List.append_nil] at split
      rw [split] at clean
      exact absurd marked clean
  | cons first more =>
      have stops := List.head?_dropWhile_not (· != mark) text
      rw [rest] at stops split
      have same : first = mark := by simpa using stops
      rw [same] at split
      exact split.symm

/-- A text is a line that is not ended, or a line and a text. -/
theorem induct {Holds : List α → Prop} (clean : ∀ text, mark ∉ text → Holds text)
    (line : ∀ line text, mark ∉ line → Holds text → Holds (line ++ mark :: text))
    (text : List α) : Holds text := by
  induction size : text.length using Nat.strong_induction_on generalizing text with
  | _ size ih =>
      by_cases marked : mark ∈ text
      · obtain ⟨split, isLine⟩ := exists_line marked
        rw [split]
        refine line _ _ isLine (ih _ ?_ _ rfl)
        have lengths := congrArg List.length split
        rw [List.length_append, List.length_cons] at lengths
        omega
      · exact clean text marked

theorem unended_append (text more : List α) :
    unended mark (text ++ more) = unended mark (unended mark text ++ more) := by
  induction text using (@induct _ _ mark) with
  | clean text clean => rw [unended_clean clean]
  | line line text clean ih =>
      rw [List.append_assoc, List.cons_append, unended_line clean, unended_line clean, ih]

/-- Lines that are written are read back. -/
theorem ended_flatMap {lines : List (List α)} (clean : ∀ line ∈ lines, mark ∉ line) :
    ended mark (lines.flatMap (· ++ [mark])) = lines := by
  induction lines with
  | nil => exact ended_clean List.not_mem_nil
  | cons line lines ih =>
      obtain ⟨first, rest⟩ := List.forall_mem_cons.mp clean
      rw [List.flatMap_cons, List.append_assoc, List.singleton_append, ended_line first, ih rest]

/-- Nothing comes after the last of the lines that are written. -/
theorem unended_flatMap {lines : List (List α)} (clean : ∀ line ∈ lines, mark ∉ line) :
    unended mark (lines.flatMap (· ++ [mark])) = [] := by
  induction lines with
  | nil => exact unended_clean List.not_mem_nil
  | cons line lines ih =>
      obtain ⟨first, rest⟩ := List.forall_mem_cons.mp clean
      rw [List.flatMap_cons, List.append_assoc, List.singleton_append, unended_line first, ih rest]

end TurboAgent.Logic.Lines
