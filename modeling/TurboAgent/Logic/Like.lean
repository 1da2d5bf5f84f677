import Mathlib

/-!
# Patterns with wildcards

A pattern in which one character stands for any text and one for any character, and in which an
escape character may make the next one literal.  Characters are compared up to a fold, such as
that of letter case.
-/

namespace TurboAgent.Logic.Like

universe u v

variable {α : Type u} {β : Type v}

/-- What a character of a pattern stands for. -/
inductive Item (α : Type u) where
  | any
  | one
  | exactly (ch : α)
  | never
  deriving DecidableEq

/-- The characters with a meaning. -/
structure Marks (α : Type u) where
  (any one : α)
  escape : Option α

section Reading

variable [DecidableEq α] (marks : Marks α)

/-- A character that is not behind an escape character. -/
def item (ch : α) : Item α :=
  if ch = marks.any then .any else if ch = marks.one then .one else .exactly ch

/-- The items of a pattern.  An escape character at the end matches nothing. -/
def items : List α → List (Item α)
  | [] => []
  | [ch] => [if marks.escape = some ch then .never else item marks ch]
  | ch :: next :: pattern =>
      if marks.escape = some ch then .exactly next :: items pattern
      else item marks ch :: items (next :: pattern)

end Reading

variable [DecidableEq β] (fold : α → β)

/-- Items cover a text. -/
def covers : List (Item α) → List α → Bool
  | [], text => text.isEmpty
  | .any :: items, text => text.tails.any (covers items)
  | .one :: _, [] => false
  | .one :: items, _ :: text => covers items text
  | .exactly _ :: _, [] => false
  | .exactly ch :: items, first :: text => fold ch == fold first && covers items text
  | .never :: _, _ => false

/-- A pattern matches a text. -/
def like [DecidableEq α] (marks : Marks α) (pattern text : List α) : Bool :=
  covers fold (items marks pattern) text

variable {fold}

/-- A text begins with another, up to the fold. -/
def Begins (fold : α → β) (text start : List α) : Prop :=
  ∃ front rest, text = front ++ rest ∧ front.map fold = start.map fold

/-- A text contains another, up to the fold. -/
def Contains (fold : α → β) (text part : List α) : Prop :=
  ∃ front middle rest, text = front ++ (middle ++ rest) ∧ middle.map fold = part.map fold

/-- Items one after the other cover a text piece by piece. -/
theorem covers_append (first second : List (Item α)) (text : List α) :
    covers fold (first ++ second) text = true ↔
      ∃ front rest, text = front ++ rest ∧ covers fold first front = true ∧
        covers fold second rest = true := by
  induction first generalizing text with
  | nil => simp [covers]
  | cons item first ih =>
      cases item with
      | any =>
          simp only [List.cons_append, covers, List.any_eq_true, List.mem_tails, ih]
          constructor
          · rintro ⟨_, ⟨skipped, rfl⟩, front, rest, rfl, isFront, isRest⟩
            exact ⟨skipped ++ front, rest, (List.append_assoc ..).symm,
              ⟨front, ⟨skipped, rfl⟩, isFront⟩, isRest⟩
          · rintro ⟨_, rest, rfl, ⟨front, ⟨skipped, rfl⟩, isFront⟩, isRest⟩
            exact ⟨front ++ rest, ⟨skipped, (List.append_assoc ..).symm⟩, front, rest, rfl, isFront,
              isRest⟩
      | one =>
          cases text with
          | nil => simp [covers]
          | cons ch text =>
              simp only [List.cons_append, covers, ih]
              constructor
              · rintro ⟨front, rest, rfl, isFront, isRest⟩
                exact ⟨ch :: front, rest, rfl, isFront, isRest⟩
              · rintro ⟨front, rest, same, isFront, isRest⟩
                cases front with
                | nil => cases isFront
                | cons _ front =>
                    obtain ⟨rfl, rfl⟩ := List.cons.inj same
                    exact ⟨front, rest, rfl, isFront, isRest⟩
      | exactly literal =>
          cases text with
          | nil => simp [covers]
          | cons ch text =>
              simp only [List.cons_append, covers, Bool.and_eq_true, ih]
              constructor
              · rintro ⟨same, front, rest, rfl, isFront, isRest⟩
                exact ⟨ch :: front, rest, rfl, by simp [covers, same, isFront], isRest⟩
              · rintro ⟨front, rest, split, isFront, isRest⟩
                cases front with
                | nil => cases isFront
                | cons _ front =>
                    obtain ⟨rfl, rfl⟩ := List.cons.inj split
                    rw [covers, Bool.and_eq_true] at isFront
                    exact ⟨isFront.1, front, rest, rfl, isFront.2, isRest⟩
      | never => simp [covers]

theorem covers_any (text : List α) : covers fold [.any] text = true := by
  rw [covers, List.any_eq_true]
  exact ⟨[], (List.mem_tails ..).mpr (List.nil_suffix), rfl⟩

/-- Literal characters cover what is the same up to the fold. -/
theorem covers_literal (literal text : List α) :
    covers fold (literal.map .exactly) text = true ↔ text.map fold = literal.map fold := by
  induction literal generalizing text with
  | nil => simp [covers]
  | cons ch literal ih =>
      cases text with
      | nil => simp [covers]
      | cons first text =>
          simp only [List.map_cons, covers, Bool.and_eq_true, beq_iff_eq, ih, List.cons.injEq]
          exact and_congr_left fun _ => eq_comm

variable {text : List α}

/-- A literal text before any text. -/
theorem begins_iff {literal : List α} :
    covers fold (literal.map .exactly ++ [.any]) text = true ↔ Begins fold text literal := by
  rw [covers_append]
  simp only [covers_literal, covers_any, and_true]
  rfl

/-- A literal text between any texts. -/
theorem contains_iff {literal : List α} :
    covers fold (.any :: (literal.map .exactly ++ [.any])) text = true ↔
      Contains fold text literal := by
  rw [← List.singleton_append, covers_append]
  simp only [covers_append, covers_literal, covers_any, true_and, and_true]
  constructor
  · rintro ⟨front, _, rfl, middle, rest, rfl, same⟩
    exact ⟨front, middle, rest, rfl, same⟩
  · rintro ⟨front, middle, rest, rfl, same⟩
    exact ⟨front, _, rfl, middle, rest, rfl, same⟩

/-! ## Escaped texts -/

variable [DecidableEq α] {marks : Marks α}

theorem items_cons {ch : α} (notEscape : marks.escape ≠ some ch) (pattern : List α) :
    items marks (ch :: pattern) = item marks ch :: items marks pattern := by
  cases pattern with
  | nil => simp [items, notEscape]
  | cons next pattern => rw [items, if_neg notEscape]

/-- Escaped characters are literal. -/
theorem items_escaped {escape : α} (isEscape : marks.escape = some escape) {special : α → Bool}
    (plain : ∀ ch, special ch = false → ch ≠ escape ∧ ch ≠ marks.any ∧ ch ≠ marks.one)
    (text pattern : List α) :
    items marks ((text.flatMap fun ch => if special ch then [escape, ch] else [ch]) ++ pattern) =
      text.map .exactly ++ items marks pattern := by
  induction text with
  | nil => rfl
  | cons ch text ih =>
      rw [List.flatMap_cons, List.append_assoc, List.map_cons, List.cons_append, ← ih]
      cases isSpecial : special ch with
      | true =>
          rw [if_pos rfl]
          exact if_pos isEscape
      | false =>
          obtain ⟨notEscape, notAny, notOne⟩ := plain ch isSpecial
          have apart : marks.escape ≠ some ch := by
            rw [isEscape]
            exact fun same => notEscape (Option.some.inj same).symm
          rw [if_neg Bool.false_ne_true, List.singleton_append, items_cons apart, item,
            if_neg notAny, if_neg notOne]

/-! ## Patterns without an escape character -/

/-- Each character is an item. -/
theorem items_plain (plain : marks.escape = none) (pattern : List α) :
    items marks pattern = pattern.map (item marks) := by
  induction pattern with
  | nil => rfl
  | cons ch pattern ih =>
      rw [items_cons (by rw [plain]; exact (Option.some_ne_none ch).symm), ih, List.map_cons]

/-- Every character stands for itself too. -/
theorem covers_same {other : List α} (same : other.map fold = text.map fold) :
    covers fold (text.map (item marks)) other = true := by
  induction text generalizing other with
  | nil =>
      rw [List.map_eq_nil_iff.mp same]
      rfl
  | cons ch text ih =>
      obtain ⟨first, rest, rfl, isFirst, isRest⟩ := List.map_eq_cons_iff.mp same
      rw [List.map_cons, item]
      split_ifs
      · rw [covers, List.any_eq_true]
        exact ⟨rest, (List.mem_tails ..).mpr (List.suffix_cons first rest), ih isRest⟩
      · exact ih isRest
      · rw [covers, ih isRest, isFirst, beq_self_eq_true]
        rfl

/-- A mark stands for every character. -/
theorem covers_mark {mark : α} (isMark : mark = marks.any ∨ mark = marks.one) (ch : α) :
    covers fold [item marks mark] [ch] = true := by
  rw [item]
  split_ifs with any one
  · exact covers_any [ch]
  · rfl
  · exact absurd isMark (not_or.mpr ⟨any, one⟩)

end TurboAgent.Logic.Like
