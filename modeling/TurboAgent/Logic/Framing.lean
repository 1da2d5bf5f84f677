import Mathlib

/-!
# Encodings that tell where they end

Values that are written one after the other can be read back when each encoding tells where it
ends: because it has a fixed width, or because a mark stands behind it that it does not contain.
-/

namespace TurboAgent.Logic

universe u v

variable {α : Type u} {β : Type v}

/-- Whatever follows, an encoding tells the value and where it ends. -/
def Framed (encode : α → List β) : Prop :=
  ∀ ⦃left right : α⦄ ⦃rest rest' : List β⦄,
    encode left ++ rest = encode right ++ rest' → left = right ∧ rest = rest'

namespace Framed

theorem of_width {encode : α → List β} {width : Nat}
    (lengths : ∀ value, (encode value).length = width) (injective : Function.Injective encode) :
    Framed encode := by
  intro left right rest rest' same
  obtain ⟨here, there⟩ := List.append_inj same ((lengths left).trans (lengths right).symm)
  exact ⟨injective here, there⟩

/-- What stands in front of the first mark is read off. -/
theorem split_at_mark {mark : β} {front front' back back' : List β} (clean : mark ∉ front)
    (clean' : mark ∉ front') (same : front ++ mark :: back = front' ++ mark :: back') :
    front = front' ∧ back = back' := by
  induction front generalizing front' with
  | nil =>
      cases front' with
      | nil => exact ⟨rfl, (List.cons.inj same).2⟩
      | cons other _ => exact absurd ((List.cons.inj same).1 ▸ List.mem_cons_self) clean'
  | cons first front ih =>
      cases front' with
      | nil => exact absurd ((List.cons.inj same).1 ▸ List.mem_cons_self) clean
      | cons other front' =>
          obtain ⟨rfl, others⟩ := List.cons.inj same
          rw [List.mem_cons, not_or] at clean clean'
          obtain ⟨rfl, backs⟩ := ih clean.2 clean'.2 others
          exact ⟨rfl, backs⟩

/-- Lists whose lengths are known. -/
theorem flatMap {encode : α → List β} (framed : Framed encode) {lefts rights : List α}
    {rest rest' : List β} (lengths : lefts.length = rights.length)
    (same : lefts.flatMap encode ++ rest = rights.flatMap encode ++ rest') :
    lefts = rights ∧ rest = rest' := by
  induction lefts generalizing rights with
  | nil =>
      cases List.eq_nil_of_length_eq_zero lengths.symm
      exact ⟨rfl, same⟩
  | cons left lefts ih =>
      cases rights with
      | nil => cases lengths
      | cons right rights =>
          rw [List.flatMap_cons, List.flatMap_cons, List.append_assoc, List.append_assoc] at same
          obtain ⟨rfl, others⟩ := framed same
          obtain ⟨rfl, rests⟩ := ih (Nat.succ.inj lengths) others
          exact ⟨rfl, rests⟩

end Framed

end TurboAgent.Logic
