import Mathlib

/-!
# Chains of parents

Records are found under keys, and a record may name the key of its parent.  Where every parent
is found and is one lower than its child, the way from any record to a root is a finite list
whose length is the height of the record.
-/

namespace TurboAgent.Logic

variable {κ α : Type*}

/-- The way from the record of a key to a root. -/
inductive Ancestry (lookup : κ → Option α) (parent : α → Option κ) : κ → List (κ × α) → Prop where
  | root {key : κ} {record : α} (found : lookup key = some record) (top : parent record = none) :
      Ancestry lookup parent key [(key, record)]
  | child {key next : κ} {record : α} {above : List (κ × α)} (found : lookup key = some record)
      (up : parent record = some next) (rest : Ancestry lookup parent next above) :
      Ancestry lookup parent key ((key, record) :: above)

/-- Every record is a root of height one, or one higher than its parent and of its class. -/
def Rooted {γ : Type*} (lookup : κ → Option α) (parent : α → Option κ) (height : α → Nat)
    (kind : α → γ) : Prop :=
  ∀ key record, lookup key = some record →
    (height record = 1 ∧ parent record = none) ∨
    ∃ next above, parent record = some next ∧ lookup next = some above ∧
      kind above = kind record ∧ height record = height above + 1

section

variable {lookup lookup' : κ → Option α} {parent : α → Option κ} {key : κ} {way : List (κ × α)}

/-- The way of a key is the only one. -/
theorem Ancestry.unique {way' : List (κ × α)} (left : Ancestry lookup parent key way)
    (right : Ancestry lookup parent key way') : way = way' := by
  induction left generalizing way' with
  | root found top =>
      cases right with
      | root found' _ =>
          rw [found] at found'
          cases found'
          rfl
      | child found' up _ =>
          rw [found] at found'
          cases found'
          rw [top] at up
          cases up
  | child found up _ ih =>
      cases right with
      | root found' top =>
          rw [found] at found'
          cases found'
          rw [top] at up
          cases up
      | child found' up' rest' =>
          rw [found] at found'
          cases found'
          rw [up] at up'
          cases up'
          rw [ih rest']

theorem Ancestry.found (ancestry : Ancestry lookup parent key way) :
    ∀ pair ∈ way, lookup pair.1 = some pair.2 := by
  induction ancestry with
  | root found _ => simpa using found
  | child found _ _ ih => exact List.forall_mem_cons.mpr ⟨found, ih⟩

/-- A way begins with the record of its key. -/
theorem Ancestry.start {key : κ} {way : List (κ × α)} (ancestry : Ancestry lookup parent key way) :
    ∃ record, lookup key = some record := by
  cases ancestry with
  | root found _ => exact ⟨_, found⟩
  | child found _ _ => exact ⟨_, found⟩

/-- More records keep the ways that are there. -/
theorem Ancestry.mono (ancestry : Ancestry lookup parent key way)
    (kept : ∀ key record, lookup key = some record → lookup' key = some record) :
    Ancestry lookup' parent key way := by
  induction ancestry with
  | root found top => exact .root (kept _ _ found) top
  | child found up _ ih => exact .child (kept _ _ found) up ih

variable {γ : Type*} {height : α → Nat} {kind : α → γ} {record : α}

/-- Heights fall by one along a way. -/
theorem Rooted.heights (rooted : Rooted lookup parent height kind)
    (ancestry : Ancestry lookup parent key way) (found : lookup key = some record) :
    way.map (fun pair => height pair.2) = (List.range' 1 (height record)).reverse ∧
      ∀ pair ∈ way, kind pair.2 = kind record := by
  induction ancestry generalizing record with
  | root found' top =>
      rw [found] at found'
      cases found'
      rcases rooted _ _ found with ⟨one, -⟩ | ⟨next, above, up, -⟩
      · simp [one]
      · rw [top] at up
        cases up
  | child found' up rest ih =>
      rw [found] at found'
      cases found'
      rcases rooted _ _ found with ⟨-, top⟩ | ⟨next, above, up', isAbove, same, higher⟩
      · rw [top] at up
        cases up
      · rw [up] at up'
        cases up'
        obtain ⟨heights, kinds⟩ := ih isAbove
        constructor
        · rw [List.map_cons, heights, higher, List.range'_concat, List.reverse_append]
          simp [Nat.add_comm]
        · refine List.forall_mem_cons.mpr ⟨rfl, ?_⟩
          intro pair member
          exact (kinds pair member).trans same

/-- Every record has a way, as long as its height. -/
theorem Rooted.exists_ancestry (rooted : Rooted lookup parent height kind)
    (found : lookup key = some record) :
    ∃ way, Ancestry lookup parent key way ∧ way.length = height record := by
  induction high : height record generalizing key record with
  | zero =>
      rcases rooted _ _ found with ⟨one, -⟩ | ⟨_, _, _, _, _, higher⟩
      · omega
      · omega
  | succ high ih =>
      rcases rooted _ _ found with ⟨one, top⟩ | ⟨next, above, up, isAbove, _, higher⟩
      · exact ⟨_, .root found top, by simp; omega⟩
      · obtain ⟨way, ancestry, length⟩ := ih isAbove (by omega)
        exact ⟨_, .child found up ancestry, by simp [length]⟩

/-- No key comes twice on a way. -/
theorem Rooted.nodup (rooted : Rooted lookup parent height kind)
    (ancestry : Ancestry lookup parent key way) (found : lookup key = some record) :
    (way.map Prod.fst).Nodup := by
  have heights := (rooted.heights ancestry found).1
  have distinct : (way.map fun pair => height pair.2).Nodup := by
    rw [heights, List.nodup_reverse]
    exact List.nodup_range'
  have byKey : way.map (fun pair => height pair.2) =
      (way.map Prod.fst).map fun key => ((lookup key).map height).getD 0 := by
    rw [List.map_map]
    apply List.map_congr_left
    intro pair member
    simp [ancestry.found pair member]
  rw [byKey] at distinct
  exact distinct.of_map _

end

end TurboAgent.Logic
