import Mathlib

/-!
# Computations that may fail

What it means for a sequence of steps, a condition and a partial map over a list to succeed.
-/

namespace TurboAgent.Outcome

universe u

variable {ε α β : Type u}

/-- Go on only when a condition holds. -/
def require (error : ε) (condition : Prop) [Decidable condition] : Except ε PUnit :=
  if condition then .ok ⟨⟩ else .error error

variable {error : ε}

@[simp] theorem require_eq_ok {condition : Prop} [Decidable condition] {result : PUnit} :
    require error condition = .ok result ↔ condition := by
  unfold require
  split
  next holds => simp [holds]
  next fails => simp [fails]

variable {first : Except ε α} {second : α → Except ε β}

theorem bind_eq_ok {result : β} :
    (first >>= second) = .ok result ↔ ∃ value, first = .ok value ∧ second value = .ok result := by
  cases first with
  | error failure => simp [Bind.bind, Except.bind]
  | ok value => simp [Bind.bind, Except.bind]

theorem pure_eq_ok {value result : α} :
    (pure value : Except ε α) = .ok result ↔ value = result := by
  simp [pure, Except.pure]

/-- The value of an option, or a failure. -/
def orFail (error : ε) : Option α → Except ε α
  | some value => .ok value
  | none => .error error

@[simp] theorem orFail_eq_ok {option : Option α} {value : α} :
    orFail error option = .ok value ↔ option = some value := by
  cases option with
  | none => simp [orFail]
  | some other => simp [orFail]

variable {f : α → Except ε β} {items : List α}

/-- A partial map over a list gives a result for each element. -/
theorem mapM_eq_ok {results : List β} :
    items.mapM f = .ok results ↔
      List.Forall₂ (fun item result => f item = .ok result) items results := by
  induction items generalizing results with
  | nil =>
      rw [List.mapM_nil, pure_eq_ok, List.forall₂_nil_left_iff]
      exact eq_comm
  | cons item items ih =>
      rw [List.mapM_cons]
      simp only [bind_eq_ok, pure_eq_ok, ih]
      constructor
      · rintro ⟨first, here, rest, there, rfl⟩
        exact .cons here there
      · intro each
        cases each with
        | cons here there => exact ⟨_, here, _, there, rfl⟩

/-- A partial map over a list fails at one of its elements. -/
theorem mapM_error (failed : items.mapM f = .error error) :
    ∃ item ∈ items, f item = .error error := by
  induction items with
  | nil => cases failed
  | cons item items ih =>
      rw [List.mapM_cons] at failed
      cases here : f item with
      | error other =>
          rw [here] at failed
          cases failed
          exact ⟨item, List.mem_cons_self, here⟩
      | ok value =>
          rw [here] at failed
          cases rest : items.mapM f with
          | error other =>
              rw [rest] at failed
              cases failed
              obtain ⟨later, member, fails⟩ := ih rest
              exact ⟨later, List.mem_cons_of_mem _ member, fails⟩
          | ok values =>
              rw [rest] at failed
              cases failed

/-! ## Two computations -/

section

variable {ε' α' β' : Type u}

/-- Two computations succeed together, with related results. -/
inductive Agrees (related : α → α' → Prop) : Except ε α → Except ε' α' → Prop where
  | ok {result : α} {result' : α'} : related result result' →
      Agrees related (.ok result) (.ok result')
  | error (failure : ε) (failure' : ε') : Agrees related (.error failure) (.error failure')

namespace Agrees

variable {related : α → α' → Prop} {related' : β → β' → Prop}

theorem refl (computation : Except ε α) : Agrees Eq computation computation := by
  cases computation with
  | error failure => exact .error failure failure
  | ok result => exact .ok rfl

theorem bind {first' : Except ε' α'} {second' : α' → Except ε' β'}
    (starts : Agrees related first first') (goesOn : ∀ value value', related value value' →
      Agrees related' (second value) (second' value')) :
    Agrees related' (first >>= second) (first' >>= second') := by
  cases starts with
  | ok holds => exact goesOn _ _ holds
  | error failure failure' => exact .error failure failure'

/-- A step that both computations have in common. -/
theorem bind_same {second' : α → Except ε β'}
    (goesOn : ∀ value, Agrees related' (second value) (second' value)) :
    Agrees related' (first >>= second) (first >>= second') := by
  apply bind (refl first)
  rintro value _ rfl
  exact goesOn value

/-- Checks that succeed together. -/
theorem check {first : Except ε PUnit} {first' : Except ε' PUnit}
    (same : first = .ok ⟨⟩ ↔ first' = .ok ⟨⟩) : Agrees Eq first first' := by
  cases first with
  | ok result =>
      rw [same.mp rfl]
      exact .ok rfl
  | error failure =>
      cases first' with
      | ok result' => cases same.mpr rfl
      | error failure' => exact .error failure failure'

theorem orFail {failure : ε} {failure' : ε'} {option : Option α} {option' : Option α'}
    (same : Option.Rel related option option') :
    Agrees related (Outcome.orFail failure option) (Outcome.orFail failure' option') := by
  cases same with
  | some holds => exact .ok holds
  | none => exact .error failure failure'

theorem mapM {f' : α' → Except ε' β'} {items' : List α'} (same : List.Forall₂ related items items')
    (each : ∀ item item', related item item' → Agrees related' (f item) (f' item')) :
    Agrees (List.Forall₂ related') (items.mapM f) (items'.mapM f') := by
  induction same with
  | nil => exact .ok .nil
  | cons holds _ ih =>
      rw [List.mapM_cons, List.mapM_cons]
      apply (each _ _ holds).bind
      intro first first' here
      apply ih.bind
      intro rest rest' there
      exact .ok (.cons here there)

/-- What is read off results in the same way is the same. -/
theorem toOption_map {γ : Type u} {first' : Except ε' α'} {read : α → γ} {read' : α' → γ}
    (agrees : Agrees (fun result result' => read result = read' result') first first') :
    first.toOption.map read = first'.toOption.map read' := by
  cases agrees with
  | ok same => exact congrArg some same
  | error failure failure' => rfl

end Agrees

end

end TurboAgent.Outcome
