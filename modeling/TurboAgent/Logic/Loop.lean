import Mathlib

/-!
# Loops

A loop repeats its body, which either goes on with a new state or ends with a result.  It may
run for ever, so its result is a relation: the loop ends with a result if some number of rounds
is enough for it.
-/

namespace TurboAgent.Logic.Loop

variable {State Result : Type}

/-- The result of a loop, if it comes within a number of rounds. -/
def rounds (body : State → State ⊕ Result) : Nat → State → Option Result
  | 0, _ => none
  | count + 1, state =>
      match body state with
      | .inl next => rounds body count next
      | .inr result => some result

/-- The loop ends with the result. -/
def Ends (body : State → State ⊕ Result) (state : State) (result : Result) : Prop :=
  ∃ count, rounds body count state = some result

variable {body : State → State ⊕ Result} {state next : State} {result : Result}

@[simp] theorem rounds_zero : rounds body 0 state = none := rfl

theorem rounds_succ (count : Nat) : rounds body (count + 1) state =
    match body state with
    | .inl next => rounds body count next
    | .inr result => some result := rfl

theorem Ends.done (last : body state = .inr result) : Ends body state result :=
  ⟨1, by rw [rounds_succ, last]⟩

theorem Ends.step (first : body state = .inl next) (rest : Ends body next result) :
    Ends body state result := by
  obtain ⟨count, rest⟩ := rest
  exact ⟨count + 1, by rw [rounds_succ, first]; exact rest⟩

/-- A loop that ends does so in its first round or after it. -/
theorem Ends.cases (ends : Ends body state result) :
    body state = .inr result ∨ ∃ next, body state = .inl next ∧ Ends body next result := by
  obtain ⟨count, ends⟩ := ends
  cases count with
  | zero => exact absurd ends (by simp [rounds_zero])
  | succ count =>
      rw [rounds_succ] at ends
      cases first : body state with
      | inl next =>
          rw [first] at ends
          exact .inr ⟨next, rfl, count, ends⟩
      | inr last =>
          rw [first] at ends
          exact .inl (congrArg Sum.inr (Option.some.inj ends))

/-- Induction over the rounds of a loop that ends. -/
theorem Ends.induct {motive : State → Prop}
    (done : ∀ state, body state = .inr result → motive state)
    (step : ∀ state next, body state = .inl next → motive next → motive state)
    (ends : Ends body state result) : motive state := by
  obtain ⟨count, ends⟩ := ends
  induction count generalizing state with
  | zero => exact absurd ends (by simp [rounds_zero])
  | succ count ih =>
      rw [rounds_succ] at ends
      cases first : body state with
      | inl next =>
          rw [first] at ends
          exact step state next first (ih ends)
      | inr last =>
          rw [first] at ends
          exact done state (first.trans (congrArg Sum.inr (Option.some.inj ends)))

theorem Ends.unique {other : Result} (left : Ends body state result) :
    Ends body state other → result = other := by
  refine Ends.induct (motive := fun state => Ends body state other → result = other) ?_ ?_ left
  · intro state last right
    rcases right.cases with same | ⟨next, first, _⟩
    · exact Sum.inr.inj (last.symm.trans same)
    · exact absurd (last.symm.trans first) (by simp)
  · intro state next first ih right
    rcases right.cases with last | ⟨next', first', rest⟩
    · exact absurd (first.symm.trans last) (by simp)
    · exact ih (Sum.inl.inj (first.symm.trans first') ▸ rest)

/-- A loop whose states grow with every round, and do not grow beyond a bound, ends. -/
theorem rounds_of_growing {size : State → Nat} {bound : Nat} {inv : State → Prop}
    (goOn : ∀ state next, inv state → body state = .inl next → inv next ∧ size next = size state + 1)
    (bounded : ∀ state, inv state → size state ≤ bound) (holds : inv state) :
    ∃ result, rounds body (bound + 1 - size state) state = some result := by
  induction left : bound + 1 - size state generalizing state with
  | zero =>
      have small := bounded state holds
      omega
  | succ left ih =>
      rw [rounds_succ]
      cases first : body state with
      | inl next =>
          obtain ⟨kept, grown⟩ := goOn state next holds first
          exact ih kept (by omega)
      | inr result => exact ⟨result, rfl⟩

/-- The states that a loop comes to. -/
def Visits (body : State → State ⊕ Result) : State → State → Prop :=
  Relation.ReflTransGen fun state next => body state = .inl next

variable {later : State}

/-- A loop that ends in its first round comes to no other state. -/
theorem Visits.eq_of_done (last : body state = .inr result) (visits : Visits body state later) :
    later = state := by
  rcases visits.cases_head with same | ⟨next, first, _⟩
  · exact same.symm
  · exact absurd (last.symm.trans first) (by simp)

/-- The invariant rule: what the body keeps in every state that the loop comes to, and what it
ends with from there. -/
theorem Ends.invariant (ends : Ends body state result) (inv : State → Prop)
    (post : Result → Prop) (start : inv state)
    (goOn : ∀ later next, Visits body state later → inv later → body later = .inl next → inv next)
    (finish : ∀ later result, Visits body state later → inv later → body later = .inr result →
      post result) : post result := by
  have reaches : ∀ later, Visits body state later → inv later → Ends body later result →
      post result := by
    intro later visited holds rest
    revert visited holds
    refine Ends.induct (motive := fun later => Visits body state later → inv later →
      post result) ?_ ?_ rest
    · intro last done visited holds
      exact finish last result visited holds done
    · intro this next first ih visited holds
      exact ih (visited.tail first) (goOn this next visited holds first)
  exact reaches state .refl start ends

/-- A loop that ends, ends from every state that it comes to. -/
theorem Ends.of_visits (ends : Ends body state result) (visits : Visits body state later) :
    Ends body later result := by
  induction visits with
  | refl => exact ends
  | tail _ first ih =>
      rcases ih.cases with last | ⟨next, again, rest⟩
      · exact absurd (last.symm.trans first) (by simp)
      · exact Sum.inl.inj (again.symm.trans first) ▸ rest

theorem Visits.ends (visits : Visits body state later) (ends : Ends body later result) :
    Ends body state result := by
  induction visits using Relation.ReflTransGen.head_induction_on with
  | refl => exact ends
  | head first _ ih => exact ih.step first

/-- Where a loop goes on, another one follows: it follows the first one to its last state. -/
theorem Ends.follow {State' Result' : Type} {body' : State' → State' ⊕ Result'} {other : State'}
    {related : State → State' → Prop} (ends : Ends body state result) (start : related state other)
    (goOn : ∀ left right next, related left right → body left = .inl next →
      ∃ next', body' right = .inl next' ∧ related next next') :
    ∃ last last', body last = .inr result ∧ related last last' ∧ Visits body' other last' := by
  revert other start
  refine Ends.induct (motive := fun state => ∀ {other}, related state other →
    ∃ last last', body last = .inr result ∧ related last last' ∧ Visits body' other last') ?_ ?_ ends
  · intro last done other start
    exact ⟨last, other, done, start, .refl⟩
  · intro state next first ih other start
    obtain ⟨next', first', alike⟩ := goOn state other next start first
    obtain ⟨last, last', done, alike, visits⟩ := ih alike
    exact ⟨last, last', done, alike, visits.head first'⟩

/-- Loops whose bodies do alike, end alike. -/
theorem Ends.alike {State' Result' : Type} {body' : State' → State' ⊕ Result'} {other : State'}
    {related : State → State' → Prop} {post : Result → Result' → Prop}
    (ends : Ends body state result) (start : related state other)
    (alike : ∀ left right, related left right →
      Sum.LiftRel related post (body left) (body' right)) :
    ∃ result', Ends body' other result' ∧ post result result' := by
  have goOn : ∀ left right next, related left right → body left = .inl next →
      ∃ next', body' right = .inl next' ∧ related next next' := by
    intro left right next holds goesOn
    have lifted := alike left right holds
    rw [goesOn] at lifted
    cases second : body' right with
    | inl next' =>
        rw [second] at lifted
        exact ⟨next', rfl, Sum.liftRel_inl_inl.mp lifted⟩
    | inr result' =>
        rw [second] at lifted
        cases lifted
  obtain ⟨last, last', done, holds, visits⟩ := ends.follow start goOn
  have lifted := alike last last' holds
  rw [done] at lifted
  cases second : body' last' with
  | inl next' =>
      rw [second] at lifted
      cases lifted
  | inr result' =>
      rw [second] at lifted
      exact ⟨result', visits.ends (.done second), Sum.liftRel_inr_inr.mp lifted⟩

section

variable {body' : State → State ⊕ Result} {givesUp : State → Result → Prop}

/-- A loop that does as another one or gives up: it ends as the other one, or it gives up at a
state that the other one comes to. -/
theorem Ends.orGivesUp (ends : Ends body' state result)
    (same : ∀ state, body' state = body state ∨ ∃ last, body' state = .inr last ∧ givesUp state last) :
    Ends body state result ∨ ∃ later, Visits body state later ∧ givesUp later result := by
  refine Ends.induct (motive := fun state =>
    Ends body state result ∨ ∃ later, Visits body state later ∧ givesUp later result) ?_ ?_ ends
  · intro state last
    rcases same state with agrees | ⟨other, gaveUp, holds⟩
    · exact .inl (.done (agrees.symm.trans last))
    · exact .inr ⟨state, .refl, Sum.inr.inj (gaveUp.symm.trans last) ▸ holds⟩
  · intro state next first rest
    rcases same state with agrees | ⟨other, gaveUp, holds⟩
    · have first : body state = .inl next := agrees.symm.trans first
      rcases rest with ends | ⟨later, visits, holds⟩
      · exact .inl (ends.step first)
      · exact .inr ⟨later, visits.head first, holds⟩
    · exact absurd (first.symm.trans gaveUp) (by simp)

/-- Where a loop ends, another one that does as it or gives up ends too. -/
theorem Ends.unlessGivesUp (ends : Ends body state result)
    (same : ∀ state, body' state = body state ∨ ∃ last, body' state = .inr last ∧ givesUp state last) :
    Ends body' state result ∨
      ∃ later last, Visits body state later ∧ givesUp later last ∧ Ends body' state last := by
  refine Ends.induct (motive := fun state => Ends body' state result ∨
    ∃ later last, Visits body state later ∧ givesUp later last ∧ Ends body' state last) ?_ ?_ ends
  · intro state done
    rcases same state with agrees | ⟨last, gaveUp, holds⟩
    · exact .inl (.done (agrees.trans done))
    · exact .inr ⟨state, last, .refl, holds, .done gaveUp⟩
  · intro state next first rest
    rcases same state with agrees | ⟨last, gaveUp, holds⟩
    · rcases rest with ends | ⟨later, last, visits, holds, ends⟩
      · exact .inl (ends.step (agrees.trans first))
      · exact .inr ⟨later, last, visits.head first, holds, ends.step (agrees.trans first)⟩
    · exact .inr ⟨state, last, .refl, holds, .done gaveUp⟩

end

theorem liftRel_flip {α β γ δ : Type} {left : α → γ → Prop} {right : β → δ → Prop} {first : α ⊕ β}
    {second : γ ⊕ δ} (lifted : Sum.LiftRel left right first second) :
    Sum.LiftRel (flip left) (flip right) second first := by
  cases lifted with
  | inl holds => exact .inl holds
  | inr holds => exact .inr holds

end TurboAgent.Logic.Loop
