import Mathlib

/-!
# Transactions with faults

A connection to a database has the content that is committed and that of its transaction, if one
is open.  A plan says which statements fail and how: a statement may fail before it is run, or
when it is run, and then the database may or may not have rolled the whole transaction back.
-/

namespace TurboAgent.Logic.Transaction

universe u v

/-- A connection to a database. -/
structure Connection (Content : Type u) where
  committed : Content
  transaction : Option Content
  deriving DecidableEq

/-- How a statement fails. -/
inductive Fault where
  | prepare
  | step (rolledBack : Bool)
  deriving DecidableEq

variable {Content : Type u} {Label : Type v}

/-- What runs on a connection, and whether it succeeds. -/
abbrev Work (Content : Type u) := Connection Content → Bool × Connection Content

/-- A statement changes the connection or fails. -/
def statement (plan : Label → Option Fault) (label : Label)
    (change : Connection Content → Option (Connection Content)) : Work Content := fun connection =>
  match plan label with
  | some .prepare => (false, connection)
  | some (.step rolledBack) =>
      (false, if rolledBack then { connection with transaction := none } else connection)
  | none =>
      match change connection with
      | none => (false, connection)
      | some connection => (true, connection)

/-- A transaction is begun outside of one. -/
def begin (connection : Connection Content) : Option (Connection Content) :=
  match connection.transaction with
  | none => some { connection with transaction := some connection.committed }
  | some _ => none

/-- A change of the content, on its own or within the transaction. -/
def update (change : Content → Option Content) (connection : Connection Content) :
    Option (Connection Content) :=
  match connection.transaction with
  | none => (change connection.committed).map (⟨·, none⟩)
  | some content => (change content).map fun content => ⟨connection.committed, some content⟩

/-- The content of the transaction is committed. -/
def commit (connection : Connection Content) : Option (Connection Content) :=
  connection.transaction.map (⟨·, none⟩)

/-- A transaction that is open is rolled back. -/
def rollback (connection : Connection Content) : Connection Content :=
  { connection with transaction := none }

/-- Work goes on after work that succeeds. -/
def andThen (first second : Work Content) : Work Content := fun connection =>
  let (succeeds, connection) := first connection
  if succeeds then second connection else (false, connection)

/-- Work between the begin and the end of a transaction: it leaves what is committed, and the
transaction open if it succeeds. -/
def Within (work : Work Content) : Prop := ∀ committed content,
  (work ⟨committed, some content⟩).2.committed = committed ∧
    ((work ⟨committed, some content⟩).1 = true → ∃ content',
      work ⟨committed, some content⟩ = (true, ⟨committed, some content'⟩))

variable {plan : Label → Option Fault} {label : Label} {committed content : Content}

theorem within_skip : Within fun connection : Connection Content => (true, connection) :=
  fun _ content => ⟨rfl, fun _ => ⟨content, rfl⟩⟩

theorem statement_update (change : Content → Option Content) :
    (∃ fault, plan label = some fault ∧
      statement plan label (update change) ⟨committed, some content⟩ =
        (false, ⟨committed, if fault = .step true then none else some content⟩)) ∨
    plan label = none ∧ change content = none ∧
      statement plan label (update change) ⟨committed, some content⟩ =
        (false, ⟨committed, some content⟩) ∨
    plan label = none ∧ ∃ content', change content = some content' ∧
      statement plan label (update change) ⟨committed, some content⟩ =
        (true, ⟨committed, some content'⟩) := by
  unfold statement
  cases planned : plan label with
  | some fault =>
      refine .inl ⟨fault, rfl, ?_⟩
      cases fault with
      | prepare => rfl
      | step rolledBack => cases rolledBack <;> rfl
  | none =>
      cases changed : change content with
      | none =>
          refine .inr (.inl ⟨rfl, rfl, ?_⟩)
          simp [update, changed]
      | some content' =>
          refine .inr (.inr ⟨rfl, content', rfl, ?_⟩)
          simp [update, changed]

theorem within_statement (change : Content → Option Content) :
    Within (statement plan label (update change)) := by
  intro committed content
  rcases @statement_update _ _ plan label committed content change with
    ⟨fault, -, same⟩ | ⟨-, -, same⟩ | ⟨-, content', -, same⟩
  · rw [same]
    exact ⟨rfl, fun absent => absurd absent Bool.false_ne_true⟩
  · rw [same]
    exact ⟨rfl, fun absent => absurd absent Bool.false_ne_true⟩
  · rw [same]
    exact ⟨rfl, fun _ => ⟨content', rfl⟩⟩

variable {first : Work Content}

theorem andThen_failed {connection : Connection Content} (failed : (first connection).1 = false)
    (second : Work Content) : andThen first second connection = (false, (first connection).2) := by
  rw [andThen]
  dsimp only
  rw [failed, if_neg Bool.false_ne_true]

theorem andThen_ran {connection connection' : Connection Content}
    (ran : first connection = (true, connection')) (second : Work Content) :
    andThen first second connection = second connection' := by
  rw [andThen, ran]
  rfl

theorem within_andThen {second : Work Content} (within : Within first) (later : Within second) :
    Within (andThen first second) := by
  intro committed content
  obtain ⟨same, opened⟩ := within committed content
  cases succeeds : (first ⟨committed, some content⟩).1 with
  | false =>
      rw [andThen_failed succeeds]
      exact ⟨same, fun absent => absurd absent Bool.false_ne_true⟩
  | true =>
      obtain ⟨content', ran⟩ := opened succeeds
      rw [andThen_ran ran]
      exact later committed content'

/-- Work that goes on gets from content to content in two steps. -/
theorem andThen_eq {second : Work Content} (within : Within first) {after : Content} :
    andThen first second ⟨committed, some content⟩ = (true, ⟨committed, some after⟩) ↔
      ∃ between, first ⟨committed, some content⟩ = (true, ⟨committed, some between⟩) ∧
        second ⟨committed, some between⟩ = (true, ⟨committed, some after⟩) := by
  obtain ⟨-, opened⟩ := within committed content
  cases succeeds : (first ⟨committed, some content⟩).1 with
  | false =>
      rw [andThen_failed succeeds]
      refine iff_of_false (fun same => absurd (congrArg Prod.fst same) Bool.false_ne_true) ?_
      rintro ⟨between, ran, -⟩
      rw [ran] at succeeds
      cases succeeds
  | true =>
      obtain ⟨between, ran⟩ := opened succeeds
      rw [andThen_ran ran]
      constructor
      · exact fun same => ⟨between, ran, same⟩
      · rintro ⟨other, same, isSecond⟩
        have isOther : between = other := by simpa using ran.symm.trans same
        rw [isOther]
        exact isSecond

end TurboAgent.Logic.Transaction
