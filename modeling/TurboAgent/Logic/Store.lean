import TurboAgent.Logic.RelyGuarantee

/-!
# Programs over a shared record store

The store keeps values under keys.  Reads, writes and listings are atomic, and
`create` inserts a value only where there is none.  Every operation may fail.  A
failed write either did nothing or took effect without being acknowledged; the
caller cannot tell which.

Besides the records, the world keeps two histories that no program can read: the
inserts that were acknowledged to an agent, and the events an agent announced.
Queries stand for everything a program learns from outside; any answer is
possible.
-/

namespace TurboAgent.Logic

/-- The types a family of store programs is built from. -/
structure StoreSignature where
  (Key Value Error Event Filter : Type)
  selects : Filter → Key → Value → Bool
  Query : Type
  Reply : Query → Type

/-- Result of a read. -/
inductive Fetched (V E : Type) where
  | found (value : V)
  | missing
  | failed (error : E)

/-- Result of a write. -/
inductive Stored (E : Type) where
  | stored
  | failed (error : E)

/-- Result of a conditional insert. -/
inductive Inserted (E : Type) where
  | inserted
  | occupied
  | failed (error : E)

/-- Operations of store programs. -/
inductive StoreOp (S : StoreSignature) where
  | get (key : S.Key)
  | put (key : S.Key) (value : S.Value)
  | create (key : S.Key) (value : S.Value)
  | list (filter : S.Filter)
  | emit (event : S.Event)
  | ask (query : S.Query)

/-- Answers of store operations. -/
@[reducible] def StoreOp.Answer {S : StoreSignature} : StoreOp S → Type
  | .get _ => Fetched S.Value S.Error
  | .put _ _ => Stored S.Error
  | .create _ _ => Inserted S.Error
  | .list _ => Except S.Error (List S.Value)
  | .emit _ => Unit
  | .ask query => S.Reply query

/-- Operations that do not change the world. -/
def StoreOp.ReadOnly {S : StoreSignature} : StoreOp S → Prop
  | .get _ | .list _ | .ask _ => True
  | .put _ _ | .create _ _ | .emit _ => False

/-- The interface of store programs. -/
@[reducible] def StoreSignature.interface (S : StoreSignature) : Interface where
  Op := StoreOp S
  Answer := StoreOp.Answer

/-- Programs over the store of a signature. -/
abbrev StoreProgram (S : StoreSignature) (α : Type) := Program S.interface α

namespace StoreProgram

variable {S : StoreSignature}

def get (key : S.Key) : StoreProgram S (Fetched S.Value S.Error) :=
  Program.perform (I := S.interface) (StoreOp.get key)

def put (key : S.Key) (value : S.Value) : StoreProgram S (Stored S.Error) :=
  Program.perform (I := S.interface) (StoreOp.put key value)

def create (key : S.Key) (value : S.Value) : StoreProgram S (Inserted S.Error) :=
  Program.perform (I := S.interface) (StoreOp.create key value)

def list (filter : S.Filter) : StoreProgram S (Except S.Error (List S.Value)) :=
  Program.perform (I := S.interface) (StoreOp.list filter)

def emit (event : S.Event) : StoreProgram S Unit :=
  Program.perform (I := S.interface) (StoreOp.emit event)

def ask (query : S.Query) : StoreProgram S (S.Reply query) :=
  Program.perform (I := S.interface) (StoreOp.ask query)

end StoreProgram

/-- Records, acknowledged inserts and announced events. -/
structure World (S : StoreSignature) (Agent : Type) where
  data : AList fun _ : S.Key => S.Value
  acked : List (Agent × S.Key)
  events : List (Agent × S.Event)

namespace World

variable {S : StoreSignature} {Agent : Type}

/-- Record that an insert under `key` was acknowledged to `agent`. -/
def ack (world : World S Agent) (agent : Agent) (key : S.Key) : World S Agent :=
  { world with acked := (agent, key) :: world.acked }

/-- Record an event of `agent`. -/
def announce (world : World S Agent) (agent : Agent) (event : S.Event) :
    World S Agent :=
  { world with events := (agent, event) :: world.events }

@[simp] theorem acked_announce (world : World S Agent) (agent : Agent)
    (event : S.Event) : (world.announce agent event).acked = world.acked := rfl

@[simp] theorem events_announce (world : World S Agent) (agent : Agent) (event : S.Event) :
    (world.announce agent event).events = (agent, event) :: world.events := rfl

@[simp] theorem acked_ack (world : World S Agent) (agent : Agent)
    (key : S.Key) : (world.ack agent key).acked = (agent, key) :: world.acked := rfl

@[simp] theorem events_ack (world : World S Agent) (agent : Agent)
    (key : S.Key) : (world.ack agent key).events = world.events := rfl

variable [DecidableEq S.Key]

/-- The value stored under a key. -/
def lookup (world : World S Agent) (key : S.Key) : Option S.Value :=
  world.data.lookup key

/-- Store a value under a key. -/
def write (world : World S Agent) (key : S.Key) (value : S.Value) :
    World S Agent :=
  { world with data := world.data.insert key value }

/-- Values a filter selects. -/
def selection (world : World S Agent) (filter : S.Filter) : List S.Value :=
  (world.data.entries.filter fun entry => S.selects filter entry.1 entry.2).map
    fun entry => entry.2

@[simp] theorem lookup_write_self (world : World S Agent) (key : S.Key)
    (value : S.Value) : (world.write key value).lookup key = some value := by
  simp [lookup, write]

theorem lookup_write_of_ne (world : World S Agent) {key other : S.Key}
    (value : S.Value) (distinct : other ≠ key) :
    (world.write key value).lookup other = world.lookup other := by
  simp only [lookup, write]
  exact AList.lookup_insert_ne distinct

theorem lookup_write (world : World S Agent) (key other : S.Key) (value : S.Value) :
    (world.write key value).lookup other =
      if other = key then some value else world.lookup other := by
  by_cases same : other = key
  · subst same
    simp
  · rw [if_neg same, lookup_write_of_ne world value same]

@[simp] theorem lookup_ack (world : World S Agent) (agent : Agent)
    (key other : S.Key) : (world.ack agent key).lookup other = world.lookup other := rfl

@[simp] theorem lookup_announce (world : World S Agent) (agent : Agent)
    (event : S.Event) (key : S.Key) :
    (world.announce agent event).lookup key = world.lookup key := rfl

@[simp] theorem acked_write (world : World S Agent) (key : S.Key)
    (value : S.Value) : (world.write key value).acked = world.acked := rfl

@[simp] theorem events_write (world : World S Agent) (key : S.Key)
    (value : S.Value) : (world.write key value).events = world.events := rfl

/-- One atomic store operation of an agent, with every way it can fail. -/
inductive Performs (agent : Agent) : (op : StoreOp S) → World S Agent →
    op.Answer → World S Agent → Prop where
  | found {world : World S Agent} {key : S.Key} {value : S.Value} :
      world.lookup key = some value →
      Performs agent (.get key) world (.found value) world
  | missing {world : World S Agent} {key : S.Key} :
      world.lookup key = none →
      Performs agent (.get key) world .missing world
  | unread {world : World S Agent} {key : S.Key} (error : S.Error) :
      Performs agent (.get key) world (.failed error) world
  | stored {world : World S Agent} {key : S.Key} {value : S.Value} :
      Performs agent (.put key value) world .stored (world.write key value)
  | putLost {world : World S Agent} {key : S.Key} {value : S.Value}
      (error : S.Error) :
      Performs agent (.put key value) world (.failed error) world
  | putUnacked {world : World S Agent} {key : S.Key} {value : S.Value}
      (error : S.Error) :
      Performs agent (.put key value) world (.failed error) (world.write key value)
  | inserted {world : World S Agent} {key : S.Key} {value : S.Value} :
      world.lookup key = none →
      Performs agent (.create key value) world .inserted
        ((world.write key value).ack agent key)
  | occupied {world : World S Agent} {key : S.Key} {value old : S.Value} :
      world.lookup key = some old →
      Performs agent (.create key value) world .occupied world
  | createLost {world : World S Agent} {key : S.Key} {value : S.Value}
      (error : S.Error) :
      Performs agent (.create key value) world (.failed error) world
  | createUnacked {world : World S Agent} {key : S.Key} {value : S.Value}
      (error : S.Error) :
      world.lookup key = none →
      Performs agent (.create key value) world (.failed error)
        (world.write key value)
  | listed {world : World S Agent} {filter : S.Filter} {values : List S.Value} :
      values.Perm (world.selection filter) →
      Performs agent (.list filter) world (.ok values) world
  | unlisted {world : World S Agent} {filter : S.Filter} (error : S.Error) :
      Performs agent (.list filter) world (.error error) world
  | emitted {world : World S Agent} {event : S.Event} :
      Performs agent (.emit event) world () (world.announce agent event)
  | asked {world : World S Agent} {query : S.Query} (reply : S.Reply query) :
      Performs agent (.ask query) world reply world

/-- The store machine of programs that may start further agents. -/
def forkingMachine (S : StoreSignature) [DecidableEq S.Key] {Agent Result : Type}
    (spawn : Agent → (op : StoreOp S) → op.Answer →
      Option (Agent × StoreProgram S Result)) :
    Machine S.interface Agent Result where
  State := World S Agent
  perform := Performs
  spawn

/-- The store without failures, with given answers to the questions. -/
def serve (agent : Agent) (reply : (query : S.Query) → S.Reply query) :
    (op : StoreOp S) → World S Agent → op.Answer × World S Agent
  | .get key, world =>
      match world.lookup key with
      | some value => (.found value, world)
      | none => (.missing, world)
  | .put key value, world => (.stored, world.write key value)
  | .create key value, world =>
      match world.lookup key with
      | some _ => (.occupied, world)
      | none => (.inserted, (world.write key value).ack agent key)
  | .list filter, world => (.ok (world.selection filter), world)
  | .emit event, world => ((), world.announce agent event)
  | .ask query, world => (reply query, world)

theorem serve_performs (agent : Agent) (reply : (query : S.Query) → S.Reply query)
    (op : StoreOp S) (world : World S Agent) :
    Performs agent op world (serve agent reply op world).1
      (serve agent reply op world).2 := by
  cases op with
  | get key =>
      cases found : world.lookup key with
      | some value =>
          simp only [serve, found]
          exact .found found
      | none =>
          simp only [serve, found]
          exact .missing found
  | put key value => exact .stored
  | create key value =>
      cases found : world.lookup key with
      | some old =>
          simp only [serve, found]
          exact .occupied found
      | none =>
          simp only [serve, found]
          exact .inserted found
  | list filter => exact .listed (List.Perm.refl _)
  | emit event => exact .emitted
  | ask query => exact .asked (reply query)

/-- A read, a listing or a question changes nothing. -/
theorem Performs.eq_of_readOnly {agent : Agent} {op : StoreOp S}
    {world world' : World S Agent} {answer : op.Answer}
    (performed : Performs agent op world answer world') (quiet : op.ReadOnly) :
    world' = world := by
  cases performed <;> first | rfl | exact absurd quiet (by simp [StoreOp.ReadOnly])

end World

section Rules

variable {S : StoreSignature} [DecidableEq S.Key] {Agent Result α : Type}
  {spawn : Agent → (op : StoreOp S) → op.Answer → Option (Agent × StoreProgram S Result)}
  {C : Contract (World.forkingMachine S spawn)} {agent : Agent} {P : World S Agent → Prop}
  {Q : α → World S Agent → Prop}

/-- A call that changes nothing keeps every stable assertion, whatever it
answers. -/
theorem Contract.Triple.readOnly {op : StoreOp S}
    {next : op.Answer → StoreProgram S α} (quiet : op.ReadOnly) (stable : C.Stable agent P)
    (kept : ∀ world, P world → C.guarantee agent world world) (started : ∀ world answer, P world →
      ∀ child program, spawn agent op answer = some (child, program) →
        C.start child program world)
    (rest : ∀ answer, C.Triple agent P (next answer) Q) :
    C.Triple agent P (.call op next) Q := by
  apply Contract.Triple.call stable (fun _ => P)
  · intro world answer world' holds performed
    obtain rfl := World.Performs.eq_of_readOnly performed quiet
    exact ⟨kept _ holds, holds⟩
  · intro world answer world' holds performed
    obtain rfl := World.Performs.eq_of_readOnly performed quiet
    exact started _ answer holds
  · exact rest

variable {T : World S Agent → Prop}

/-- The rule for a write.  A failed write may or may not have taken effect, so its
continuation starts from an assertion `R` that covers both. -/
theorem Contract.Triple.put {key : S.Key} {value : S.Value}
    {next : Stored S.Error → StoreProgram S α} {R : World S Agent → Prop}
    (stable : C.Stable agent P) (silent : ∀ answer, spawn agent (.put key value) answer = none)
    (kept : ∀ world, P world → C.guarantee agent world world ∧ R world)
    (written : ∀ world, P world →
      C.guarantee agent world (world.write key value) ∧
      T (world.write key value) ∧ R (world.write key value))
    (stored : C.Triple agent T (next .stored) Q)
    (failed : ∀ error, C.Triple agent R (next (.failed error)) Q) :
    C.Triple agent P (.call (StoreOp.put key value) next) Q := by
  apply Contract.Triple.call stable fun (answer : Stored S.Error) =>
    match answer with
    | .stored => T
    | .failed _ => R
  · intro world answer world' holds performed
    cases performed with
    | stored => exact ⟨(written world holds).1, (written world holds).2.1⟩
    | putLost error => exact kept world holds
    | putUnacked error => exact ⟨(written world holds).1, (written world holds).2.2⟩
  · intro world answer world' _ _ child program spawned
    have none := silent answer
    exact absurd (none.symm.trans spawned) (by simp)
  · intro answer
    cases answer with
    | stored => exact stored
    | failed error => exact failed error

/-- The rule for a conditional insert.  Only an acknowledged insert is recorded for
the agent. -/
theorem Contract.Triple.create {key : S.Key} {value : S.Value}
    {next : Inserted S.Error → StoreProgram S α} {R : World S Agent → Prop}
    (stable : C.Stable agent P) (silent : ∀ answer, spawn agent (.create key value) answer = none)
    (kept : ∀ world, P world → C.guarantee agent world world ∧ R world)
    (written : ∀ world, P world → world.lookup key = none →
      C.guarantee agent world (world.write key value) ∧ R (world.write key value))
    (acked : ∀ world, P world → world.lookup key = none →
      C.guarantee agent world ((world.write key value).ack agent key) ∧
      T ((world.write key value).ack agent key)) (inserted : C.Triple agent T (next .inserted) Q)
    (occupied : C.Triple agent (fun world => P world ∧ world.lookup key ≠ none) (next .occupied) Q)
    (failed : ∀ error, C.Triple agent R (next (.failed error)) Q) :
    C.Triple agent P (.call (StoreOp.create key value) next) Q := by
  apply Contract.Triple.call stable fun (answer : Inserted S.Error) =>
    match answer with
    | .inserted => T
    | .occupied => fun world => P world ∧ world.lookup key ≠ none
    | .failed _ => R
  · intro world answer world' holds performed
    cases performed with
    | inserted free => exact acked world holds free
    | occupied present =>
        refine ⟨(kept world holds).1, holds, ?_⟩
        rw [present]
        simp
    | createLost error => exact kept world holds
    | createUnacked error free => exact written world holds free
  · intro world answer world' _ _ child program spawned
    have none := silent answer
    exact absurd (none.symm.trans spawned) (by simp)
  · intro answer
    cases answer with
    | inserted => exact inserted
    | occupied => exact occupied
    | failed error => exact failed error

/-- The rule for an event. -/
theorem Contract.Triple.emit {event : S.Event} {next : Unit → StoreProgram S α}
    (stable : C.Stable agent P) (silent : ∀ answer, spawn agent (.emit event) answer = none)
    (announced : ∀ world, P world →
      C.guarantee agent world (world.announce agent event) ∧
      T (world.announce agent event)) (rest : C.Triple agent T (next ()) Q) :
    C.Triple agent P (.call (StoreOp.emit event) next) Q := by
  apply Contract.Triple.call stable fun _ => T
  · intro world answer world' holds performed
    cases performed with
    | emitted => exact announced world holds
  · intro world answer world' _ _ child program spawned
    have none := silent answer
    exact absurd (none.symm.trans spawned) (by simp)
  · intro answer
    exact rest

end Rules

end TurboAgent.Logic
