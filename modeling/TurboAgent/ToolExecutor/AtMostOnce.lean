import TurboAgent.ToolExecutor.Model

/-!
# Tool effects happen at most once

Any number of executors share one store.  Their calls interleave in every order,
an executor may stop between any two calls, and every store call may fail, also
after it took effect.  The callback of an effect identity is entered at most once,
and the journal record of the identity only moves forward.

The argument rests on the claim: it is inserted atomically and never removed, so at
most one agent is told that it owns an identity.  Only that agent overwrites the
journal record or enters the callback; everybody else can at most insert the
`planned` record where there is none.
-/

namespace TurboAgent.ToolExecutor

open Logic Relation
open Contract.Triple (emit strengthen)

abbrev ToolWorld := World signature Agent

/-- Position of a journal entry in the order absent, planned, started, committed. -/
def journalRank : Option Json → Nat
  | none => 0
  | some record =>
      if stringEquals record "phase" Phase.planned.text then 1
      else if stringEquals record "phase" Phase.started.text then 2
      else if stringEquals record "phase" Phase.committed.text then 3
      else 4

/-- A journal entry may move forward, and a committed one stays as it is. -/
def JournalAdvances (old new : Option Json) : Prop :=
  journalRank old ≤ journalRank new ∧ (journalRank old = 3 → new = old)

theorem JournalAdvances.refl (entry : Option Json) : JournalAdvances entry entry :=
  ⟨Nat.le_refl _, fun _ => rfl⟩

theorem JournalAdvances.trans {first second third : Option Json}
    (left : JournalAdvances first second) (right : JournalAdvances second third) :
    JournalAdvances first third := by
  refine ⟨Nat.le_trans left.1 right.1, ?_⟩
  intro committed
  have same := left.2 committed
  rw [← same] at committed
  rw [right.2 committed, same]

def journalEntry (world : ToolWorld) (id : String) : Option Json :=
  world.lookup (.toolJournal, id)

def claimEntry (world : ToolWorld) (id : String) : Option Json :=
  world.lookup (.toolClaims, id)

/-- The agent was told that its claim of the id was inserted. -/
def Owns (world : ToolWorld) (agent : Agent) (id : String) : Prop :=
  (agent, (Collection.toolClaims, id)) ∈ world.acked

/-- Number of times the callback of an identity was entered. -/
def entryCount (world : ToolWorld) (identity : EffectIdentity) : Nat :=
  (world.events.map Prod.snd).count identity

section

variable (sha256 : String → String)

/-- Invariant of the shared store.  Ownership is exclusive and backed by a stored
claim, and so is everything an owner does: a journal entry beyond `planned` and an
entered callback. -/
structure Invariant (world : ToolWorld) : Prop where
  ownedClaim : ∀ agent id, Owns world agent id → claimEntry world id ≠ none
  exclusive : ∀ agent other id, Owns world agent id → Owns world other id →
    agent = other
  startedClaim : ∀ id, 2 ≤ journalRank (journalEntry world id) →
    claimEntry world id ≠ none
  entered : ∀ identity, entryCount world identity ≤ 1
  enteredClaim : ∀ identity, 0 < entryCount world identity →
    claimEntry world (journalId sha256 identity) ≠ none
  knownPhase : ∀ id, journalRank (journalEntry world id) ≤ 3

/-- What one call of an agent may do to the shared store. -/
structure Evolves (agent : Agent) (world world' : ToolWorld) : Prop where
  claims : ∀ id, claimEntry world id ≠ none → claimEntry world' id ≠ none
  journal : ∀ id, JournalAdvances (journalEntry world id) (journalEntry world' id)
  owners : ∀ other id, Owns world other id → Owns world' other id
  foreignJournal : ∀ other id, other ≠ agent → Owns world other id →
    journalEntry world' id = journalEntry world id ∨
    (journalEntry world id = none ∧ journalRank (journalEntry world' id) = 1)
  foreignEntries : ∀ other identity, other ≠ agent →
    Owns world other (journalId sha256 identity) →
      entryCount world' identity = entryCount world identity

/-- A call that keeps the invariant and evolves the store. -/
def Keeps (agent : Agent) (world world' : ToolWorld) : Prop :=
  Invariant sha256 world → Invariant sha256 world' ∧ Evolves sha256 agent world world'

theorem Evolves.refl (agent : Agent) (world : ToolWorld) :
    Evolves sha256 agent world world where
  claims := fun _ present => present
  journal := fun _ => .refl _
  owners := fun _ _ owned => owned
  foreignJournal := fun _ _ _ _ => .inl rfl
  foreignEntries := fun _ _ _ _ => rfl

/-- The interference contract of executors: every call keeps the invariant.  A pool
task starts in a world where the invariant holds. -/
def contract : Contract (machine sha256) where
  rely := fun agent world world' => ∃ other, other ≠ agent ∧ Keeps sha256 other world world'
  guarantee := Keeps sha256
  compatible := fun distinct kept => ⟨_, distinct, kept⟩
  start := fun _ program world => Invariant sha256 world ∧
    ∃ task, program = (executeOne sha256 task >>= fun call => .done (.task call))
  post := fun _ _ _ => True

/-- Assertions of an owner: the invariant, the ownership, and bounds on the journal
entry and on the entries of the callback. -/
structure Holds (agent : Agent) (identity : EffectIdentity) (low high entries : Nat)
    (world : ToolWorld) : Prop where
  invariant : Invariant sha256 world
  owns : Owns world agent (journalId sha256 identity)
  lower : low ≤ journalRank (journalEntry world (journalId sha256 identity))
  upper : journalRank (journalEntry world (journalId sha256 identity)) ≤ high
  count : entryCount world identity = entries

/-- A program that needs and keeps nothing but the invariant. -/
def Safe (agent : Agent) {α : Type} (program : Prog α) : Prop :=
  (contract sha256).Triple agent (Invariant sha256) program
    fun _ => Invariant sha256

variable {sha256}

theorem invariant_stable (sha256 : String → String) (agent : Agent) :
    (contract sha256).Stable agent (Invariant sha256) :=
  fun _ _ ⟨_, _, kept⟩ holds => (kept holds).1

theorem quiet (agent : Agent) (world : ToolWorld) (holds : Invariant sha256 world) :
    Keeps sha256 agent world world :=
  fun _ => ⟨holds, .refl sha256 agent world⟩

variable {agent : Agent} {world world' : ToolWorld}

theorem Keeps.guaranteed (kept : Keeps sha256 agent world world') (holds : Invariant sha256 world) :
    (contract sha256).guarantee agent world world' ∧ Invariant sha256 world' :=
  ⟨kept, (kept holds).1⟩

/-- Others cannot invalidate what an owner knows: at most they insert the planned
record. -/
theorem holds_stable (sha256 : String → String) (agent : Agent) (identity : EffectIdentity)
    (low high entries : Nat) (planned : 1 ≤ high) :
    (contract sha256).Stable agent (Holds sha256 agent identity low high entries) := by
  intro world world' ⟨other, distinct, kept⟩ holds
  obtain ⟨invariant, evolves⟩ := kept holds.invariant
  have entry := evolves.foreignJournal agent _ distinct.symm holds.owns
  refine ⟨invariant, evolves.owners _ _ holds.owns, ?_, ?_, ?_⟩
  · exact Nat.le_trans holds.lower (evolves.journal _).1
  · rcases entry with same | ⟨_, rank⟩
    · rw [same]
      exact holds.upper
    · rw [rank]
      exact planned
  · rw [evolves.foreignEntries agent identity distinct.symm holds.owns]
    exact holds.count

/-! ## Effects of the writes -/

theorem journalRank_record (sha256 : String → String) (id threadId runId : String) (call : ToolCall)
    (phase : Phase) (timestamp : String) :
    journalRank (some (journalRecord sha256 id threadId runId call phase timestamp)) =
      match phase with
      | .planned => 1
      | .started => 2
      | .committed => 3
      | .admitted => 4 := by
  cases phase <;> rfl

variable {id : String} {record : Json}

/-- A journal write keeps the contract when it moves the entry forward and the
writer either owns the id or inserts the planned record. -/
theorem keeps_journal (known : journalRank (some record) ≤ 3)
    (advance : JournalAdvances (journalEntry world id) (some record))
    (permitted : Owns world agent id ∨
      (journalEntry world id = none ∧ journalRank (some record) = 1))
    (lookups : ∀ key, world'.lookup key =
      if key = (Collection.toolJournal, id) then some record else world.lookup key)
    (owners : ∀ other claim, Owns world' other claim ↔ Owns world other claim)
    (events : world'.events = world.events) : Keeps sha256 agent world world' := by
  intro invariant
  have claim : ∀ other, claimEntry world' other = claimEntry world other := by
    intro other
    simp [claimEntry, lookups]
  have journal : ∀ other, journalEntry world' other =
      if other = id then some record else journalEntry world other := by
    intro other
    simp [journalEntry, lookups]
  have counts : ∀ identity, entryCount world' identity = entryCount world identity := by
    intro identity
    simp [entryCount, events]
  constructor
  · constructor
    · intro other claimId owned
      rw [claim]
      exact invariant.ownedClaim other claimId ((owners _ _).mp owned)
    · intro left right claimId leftOwns rightOwns
      exact invariant.exclusive left right claimId ((owners _ _).mp leftOwns)
        ((owners _ _).mp rightOwns)
    · intro other started
      rw [claim]
      rw [journal] at started
      split at started
      next same =>
        subst same
        rcases permitted with owned | ⟨_, planned⟩
        · exact invariant.ownedClaim agent _ owned
        · omega
      next => exact invariant.startedClaim other started
    · intro identity
      rw [counts]
      exact invariant.entered identity
    · intro identity positive
      rw [claim]
      rw [counts] at positive
      exact invariant.enteredClaim identity positive
    · intro other
      rw [journal]
      split
      next => exact known
      next => exact invariant.knownPhase other
  · constructor
    · intro other present
      rw [claim]
      exact present
    · intro other
      rw [journal]
      split
      next same =>
        subst same
        exact advance
      next => exact .refl _
    · intro other claimId owned
      exact (owners _ _).mpr owned
    · intro other claimId distinct owned
      rw [journal]
      split
      next same =>
        subst same
        rcases permitted with mine | planned
        · exact absurd (invariant.exclusive other agent _ owned mine) distinct
        · exact .inr planned
      next => exact .inl rfl
    · intro other identity _ _
      exact counts identity

/-- Inserting an absent claim keeps the contract; nobody owned the id before. -/
theorem keeps_claim (free : claimEntry world id = none) (lookups : ∀ key, world'.lookup key =
      if key = (Collection.toolClaims, id) then some record else world.lookup key)
    (owners : ∀ other claim, Owns world' other claim →
      Owns world other claim ∨ (other = agent ∧ claim = id))
    (grown : ∀ other claim, Owns world other claim → Owns world' other claim)
    (events : world'.events = world.events) : Keeps sha256 agent world world' := by
  intro invariant
  have unowned : ∀ other, ¬Owns world other id := by
    intro other owned
    exact invariant.ownedClaim other id owned free
  have claim : ∀ other, claimEntry world' other =
      if other = id then some record else claimEntry world other := by
    intro other
    simp [claimEntry, lookups]
  have present : ∀ other, claimEntry world other ≠ none →
      claimEntry world' other ≠ none := by
    intro other before
    rw [claim]
    split
    next => simp
    next => exact before
  have journal : ∀ other, journalEntry world' other = journalEntry world other := by
    intro other
    simp [journalEntry, lookups]
  have counts : ∀ identity, entryCount world' identity = entryCount world identity := by
    intro identity
    simp [entryCount, events]
  constructor
  · constructor
    · intro other claimId owned
      rcases owners other claimId owned with before | ⟨_, same⟩
      · exact present claimId (invariant.ownedClaim other claimId before)
      · rw [claim, if_pos same]
        simp
    · intro left right claimId leftOwns rightOwns
      rcases owners left claimId leftOwns with leftBefore | ⟨leftAgent, leftId⟩
      · rcases owners right claimId rightOwns with rightBefore | ⟨_, rightId⟩
        · exact invariant.exclusive left right claimId leftBefore rightBefore
        · exact absurd (rightId ▸ leftBefore) (unowned left)
      · rcases owners right claimId rightOwns with rightBefore | ⟨rightAgent, _⟩
        · exact absurd (leftId ▸ rightBefore) (unowned right)
        · exact leftAgent.trans rightAgent.symm
    · intro other started
      rw [journal] at started
      exact present other (invariant.startedClaim other started)
    · intro identity
      rw [counts]
      exact invariant.entered identity
    · intro identity positive
      rw [counts] at positive
      exact present _ (invariant.enteredClaim identity positive)
    · intro other
      rw [journal]
      exact invariant.knownPhase other
  · constructor
    · exact present
    · intro other
      rw [journal]
      exact .refl _
    · exact grown
    · intro other claimId _ _
      exact .inl (journal claimId)
    · intro other identity _ _
      exact counts identity

variable {identity : EffectIdentity}

theorem keeps_enter (owned : Owns world agent (journalId sha256 identity))
    (first : entryCount world identity = 0) :
    Keeps sha256 agent world (world.announce agent identity) := by
  intro invariant
  have counts : ∀ other, entryCount (world.announce agent identity) other =
      entryCount world other + if identity = other then 1 else 0 := by
    intro other
    simp [entryCount, List.count_cons]
  constructor
  · constructor
    · exact invariant.ownedClaim
    · exact invariant.exclusive
    · exact invariant.startedClaim
    · intro other
      rw [counts]
      have before := invariant.entered other
      split
      next same =>
        subst same
        omega
      next => omega
    · intro other positive
      rw [counts] at positive
      split at positive
      next same =>
        subst same
        exact invariant.ownedClaim agent _ owned
      next => exact invariant.enteredClaim other (by omega)
    · exact invariant.knownPhase
  · constructor
    · exact fun _ present => present
    · exact fun _ => .refl _
    · exact fun _ _ before => before
    · exact fun _ _ _ _ => .inl rfl
    · intro other another distinct foreign
      rw [counts, if_neg, Nat.add_zero]
      intro same
      subst same
      exact distinct (invariant.exclusive other agent _ foreign owned)

/-! ## Programs of the executor -/

/-- Only an accepted submission starts an agent: a further one, which runs the task
of one call. -/
theorem spawn_cases {child : Agent} {op : StoreOp signature} {answer : op.Answer}
    {program : Prog AgentResult} (spawned : spawn sha256 agent op answer = some (child, program)) :
    child ≠ agent ∧
    ∃ task, program = (executeOne sha256 task >>= fun call => .done (.task call)) := by
  cases op with
  | ask query =>
      cases query with
      | trySubmit index task =>
          cases answer with
          | true =>
              have started := Option.some.inj spawned
              have same := congrArg Prod.fst started
              refine ⟨?_, task, (congrArg Prod.snd started).symm⟩
              rw [← show index :: agent = child from same]
              exact List.cons_ne_self index agent
          | false => cases spawned
      | _ => cases spawned
  | _ => cases spawned

theorem safe_done {α : Type} (agent : Agent) (value : α) :
    Safe sha256 agent (.done value) :=
  .done (invariant_stable sha256 agent) fun _ holds => holds

theorem Safe.bind {α β : Type} {program : Prog α} {rest : α → Prog β}
    (head : Safe sha256 agent program) (tail : ∀ value, Safe sha256 agent (rest value)) :
    Safe sha256 agent (program >>= rest) :=
  Contract.Triple.bind head tail

/-- A call that changes nothing keeps every stable assertion over the invariant.
An agent it starts finds the invariant. -/
theorem triple_perform {P : ToolWorld → Prop} (agent : Agent) (op : StoreOp signature)
    (readOnly : op.ReadOnly) (stable : (contract sha256).Stable agent P)
    (holds : ∀ world, P world → Invariant sha256 world) :
    (contract sha256).Triple agent P (Program.perform (I := signature.interface) op)
      fun _ => P := by
  apply Contract.Triple.readOnly readOnly stable
  · intro world assumed
    exact quiet agent world (holds world assumed)
  · intro world answer assumed child program spawned
    have started := spawn_cases spawned
    exact ⟨holds world assumed, started.2⟩
  · intro answer
    exact .done stable fun _ assumed => assumed

theorem triple_ask {P : ToolWorld → Prop} (agent : Agent) (query : Query)
    (stable : (contract sha256).Stable agent P)
    (holds : ∀ world, P world → Invariant sha256 world) :
    (contract sha256).Triple agent P (ask query) fun _ => P :=
  triple_perform agent (.ask query) trivial stable holds

theorem safe_perform (agent : Agent) (op : StoreOp signature) (readOnly : op.ReadOnly) :
    Safe sha256 agent (Program.perform (I := signature.interface) op) :=
  triple_perform agent op readOnly (invariant_stable sha256 agent) fun _ holds => holds

theorem safe_ask (agent : Agent) (query : Query) :
    Safe sha256 agent (ask query) :=
  safe_perform agent (.ask query) trivial

theorem safe_storeGet (agent : Agent) (collection : Collection) (id : String) :
    Safe sha256 agent (storeGet collection id) := by
  apply Safe.bind (safe_perform agent (.get (collection, id)) trivial)
  intro answer
  cases answer <;> exact safe_done agent _

theorem safe_storeList (agent : Agent) (collection : Collection) (key value : String) :
    Safe sha256 agent (storeList collection key value) := by
  apply Safe.bind (safe_perform agent (.list ⟨collection, key, value⟩) trivial)
  intro answer
  cases answer <;> exact safe_done agent _

theorem safe_journalLoad (agent : Agent) (id threadId runId : String) (call : ToolCall) :
    Safe sha256 agent (journalLoad sha256 id threadId runId call) := by
  apply Safe.bind (safe_storeGet agent .toolJournal id)
  intro answer
  split
  next =>
    apply Safe.bind (safe_storeList agent .toolJournal "journal_id" id)
    intro records
    split <;> exact safe_done agent _
  next => exact safe_done agent _
  next =>
    split <;> exact safe_done agent _

theorem safe_journalLookup (agent : Agent) (id threadId runId : String) (call : ToolCall) :
    Safe sha256 agent (journalLookup sha256 id threadId runId call) := by
  apply Safe.bind (safe_journalLoad agent id threadId runId call)
  intro answer
  split
  next =>
    split
    next => exact safe_done agent _
    apply Safe.bind (safe_journalLoad agent _ threadId runId _)
    intro legacy
    split <;> exact safe_done agent _
  next => exact safe_done agent _

theorem keeps_planned {threadId runId timestamp : String} {call : ToolCall}
    (free : world.lookup (Collection.toolJournal, id) = none) (lookups : ∀ key, world'.lookup key =
      if key = (Collection.toolJournal, id) then
        some (journalRecord sha256 id threadId runId call .planned timestamp)
      else world.lookup key)
    (owners : ∀ other claim, Owns world' other claim ↔ Owns world other claim)
    (events : world'.events = world.events) : Keeps sha256 agent world world' := by
  have absent : journalEntry world id = none := free
  have rank := journalRank_record sha256 id threadId runId call .planned timestamp
  apply keeps_journal _ _ (.inr ⟨absent, rank⟩) lookups owners events
  · rw [rank]
    decide
  · rw [absent]
    refine ⟨Nat.zero_le _, ?_⟩
    intro impossible
    cases impossible

theorem safe_createPlanned (agent : Agent) (id threadId runId : String) (call : ToolCall) :
    Safe sha256 agent
      (journalCreate sha256 .toolJournal id threadId runId call .planned) := by
  apply Safe.bind (safe_ask agent .timestamp)
  intro timestamp
  have stable := invariant_stable sha256 agent
  apply (storeCreate_triple stable stable stable (fun _ => rfl) _ _ _
    fun _ holds => holds).weaken (fun _ holds => holds) fun _ _ holds => holds.1
  · intro world holds
    exact (quiet agent world holds).guaranteed holds
  · intro world holds free
    apply Keeps.guaranteed _ holds
    apply keeps_planned free
    · intro key
      exact World.lookup_write world _ key _
    · intro other claim
      rfl
    · rfl
  · intro world holds free
    apply Keeps.guaranteed _ holds
    apply keeps_planned free
    · intro key
      exact World.lookup_write world _ key _
    · intro other claim
      simp [Owns]
    · rfl

/-- An acknowledged claim makes its inserter the owner, before any start of the
effect. -/
theorem claim_acked (holds : Invariant sha256 world)
    (free : claimEntry world (journalId sha256 identity) = none) :
    Keeps sha256 agent world
      ((world.write (.toolClaims, journalId sha256 identity) record).ack agent
        (.toolClaims, journalId sha256 identity)) ∧
    Holds sha256 agent identity 0 1 0
      ((world.write (.toolClaims, journalId sha256 identity) record).ack agent
        (.toolClaims, journalId sha256 identity)) := by
  have kept : Keeps sha256 agent world
      ((world.write (.toolClaims, journalId sha256 identity) record).ack agent
        (.toolClaims, journalId sha256 identity)) := by
    apply keeps_claim free
    · intro key
      exact World.lookup_write world _ key record
    · intro other claim owned
      simp only [Owns, World.acked_ack, World.acked_write, List.mem_cons,
        Prod.mk.injEq, true_and] at owned
      exact owned.symm
    · intro other claim owned
      exact List.mem_cons_of_mem _ owned
    · rfl
  refine ⟨kept, (kept holds).1, List.mem_cons_self, Nat.zero_le _, ?_, ?_⟩
  · have started := holds.startedClaim (journalId sha256 identity)
    simp only [journalEntry, World.lookup_ack] at started ⊢
    rw [World.lookup_write_of_ne world record (by simp)]
    by_contra above
    exact started (Nat.lt_of_not_le above) free
  · have entered := holds.enteredClaim identity
    by_contra nonzero
    exact entered (Nat.pos_of_ne_zero nonzero) free

theorem triple_claim (agent : Agent) (identity : EffectIdentity)
    (threadId runId : String) (call : ToolCall) :
    (contract sha256).Triple agent (Invariant sha256)
      (journalCreate sha256 .toolClaims (journalId sha256 identity) threadId runId call
        .admitted)
      fun status world => Invariant sha256 world ∧
        (status = .ok → Holds sha256 agent identity 0 1 0 world) := by
  apply Contract.Triple.bind (safe_ask agent .timestamp)
  intro timestamp
  have stable := invariant_stable sha256 agent
  have owned := holds_stable sha256 agent identity 0 1 0 (Nat.le_refl 1)
  apply storeCreate_triple stable owned stable (fun _ => rfl)
  · intro world holds
    exact (quiet agent world holds).guaranteed holds
  · intro world holds free
    apply Keeps.guaranteed _ holds
    apply keeps_claim free
    · intro key
      exact World.lookup_write world _ key _
    · intro other claim before
      exact .inl before
    · intro other claim before
      exact before
    · rfl
  · intro world holds free
    exact claim_acked holds free
  · intro world holds
    exact holds.invariant

theorem owner_writes {low high entries rank : Nat} (further : high ≤ rank) (uncommitted : high < 3)
    (known : rank ≤ 3) (written : journalRank (some record) = rank)
    (holds : Holds sha256 agent identity low high entries world) :
    Keeps sha256 agent world
      (world.write (.toolJournal, journalId sha256 identity) record) ∧
    Holds sha256 agent identity rank rank entries
      (world.write (.toolJournal, journalId sha256 identity) record) := by
  have kept : Keeps sha256 agent world
      (world.write (.toolJournal, journalId sha256 identity) record) := by
    apply keeps_journal (written ▸ known) _ (.inl holds.owns)
    · intro key
      exact World.lookup_write world _ key record
    · intro other claim
      rfl
    · rfl
    · rw [JournalAdvances, written]
      refine ⟨Nat.le_trans holds.upper further, ?_⟩
      intro committed
      rw [← committed] at uncommitted
      exact absurd holds.upper (Nat.not_le_of_lt uncommitted)
  refine ⟨kept, (kept holds.invariant).1, holds.owns, ?_, ?_, holds.count⟩
  · simp [journalEntry, written]
  · simp [journalEntry, written]

theorem triple_journalWrite (agent : Agent) (identity : EffectIdentity)
    (threadId runId : String) (call : ToolCall) (phase : Phase) (rank : Nat)
    {low high entries : Nat} (planned : 1 ≤ high) (further : high ≤ rank)
    (uncommitted : high < 3) (known : rank ≤ 3)
    (written : ∀ timestamp, journalRank (some (journalRecord sha256
      (journalId sha256 identity) threadId runId call phase timestamp)) = rank) :
    (contract sha256).Triple agent (Holds sha256 agent identity low high entries)
      (journalWrite sha256 (journalId sha256 identity) threadId runId call phase)
      fun status world => Invariant sha256 world ∧
        (status = .ok → Holds sha256 agent identity rank rank entries world) := by
  have before := holds_stable sha256 agent identity low high entries planned
  have after := holds_stable sha256 agent identity rank rank entries
    (Nat.le_trans planned further)
  apply Contract.Triple.bind (triple_ask agent .timestamp before fun _ => Holds.invariant)
  intro timestamp
  apply Contract.Triple.bind (storePut_triple before after (invariant_stable sha256 agent)
    (fun _ => rfl) _ _ fun _ => Holds.invariant)
  · intro status
    have stable := (invariant_stable sha256 agent).and (after.imp (p := status = .ok))
    split
    next => exact .done stable fun _ holds => ⟨holds.1, fun _ => holds.2 rfl⟩
    next => exact .done stable fun _ holds => ⟨holds.1, fun impossible => by cases impossible⟩
  · intro world holds
    exact (quiet agent world holds.invariant).guaranteed holds.invariant
  · intro world holds
    exact owner_writes further uncommitted known (written timestamp) holds

theorem safe_prepareJournal (agent : Agent) (task : Task) :
    Safe sha256 agent (prepareJournal sha256 task) := by
  apply Safe.bind (safe_journalLookup agent _ task.threadId task.runId task.call)
  intro found
  split
  next => exact safe_done agent _
  next =>
    apply Safe.bind (safe_createPlanned agent _ task.threadId task.runId _)
    intro created
    split
    next => exact safe_done agent _
    next =>
      apply Safe.bind (safe_journalLoad agent _ task.threadId task.runId _)
      intro loaded
      split <;> exact safe_done agent _
    next => exact safe_done agent _
  next => exact safe_done agent _

/-- The callback is entered only by the owner of the claim, after the start is on
record and before the result is. -/
theorem triple_executeClaimed (agent : Agent) (task : Task) (identity : EffectIdentity) :
    (contract sha256).Triple agent (Holds sha256 agent identity 0 1 0)
      (executeClaimed sha256 task identity) fun _ => Invariant sha256 := by
  have stable := invariant_stable sha256 agent
  have started := holds_stable sha256 agent identity 2 2 0 (by decide)
  have entered := holds_stable sha256 agent identity 2 2 1 (by decide)
  have committed := holds_stable sha256 agent identity 3 3 1 (by decide)
  apply Contract.Triple.bind (triple_journalWrite agent identity task.threadId task.runId
    task.call .started 2 (by decide) (by decide) (by decide) (by decide)
    fun timestamp => journalRank_record sha256 _ _ _ _ _ timestamp)
  intro written
  split
  next =>
    apply strengthen _ fun _ holds => holds.2 rfl
    apply emit (T := Holds sha256 agent identity 2 2 1) started
      (fun _ => rfl)
    · intro world holds
      have kept := keeps_enter holds.owns holds.count
      refine ⟨kept, (kept holds.invariant).1, holds.owns, holds.lower, holds.upper, ?_⟩
      have first := holds.count
      simp only [entryCount] at first ⊢
      simp [first]
    · apply Contract.Triple.bind (triple_ask agent _ entered fun _ => Holds.invariant)
      intro outcome
      apply Contract.Triple.bind (triple_journalWrite agent identity task.threadId
        task.runId (settleOutcome task.config task.call outcome) .committed 3 (by decide)
        (by decide) (by decide) (by decide)
        fun timestamp => journalRank_record sha256 _ _ _ _ _ timestamp)
      intro saved
      apply strengthen _ fun _ holds => holds.1
      split <;> exact safe_done agent _
  next => exact (safe_done agent _).strengthen fun _ holds => holds.1

theorem safe_executeOne (agent : Agent) (task : Task) :
    Safe sha256 agent (executeOne sha256 task) := by
  dsimp only [executeOne]
  split
  next => exact safe_done agent _
  apply Safe.bind (safe_ask agent .cancelStatus)
  intro cancelStatus
  split
  next => exact safe_done agent _
  apply Contract.Triple.bind (triple_claim agent _ task.threadId task.runId task.call)
  intro claimed
  split
  next =>
    exact (triple_executeClaimed agent task _).strengthen fun _ holds => holds.2 rfl
  next =>
    apply strengthen _ fun _ holds => holds.1
    apply Safe.bind (safe_prepareJournal agent task)
    intro prepared
    split <;> exact safe_done agent _
  next => exact (safe_done agent _).strengthen fun _ holds => holds.1
  next => exact (safe_done agent _).strengthen fun _ holds => holds.1

theorem safe_prepareCalls (agent : Agent) (batch : Batch) (code : ReturnCode)
    (calls : List ToolCall) :
    Safe sha256 agent (prepareCalls sha256 batch code calls) := by
  induction calls generalizing code with
  | nil => exact safe_done agent _
  | cons call calls ih =>
      dsimp only [prepareCalls]
      split
      next =>
        apply Safe.bind (ih code)
        intro rest
        exact safe_done agent _
      apply Safe.bind (safe_prepareJournal agent _)
      intro prepared
      split
      next => exact safe_done agent _
      apply Safe.bind (ih _)
      intro rest
      exact safe_done agent _

theorem safe_submitWave (agent : Agent) (batch : Batch) (index : Nat) (calls : List ToolCall) :
    Safe sha256 agent (submitWave batch index calls) := by
  induction calls generalizing index with
  | nil => exact safe_done agent _
  | cons call calls ih =>
      apply Safe.bind (safe_ask agent _)
      intro accepted
      apply Safe.bind (ih (index + 1))
      intro rest
      split <;> exact safe_done agent _

theorem safe_executeWaves (agent : Agent) (batch : Batch) (index : Nat)
    (waves : List (List ToolCall)) :
    Safe sha256 agent (executeWaves batch index waves) := by
  induction waves generalizing index with
  | nil => exact safe_done agent _
  | cons wave waves ih =>
      apply Safe.bind (safe_submitWave agent batch index wave)
      intro submitted
      apply Safe.bind (safe_ask agent .wait)
      intro finished
      apply Safe.bind (ih (index + wave.length))
      intro rest
      exact safe_done agent _

theorem safe_dispatchCalls (agent : Agent) (batch : Batch) (fuel index : Nat)
    (code : ReturnCode) (calls : List ToolCall) :
    Safe sha256 agent (dispatchCalls sha256 batch fuel index code calls) := by
  induction fuel generalizing index code calls with
  | zero => exact safe_done agent _
  | succ fuel ih =>
      cases calls with
      | nil => exact safe_done agent _
      | cons call calls =>
          dsimp only [dispatchCalls]
          split
          next =>
            apply Safe.bind (safe_executeWaves agent batch index _)
            intro finished
            apply Safe.bind (ih _ _ _)
            intro rest
            exact safe_done agent _
          next =>
            apply Safe.bind (safe_executeOne agent _)
            intro finished
            apply Safe.bind (ih _ _ _)
            intro rest
            exact safe_done agent _

theorem safe_execute (agent : Agent) (batch : Batch) :
    Safe sha256 agent (execute sha256 batch) := by
  dsimp only [execute]
  split
  next => exact safe_done agent _
  split
  next =>
    apply Safe.bind (safe_ask agent .batchAcquire)
    intro queueStatus
    split
    next => exact safe_done agent _
    split
    next => exact safe_done agent _
    split
    next => exact safe_done agent _
    apply Safe.bind (safe_prepareCalls agent batch _ _)
    intro prepared
    split
    next => exact safe_dispatchCalls agent batch _ _ _ _
    next => exact safe_dispatchCalls agent batch _ _ _ _
    next => exact safe_done agent _
  next => exact safe_done agent _

theorem safe_batchProgram (agent : Agent) (batch : Batch) :
    Safe sha256 agent (batchProgram sha256 batch) := by
  apply Safe.bind (safe_execute agent batch)
  intro result
  exact safe_done agent _

/-! ## Runs of any number of executors -/

variable (sha256) in
/-- A system before its first call: no journal record and no claim is stored, and
every agent is about to execute a batch. -/
structure Initial (config : (machine sha256).Config) : Prop where
  journal : ∀ id, journalEntry config.state id = none
  claims : ∀ id, claimEntry config.state id = none
  acked : config.state.acked = []
  events : config.state.events = []
  batches : ∀ agent program, config.thread agent = some program →
    ∃ batch, program = batchProgram sha256 batch

variable {config : (machine sha256).Config}

theorem Initial.invariant (initial : Initial sha256 config) : Invariant sha256 config.state := by
  have unowned : ∀ agent id, ¬Owns config.state agent id := by
    intro agent id owned
    unfold Owns at owned
    rw [initial.acked] at owned
    cases owned
  have counts : ∀ identity, entryCount config.state identity = 0 := by
    intro identity
    unfold entryCount
    rw [initial.events]
    rfl
  constructor
  · intro agent id owned
    exact absurd owned (unowned agent id)
  · intro agent other id owned _
    exact absurd owned (unowned agent id)
  · intro id started
    rw [initial.journal id] at started
    exact absurd started (by decide)
  · intro identity
    rw [counts identity]
    exact Nat.zero_le 1
  · intro identity positive
    rw [counts identity] at positive
    exact absurd positive (Nat.lt_irrefl 0)
  · intro id
    rw [initial.journal id]
    exact Nat.zero_le 3

/-- Agents of a system stay safe under the contract, also those that start later. -/
theorem Initial.safe (initial : Initial sha256 config) : (contract sha256).AllSafe config := by
  intro agent program live
  obtain ⟨batch, rfl⟩ := initial.batches agent program live
  apply Contract.Safe.mono (safe_batchProgram agent batch config.state initial.invariant)
  intro value world _
  trivial

theorem started_safe (agent : Agent) (program : Prog AgentResult) (world : ToolWorld)
    (start : (contract sha256).start agent program world) :
    (contract sha256).Safe agent ((contract sha256).post agent) program world := by
  obtain ⟨holds, task, rfl⟩ := start
  have safe : Safe sha256 agent
      (executeOne sha256 task >>= fun call => .done (AgentResult.task call)) :=
    Safe.bind (safe_executeOne agent task) fun _ => safe_done agent _
  apply Contract.Safe.mono (safe world holds)
  intro value world' _
  trivial

/-- What a run preserves, whatever its steps are. -/
def Preserves (sha256 : String → String) (world world' : ToolWorld) : Prop :=
  Invariant sha256 world → Invariant sha256 world' ∧
    ∀ id, JournalAdvances (journalEntry world id) (journalEntry world' id)

theorem Preserves.trans {first second third : ToolWorld}
    (left : Preserves sha256 first second) (right : Preserves sha256 second third) :
    Preserves sha256 first third := by
  intro holds
  obtain ⟨middle, before⟩ := left holds
  obtain ⟨last, after⟩ := right middle
  exact ⟨last, fun id => (before id).trans (after id)⟩

theorem steps_preserve {config' : (machine sha256).Config} (safe : (contract sha256).AllSafe config)
    (steps : (machine sha256).Steps config config') :
    (contract sha256).AllSafe config' ∧
    Preserves sha256 config.state config'.state := by
  obtain ⟨safe', changes⟩ := Contract.steps_safe started_safe safe steps
  refine ⟨safe', Contract.Change.relates (R := Preserves sha256) ?_ Preserves.trans
    ?_ changes⟩
  · intro world holds
    exact ⟨holds, fun _ => .refl _⟩
  · intro agent world world' kept holds
    obtain ⟨after, evolves⟩ := kept holds
    exact ⟨after, evolves.journal⟩

/-- At most once.  In every run of any number of executors on one store, with every
interleaving, crash and store failure, the callback of an effect identity is entered
at most once, and its journal record is absent, planned, started or committed, moves
only forward in this order and does not change once committed. -/
theorem callback_entered_at_most_once (sha256 : String → String)
    (initial config config' : (machine sha256).Config) (identity : EffectIdentity)
    (start : Initial sha256 initial) (reached : (machine sha256).Steps initial config)
    (later : (machine sha256).Steps config config') :
    entryCount config.state identity ≤ 1 ∧
    journalRank (journalEntry config.state (journalId sha256 identity)) ≤ 3 ∧
    JournalAdvances (journalEntry config.state (journalId sha256 identity))
      (journalEntry config'.state (journalId sha256 identity)) := by
  obtain ⟨safe, preserved⟩ := steps_preserve start.safe reached
  obtain ⟨holds, _⟩ := preserved start.invariant
  obtain ⟨_, advanced⟩ := (steps_preserve safe later).2 holds
  exact ⟨holds.entered identity, holds.knownPhase _, advanced _⟩

end

/-- Digests of the strings that the sample batch hashes. -/
def sampleDigest (text : String) : String :=
  if text = "run-1\x00turn-1" then
    "e83dad23c2ff5c5a1a442d00c3b98eef0814d9e17983ea331b82cd33c00bb13b"
  else if text = "e83dad23c2ff5c5a1a442d00c3b98eef0814d9e17983ea331b82cd33c00bb13b" ++
      "\x00call-1" then
    "2e9441a86c9c9c61fb3e7c1fbcbfc7587cf6cfef47a76a7be3af36be7a837b06"
  else "8f6b7d95884dd9fffffd24fae50d3e10f92b393cdc63181249af37b2891bbc1f"

def sampleCall : ToolCall where
  callId := "call-1"
  toolName := "echo"
  argumentsJson := "\x7b\x7d"
  policy := ⟨.sequential, .none⟩
  status := .ok
  output := none
  detail := none
  detailCaptureFailed := false
  replayed := false
  turnKey := "turn-1"
  policyReason := none
  legacyTurnKey := none

def sampleBatch : Batch where
  config := ⟨4, 16, 1024, 1024⟩
  threadId := "thread-1"
  runId := "run-1"
  registry := {
    resolveName := fun name => (.ok, some name)
    executionPolicy := fun _ => some ⟨.sequential, .keyed⟩
    capabilities := fun _ => .ok
    deniedBy := fun _ => none
    argumentsValid := fun _ _ => true }
  calls := [sampleCall]

/-- An environment that cancels nothing and whose tool succeeds. -/
def sampleReply : (query : Query) → query.Reply
  | .cancelStatus => .ok
  | .batchAcquire => .ok
  | .timestamp => "2024-01-01T00:00:00Z"
  | .runTool _ _ => ⟨.ok, some "done", none, false⟩
  | .trySubmit _ _ => true
  | .wait => fun _ => sampleCall

/-- Two executors that are about to execute the same batch on an empty store. -/
def sampleConfig : (machine sampleDigest).Config where
  state := ⟨∅, [], []⟩
  thread := fun agent =>
    if agent = [0] ∨ agent = [1] then some (batchProgram sampleDigest sampleBatch) else none

/-- The store after the first executor ran alone. -/
def sampleFinal : ToolWorld :=
  ((batchProgram sampleDigest sampleBatch).eval
    (World.serve (S := signature) [0] sampleReply) ⟨∅, [], []⟩).2

theorem sampleConfig_initial : Initial sampleDigest sampleConfig where
  journal := fun _ => rfl
  claims := fun _ => rfl
  acked := rfl
  events := rfl
  batches := by
    intro agent program live
    simp only [sampleConfig] at live
    split at live
    next => exact ⟨sampleBatch, (Option.some.inj live).symm⟩
    next => cases live

theorem sampleConfig_runs :
    ∃ threads, (machine sampleDigest).Steps sampleConfig ⟨sampleFinal, threads⟩ := by
  have run : (machine sampleDigest).Outcome [0] (batchProgram sampleDigest sampleBatch)
      sampleConfig.state _ sampleFinal :=
    Machine.Outcome.of_eval _ (World.serve_performs (S := signature) [0] sampleReply) _ _
  apply run.steps _ sampleConfig.thread rfl
  intro op answer child program spawned
  exact (spawn_cases spawned).1

theorem sampleFinal_entered :
    entryCount sampleFinal ⟨"run-1", "turn-1", "call-1"⟩ = 1 := by
  decide +kernel

theorem sampleFinal_committed :
    journalRank (journalEntry sampleFinal
      (journalId sampleDigest ⟨"run-1", "turn-1", "call-1"⟩)) = 3 := by
  decide +kernel

/-- One of two executors of the same batch ran to its end: the callback was entered
once, the record is committed, and neither changes from here on. -/
theorem callback_entered_once_in_sample :
    Initial sampleDigest sampleConfig ∧
    ∃ config, (machine sampleDigest).Steps sampleConfig config ∧
      entryCount config.state ⟨"run-1", "turn-1", "call-1"⟩ = 1 ∧
      journalRank (journalEntry config.state
        (journalId sampleDigest ⟨"run-1", "turn-1", "call-1"⟩)) = 3 ∧
      ∀ config', (machine sampleDigest).Steps config config' →
        journalEntry config'.state
            (journalId sampleDigest ⟨"run-1", "turn-1", "call-1"⟩) =
          journalEntry config.state
            (journalId sampleDigest ⟨"run-1", "turn-1", "call-1"⟩) := by
  obtain ⟨threads, steps⟩ := sampleConfig_runs
  refine ⟨sampleConfig_initial, _, steps, sampleFinal_entered, sampleFinal_committed, ?_⟩
  intro config' later
  have main := callback_entered_at_most_once sampleDigest sampleConfig _ config'
    ⟨"run-1", "turn-1", "call-1"⟩ sampleConfig_initial steps later
  exact main.2.2.2 sampleFinal_committed

end TurboAgent.ToolExecutor
