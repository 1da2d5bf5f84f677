import TurboAgent.Data.Json
import TurboAgent.Logic.Store
import TurboAgent.Runtime.Status

/-!
# The runtime record store

The runtime keeps JSON records in named collections.  Components reach them
through four calls: a classified read, a plain write, an atomic insert of an absent
record, and a listing of the records whose string field has a given value.

A component is a signature over this store: it adds the events it announces and
the questions it asks its environment.
-/

namespace TurboAgent

open Logic

inductive Collection where
  /-- `runs` -/
  | runs
  /-- `agent_tool_journal` -/
  | toolJournal
  /-- `agent_tool_claims` -/
  | toolClaims
  /-- `agent_inbox_payloads` -/
  | inboxPayloads
  /-- `agent_inbox_transitions` -/
  | inboxTransitions
  /-- `agent_jobs` -/
  | jobs
  /-- `agent_job_revisions` -/
  | jobRevisions
  /-- `agent_job_cancellations` -/
  | jobCancellations
  /-- `agent_job_acceptance` -/
  | jobAcceptance
  /-- `agent_job_delivery_intents` -/
  | jobDeliveryIntents
  /-- `agent_job_delivery_receipts` -/
  | jobDeliveryReceipts
  /-- `agent_job_admissions` -/
  | jobAdmissions
  /-- `agent_job_queue_receipts` -/
  | jobQueueReceipts
  /-- `agent_job_observations` -/
  | jobObservations
  /-- `agent_compiled_execution_journal` -/
  | compiledJournal
  /-- `compiled_inspect_attempts` -/
  | inspectAttempts
  /-- `agent_compactions` -/
  | compactions
  /-- `agent_context_heads` -/
  | contextHeads
  deriving DecidableEq

abbrev RecordKey := Collection × String

/-- Listing of the records of a collection whose field `key` is the string
`value`. -/
structure RecordFilter where
  collection : Collection
  (key value : String)

def RecordFilter.selects (filter : RecordFilter) (address : RecordKey) (record : Json) : Bool :=
  address.1 = filter.collection && record.field filter.key == some (.string filter.value)

/-- The runtime store with a component's events and questions. -/
@[reducible] def runtimeStore (Event Query : Type) (Reply : Query → Type) :
    StoreSignature where
  Key := RecordKey
  Value := Json
  Error := StoreError
  Event := Event
  Filter := RecordFilter
  selects := RecordFilter.selects
  Query := Query
  Reply := Reply

section Calls

variable {Event Query : Type} {Reply : Query → Type}

/-- `turbo_agent_runtime_store_get_json_status`. -/
def storeGet (collection : Collection) (id : String) :
    StoreProgram (runtimeStore Event Query Reply) (Except Status Json) := do
  match ← StoreProgram.get (S := runtimeStore Event Query Reply) (collection, id) with
  | .found record => return .ok record
  | .missing => return .error .enoent
  | .failed error => return .error error.val

/-- `turbo_agent_runtime_store_put_json`. -/
def storePut (collection : Collection) (id : String) (record : Json) :
    StoreProgram (runtimeStore Event Query Reply) Status := do
  match ← StoreProgram.put (S := runtimeStore Event Query Reply) (collection, id) record with
  | .stored => return .ok
  | .failed error => return error.val

/-- `turbo_agent_runtime_store_create_json_if_absent`. -/
def storeCreate (collection : Collection) (id : String) (record : Json) :
    StoreProgram (runtimeStore Event Query Reply) Status := do
  match ← StoreProgram.create (S := runtimeStore Event Query Reply) (collection, id) record with
  | .inserted => return .ok
  | .occupied => return .ealready
  | .failed error => return error.val

/-- `turbo_agent_runtime_store_list_json`; a failure is not classified. -/
def storeList (collection : Collection) (key value : String) :
    StoreProgram (runtimeStore Event Query Reply) (Option (List Json)) := do
  match ← StoreProgram.list (S := runtimeStore Event Query Reply) ⟨collection, key, value⟩ with
  | .ok records => return some records
  | .error _ => return none

end Calls

/-! ## Rules for the calls -/

section Rules

variable {Event Query : Type} {Reply : Query → Type} {Agent Result : Type}
variable {spawn : Agent → (op : StoreOp (runtimeStore Event Query Reply)) → op.Answer →
  Option (Agent × StoreProgram (runtimeStore Event Query Reply) Result)}
variable {C : Contract (World.forkingMachine (runtimeStore Event Query Reply) spawn)}
variable {agent : Agent} {collection : Collection} {id : String} {record : Json}
variable {P T R : World (runtimeStore Event Query Reply) Agent → Prop}

theorem storePut_triple (stable : C.Stable agent P) (stable' : C.Stable agent T)
    (remains : C.Stable agent R)
    (silent : ∀ answer, spawn agent (.put (collection, id) record) answer = none)
    (kept : ∀ world, P world → C.guarantee agent world world ∧ R world)
    (written : ∀ world, P world →
      C.guarantee agent world (world.write (collection, id) record) ∧
      T (world.write (collection, id) record))
    (weaker : ∀ world, T world → R world) :
    C.Triple agent P (storePut collection id record)
      fun status world => R world ∧ (status = .ok → T world) := by
  apply Contract.Triple.put stable silent kept
  · intro world holds
    obtain ⟨guaranteed, established⟩ := written world holds
    exact ⟨guaranteed, established, weaker _ established⟩
  · exact .done stable' fun world holds => ⟨weaker world holds, fun _ => holds⟩
  · intro error
    exact .done remains fun world holds =>
      ⟨holds, fun impossible => absurd impossible error.property.1⟩

/-- An insert that reports success is recorded for the agent; one that does not may
have taken effect all the same. -/
theorem storeCreate_triple (stable : C.Stable agent P) (stable' : C.Stable agent T)
    (remains : C.Stable agent R)
    (silent : ∀ answer, spawn agent (.create (collection, id) record) answer = none)
    (kept : ∀ world, P world → C.guarantee agent world world ∧ R world)
    (written : ∀ world, P world → world.lookup (collection, id) = none →
      C.guarantee agent world (world.write (collection, id) record) ∧
      R (world.write (collection, id) record))
    (acked : ∀ world, P world → world.lookup (collection, id) = none →
      C.guarantee agent world
        ((world.write (collection, id) record).ack agent (collection, id)) ∧
      T ((world.write (collection, id) record).ack agent (collection, id)))
    (weaker : ∀ world, T world → R world) :
    C.Triple agent P (storeCreate collection id record)
      fun status world => R world ∧ (status = .ok → T world) := by
  apply Contract.Triple.create stable silent kept written acked
  · exact .done stable' fun world holds => ⟨weaker world holds, fun _ => holds⟩
  · apply Contract.Triple.strengthen _ fun world holds => (kept world holds.1).2
    exact .done remains fun world holds =>
      ⟨holds, fun impossible => by cases impossible⟩
  · intro error
    exact .done remains fun world holds =>
      ⟨holds, fun impossible => absurd impossible error.property.1⟩

end Rules

end TurboAgent
