import TurboAgent.Logic.Lists
import TurboAgent.StateGraph.Calls
import TurboAgent.StateGraph.Updates

/-!
# Updates by the host

The host updates the state of a run without a call of a node.  The keys of the update are merged
one after the other into the state of the run itself, so that a refused update is only without
effect if the keys before the refused one change nothing.
-/

namespace TurboAgent.StateGraph

open Logic

section

variable (library : JsonLibrary) (channels : List Channel)

def mergeKey (update state : Json) (key : String) : Json :=
  match findChannel channels key, update.field key with
  | some channel, some value =>
      state.set key (reduced library channel (state.field key) value)
  | _, _ => state

/-- An update with a key that is refused, while those before it are taken and lead back to the
state. -/
def RefusedUnchanged (state update : Json) : Prop :=
  ∃ taken key rest, update.keys = taken ++ key :: rest ∧
    (∀ other ∈ taken, TakesKey channels state update other) ∧
      ¬TakesKey channels state update key ∧
        taken.foldl (mergeKey library channels update) state = state

end

/-! ## The keys before a refused one -/

section

variable {library : JsonLibrary} {channels : List Channel} {state update : Json}

theorem isObject_mergeKey (key : String) :
    (mergeKey library channels update state key).isObject = state.isObject := by
  unfold mergeKey
  split
  next => exact Json.isObject_set _ _ _
  next => rfl

theorem applyKeys_stops {taken rest : List String} {key : String} (object : state.isObject = true)
    (takes : ∀ other ∈ taken, TakesKey channels state update other)
    (refused : ¬TakesKey channels state update key) :
    (applyKeys library channels update (taken ++ key :: rest) state).2 =
      taken.foldl (mergeKey library channels update) state := by
  induction taken generalizing state with
  | nil => exact (applyKeys_refused library rest refused).2
  | cons first taken ih =>
      obtain ⟨takesFirst, takes⟩ := List.forall_mem_cons.mp takes
      obtain ⟨channel, value, found, stored, admits, step⟩ :=
        applyKeys_cons library (taken ++ key :: rest) takesFirst
      have merged : mergeKey library channels update state first =
          state.set first (reduced library channel (state.field first) value) := by
        rw [mergeKey, found, stored]
      have kept : ∀ other, TakesKey channels (mergeKey library channels update state first) update
          other ↔ TakesKey channels state update other := by
        intro other
        rw [merged]
        exact takesKey_set object found stored admits
      rw [List.cons_append, step, ← merged, List.foldl_cons]
      apply ih
      · rw [isObject_mergeKey]
        exact object
      · intro other member
        exact (kept other).mpr (takes other member)
      · rw [kept]
        exact refused

variable (channels) in
theorem accepted_or_stops (holds : state.isObject = true) (object : update.isObject = true) :
    Accepted channels state update ∨ ∃ taken key rest, update.keys = taken ++ key :: rest ∧
      (∀ other ∈ taken, TakesKey channels state update other) ∧
        ¬TakesKey channels state update key := by
  classical
  cases stop : update.keys.find? fun key => decide ¬TakesKey channels state update key with
  | none =>
      have all := List.find?_eq_none.mp stop
      exact .inl ⟨holds, object, fun key member => by simpa using all key member⟩
  | some key =>
      obtain ⟨refused, taken, rest, split, takes⟩ := List.find?_eq_some_iff_append.mp stop
      exact .inr ⟨taken, key, rest, split, fun other member => by simpa using takes other member,
        of_decide_eq_true refused⟩

theorem applyUpdate_refused_iff (refused : ¬Accepted channels state update)
    (object : update.isObject = true) :
    (applyUpdate library channels state update).2 = state ↔
      state.isObject = false ∨ RefusedUnchanged library channels state update := by
  cases holds : state.isObject with
  | false => simp [applyUpdate, holds]
  | true =>
      have applied : (applyUpdate library channels state update).2 =
          (applyKeys library channels update update.keys state).2 := by
        rw [applyUpdate, holds, object]
        rfl
      rw [applied]
      constructor
      · intro unchanged
        obtain accepted | ⟨taken, key, rest, split, takes, stops⟩ :=
          accepted_or_stops channels holds object
        · exact absurd accepted refused
        · rw [split, applyKeys_stops holds takes stops] at unchanged
          exact .inr ⟨taken, key, rest, split, takes, stops, unchanged⟩
      · rintro (notObject | ⟨taken, key, rest, split, takes, stops, unchanged⟩)
        · exact absurd notObject (by simp)
        · rw [split, applyKeys_stops holds takes stops]
          exact unchanged

end

/-! ## The call -/

section

variable {World : Type} (library : JsonLibrary) (graph : Graph World) (runId : String)
  (update : Json) (options : HistoryOptions)

/-- The call returns, and with a failure the threads, the runs and the history are as before. -/
def UpdateAtomic : Prop :=
  ∃ after outcome, updateState library graph runId update options = .answered after outcome ∧
    (outcome.status ≠ .ok → after.threads = graph.threads ∧ after.runs = graph.runs ∧
      after.ledger.entries = graph.ledger.entries)

/-- The update of the host is accepted by the state of its run, or refused without effect. -/
def UpdateHarmless : Prop :=
  update.isObject = true → ∀ run index, findRun graph runId = some (run, index) →
    Accepted graph.channels run.state update ∨ run.state.isObject = false ∨
      RefusedUnchanged library graph.channels run.state update

variable {graph runId}
variable {run : Run} {index : Nat}

theorem findRun_place {id : String} (found : findRun graph id = some (run, index)) :
    graph.runs[index]? = some run ∧ run.id = id := by
  rw [findRun] at found
  have listed := List.mem_zipIdx_iff_getElem?.mp (List.mem_of_find?_eq_some found)
  have named := List.find?_some found
  exact ⟨listed, by simpa using named⟩

theorem putRun_state {state : Json} (ledger : Ledger) (place : graph.runs[index]? = some run) :
    (putRun graph index { run with state } ledger).runs = graph.runs ↔ state = run.state := by
  obtain ⟨inside, isRun⟩ := List.getElem?_eq_some_iff.mp place
  constructor
  · intro same
    have at_index := congrArg (fun runs : List Run => runs[index]?) same
    simp only [putRun, List.getElem?_set_self inside, place, Option.some.injEq] at at_index
    exact congrArg Run.state at_index
  · rintro rfl
    rw [putRun]
    exact isRun ▸ List.set_getElem_self inside

theorem updateState_refused (object : update.isObject = true)
    (found : findRun graph runId = some (run, index))
    (refused : ¬Accepted graph.channels run.state update) :
    UpdateAtomic library graph runId update options ↔ run.state.isObject = false ∨
      RefusedUnchanged library graph.channels run.state update := by
  have failed : (applyUpdate library graph.channels run.state update).1 ≠ .ok :=
    fun applied => refused (applyUpdate_eq_ok.mp applied)
  have place := (findRun_place found).1
  unfold UpdateAtomic updateState
  rw [if_pos object, found]
  dsimp only
  rw [if_neg failed, ← applyUpdate_refused_iff refused object, ← putRun_state graph.ledger place]
  constructor
  · rintro ⟨after, outcome, answer, unchanged⟩
    cases answer
    exact (unchanged failed).2.1
  · intro unchanged
    exact ⟨_, _, rfl, fun _ => ⟨rfl, unchanged, rfl⟩⟩

end

end TurboAgent.StateGraph
