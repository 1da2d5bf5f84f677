import TurboAgent.StateGraph.Execution

/-!
# Histories of runs

The history of a graph is one list for all its runs.  What an execution does concerns the run
that is executed: the entries of the other runs stay as they are.
-/

namespace TurboAgent.StateGraph

open Logic Relation

def Ledger.entriesOf (ledger : Ledger) (runId : String) : List HistoryEntry :=
  ledger.entries.filter fun entry => entry.runId == runId

def Ledger.latestOf (ledger : Ledger) (runId : String) : Option HistoryEntry :=
  (ledger.entriesOf runId).getLast?

section

variable (ledger : Ledger) (run : Run) (sourceKind : SourceKind)
  (sourceName reason lastNode nextNode : Option String) (step : Nat) (update : Json)

/-- The entry that `addHistoryRecord` adds. -/
def recordOf : HistoryEntry :=
  (addHistoryRecord ledger run sourceKind sourceName reason lastNode nextNode step update).2.2

theorem addHistoryRecord_entries :
    (addHistoryRecord ledger run sourceKind sourceName reason lastNode nextNode step
      update).1.entries = ledger.entries ++
        [recordOf ledger run sourceKind sourceName reason lastNode nextNode step update] := rfl

theorem addHistoryRecord_own :
    (addHistoryRecord ledger run sourceKind sourceName reason lastNode nextNode step
      update).1.entriesOf run.id = ledger.entriesOf run.id ++
        [recordOf ledger run sourceKind sourceName reason lastNode nextNode step update] := by
  rw [Ledger.entriesOf, addHistoryRecord_entries, List.filter_append]
  simp [Ledger.entriesOf, recordOf, addHistoryRecord]

variable {run} in
theorem addHistoryRecord_other {other : String} (distinct : other ≠ run.id) :
    (addHistoryRecord ledger run sourceKind sourceName reason lastNode nextNode step
      update).1.entriesOf other = ledger.entriesOf other := by
  rw [Ledger.entriesOf, addHistoryRecord_entries, List.filter_append]
  simp [Ledger.entriesOf, recordOf, addHistoryRecord, Ne.symm distinct]

theorem addHistoryRecord_latest :
    (addHistoryRecord ledger run sourceKind sourceName reason lastNode nextNode step
      update).1.latestOf run.id =
        some (recordOf ledger run sourceKind sourceName reason lastNode nextNode step update) := by
  rw [Ledger.latestOf, addHistoryRecord_own, List.getLast?_concat]

end

/-! ## What executions leave alone -/

variable {World : Type} {library : JsonLibrary} {graph : Graph World}
  {before middle after execution : Execution World}

/-- An execution goes on for the same run: the history of other runs stays, and what is noted is
about this run. -/
structure Follows (before after : Execution World) : Prop where
  id : after.run.id = before.run.id
  threadId : after.run.threadId = before.run.threadId
  others : ∀ other, other ≠ before.run.id →
    after.ledger.entriesOf other = before.ledger.entriesOf other
  noted : ∀ note ∈ after.applied, note ∈ before.applied ∨ note.runId = before.run.id

theorem Follows.refl : Follows execution execution := ⟨rfl, rfl, fun _ _ => rfl, fun _ => .inl⟩

theorem Follows.trans (first : Follows before middle) (second : Follows middle after) :
    Follows before after where
  id := second.id.trans first.id
  threadId := second.threadId.trans first.threadId
  others other distinct :=
    (second.others other (first.id ▸ distinct)).trans (first.others other distinct)
  noted note member := by
    rcases second.noted note member with earlier | own
    · exact first.noted note earlier
    · exact .inr (own.trans first.id)

theorem Follows.of_act (act : Act library graph before after) : Follows before after := by
  cases act with
  | world => exact ⟨rfl, rfl, fun _ _ => rfl, fun _ => .inl⟩
  | skip => exact ⟨rfl, rfl, fun _ _ => rfl, fun _ => .inl⟩
  | merge => exact ⟨rfl, rfl, fun _ _ => rfl, fun _ => .inl⟩
  | note =>
      refine ⟨rfl, rfl, fun _ _ => rfl, ?_⟩
      exact List.forall_mem_append.mpr ⟨fun _ earlier => .inl earlier,
          List.forall_mem_singleton.mpr (.inr rfl)⟩
  | record =>
      exact ⟨rfl, rfl, fun _ distinct => addHistoryRecord_other _ _ _ _ _ _ _ _ distinct,
        fun _ => .inl⟩
  | move _ moves =>
      obtain ⟨_, _, _, _, _, _, run⟩ := moves.run
      refine ⟨by rw [run], by rw [run], fun _ _ => by rw [moves.ledger], fun note member => ?_⟩
      exact .inl (moves.applied ▸ member)

theorem Follows.of_acts (acts : Acts library graph before after) : Follows before after := by
  induction acts with
  | refl => exact .refl
  | tail _ act ih => exact ih.trans (.of_act act)

end TurboAgent.StateGraph
