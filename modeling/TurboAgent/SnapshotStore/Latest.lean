import TurboAgent.Logic.Lists
import TurboAgent.SnapshotStore.Model

/-!
# The latest snapshot

A descriptor sums up a snapshot.  Descriptors are ordered by the counters of the graph, and by
their ids where the counters agree.  The latest snapshot is the greatest one of a filtered list,
and that list ends at a limit, in the order of the backend.

Numbers of documents are read as doubles, of which only the order matters here.
-/

namespace TurboAgent.SnapshotStore

open Provider (JsonCodec)

/-! ## Descriptors -/

/-- `turbo_state_graph_store_list_options_t`. -/
structure ListOptions where
  (graphName threadId runId historyEntryId checkpointId runStatus : Option CString)
  limit : Nat
  deriving DecidableEq

structure Descriptor (double : Type) where
  snapshotId : Id
  snapshotVersion : double
  (graphName entryNode : Option String)
  (channelCount nodeCount edgeCount threadCount runCount historyCount checkpointCount : Nat)
  (nextThreadId nextRunId nextHistoryId nextCheckpointId : double)
  (interruptedRunCount completedRunCount : Nat)
  deriving DecidableEq

def objectAt (record : Json) (key : String) : Option Json :=
  (record.field key).filter Json.isObject

def arrayAt (record : Json) (key : String) : Option (List Json) :=
  match record.field key with
  | some (.array elements) => some elements
  | _ => none

/-- `turbo_state_graph_store_count_runs_by_status`. -/
def countRunsByStatus (runs : List Json) (statusText : String) : Nat :=
  runs.countP fun run => run.getString "status" = some statusText

/-- `turbo_state_graph_store_snapshot_array_has_string_field`. -/
def arrayHasStringField (array : List Json) (field expected : String) : Bool :=
  array.any fun entry => entry.getString field = some expected

section Documents

variable {double : Type} (toDouble : Int → Nat → double)

/-- `json_get_double` with the default `0`. -/
def getDouble (record : Json) (key : String) : double :=
  match record.field key with
  | some (.number mantissa exponent) => toDouble mantissa exponent
  | _ => toDouble 0 0

/-- `turbo_state_graph_store_make_snapshot_descriptor`. -/
def makeSnapshotDescriptor (snapshotId : Id) (snapshot : Json) : Option (Descriptor double) := do
  let topology ← objectAt snapshot "topology"
  let runtime ← objectAt snapshot "runtime"
  let channels ← arrayAt topology "channels"
  let nodes ← arrayAt topology "nodes"
  let edges ← arrayAt topology "edges"
  let threads ← arrayAt runtime "threads"
  let runs ← arrayAt runtime "runs"
  let history ← arrayAt runtime "history"
  return {
    snapshotId
    snapshotVersion := getDouble toDouble snapshot "snapshot_version"
    graphName := topology.getString "graph_name"
    entryNode := topology.getString "entry_node"
    channelCount := channels.length
    nodeCount := nodes.length
    edgeCount := edges.length
    threadCount := threads.length
    runCount := runs.length
    historyCount := history.length
    checkpointCount := history.length
    nextThreadId := getDouble toDouble runtime "next_thread_id"
    nextRunId := getDouble toDouble runtime "next_run_id"
    nextHistoryId := getDouble toDouble runtime "next_history_id"
    nextCheckpointId := getDouble toDouble runtime "next_checkpoint_id"
    interruptedRunCount := countRunsByStatus runs "interrupted"
    completedRunCount := countRunsByStatus runs "completed" }

end Documents

def unlessSet (wanted : Option CString) (holds : String → Bool) : Bool :=
  match wanted with
  | some text => holds text.val
  | none => true

/-- `turbo_state_graph_store_snapshot_matches_options`. -/
def snapshotMatchesOptions (snapshot : Json) : Option ListOptions → Bool
  | none => true
  | some options =>
      match objectAt snapshot "topology", objectAt snapshot "runtime" with
      | some topology, some runtime =>
          unlessSet options.graphName (fun graphName =>
            topology.getString "graph_name" = some graphName) &&
          match arrayAt runtime "threads", arrayAt runtime "runs", arrayAt runtime "history" with
          | some threads, some runs, some history =>
              unlessSet options.threadId (arrayHasStringField threads "thread_id") &&
              unlessSet options.runId (arrayHasStringField runs "run_id") &&
              unlessSet options.historyEntryId (arrayHasStringField history "history_entry_id") &&
              unlessSet options.checkpointId (arrayHasStringField history "checkpoint_id") &&
              unlessSet options.runStatus (arrayHasStringField runs "status")
          | _, _, _ => false
      | _, _ => false

/-- What `strcmp` compares of an id. -/
def codes (snapshotId : Id) : List Nat :=
  snapshotId.val.map UInt8.toNat

section Order

variable {double : Type} [LinearOrder double]

/-- `turbo_state_graph_store_descriptor_is_newer`. -/
def descriptorIsNewer (candidate : Descriptor double) : Option (Descriptor double) → Bool
  | none => true
  | some best =>
      if candidate.nextHistoryId ≠ best.nextHistoryId then
        candidate.nextHistoryId > best.nextHistoryId
      else if candidate.nextCheckpointId ≠ best.nextCheckpointId then
        candidate.nextCheckpointId > best.nextCheckpointId
      else if candidate.nextRunId ≠ best.nextRunId then candidate.nextRunId > best.nextRunId
      else if candidate.nextThreadId ≠ best.nextThreadId then
        candidate.nextThreadId > best.nextThreadId
      else codes candidate.snapshotId > codes best.snapshotId

/-- The loop of `turbo_state_graph_store_get_latest_snapshot_descriptor`. -/
def newest (descriptors : List (Descriptor double)) : Option (Descriptor double) :=
  descriptors.foldl (fun best entry => if descriptorIsNewer entry best then some entry else best)
    none

end Order

/-! ## Lists with a filter -/

section Store

variable {double σ : Type} (codec : JsonCodec) (toDouble : Int → Nat → double) (backend : Backend σ)
  (state : σ) (options : Option ListOptions)

/-- `options && options->limit > 0 && emitted >= options->limit`. -/
def limitReached (emitted : Nat) : Bool :=
  match options with
  | some options => 0 < options.limit && options.limit ≤ emitted
  | none => false

/-- What an entry of the list of ids adds: nothing if the filter leaves it out, and `none` if
the call fails. -/
def readEntry (entry : Option Id) : Option (Option (Descriptor double)) := do
  let snapshotId ← entry
  let snapshotJson ← backend.load state snapshotId
  let snapshot ← codec.parse snapshotJson.val
  if snapshotMatchesOptions snapshot options then
    (makeSnapshotDescriptor toDouble snapshotId snapshot).map some
  else return none

/-- The loop of `turbo_state_graph_store_list_snapshot_descriptors_filtered`. -/
def listEntries (emitted : Nat) : List (Option Id) → Option (List (Descriptor double))
  | [] => some []
  | entry :: entries =>
      if entry = none then none
      else if limitReached options emitted then some []
      else
        match readEntry codec toDouble backend state options entry with
        | none => none
        | some none => listEntries emitted entries
        | some (some descriptor) => (listEntries (emitted + 1) entries).map (descriptor :: ·)

/-- `turbo_state_graph_store_list_snapshot_descriptors_filtered`. -/
def listFiltered : Option (List (Descriptor double)) :=
  (backend.list state).bind (listEntries codec toDouble backend state options 0)

/-- `turbo_state_graph_store_get_latest_snapshot_descriptor`. -/
def getLatest [LinearOrder double] : Option (Descriptor double) :=
  (listFiltered codec toDouble backend state options).bind newest

/-- Options that are zero but for what is set behind. -/
def noOptions : ListOptions := ⟨none, none, none, none, none, none, 0⟩

variable [LinearOrder double] (id : CString)

/-- `turbo_state_graph_store_get_latest_snapshot_descriptor_for_thread`. -/
def getLatestForThread : Option (Descriptor double) :=
  getLatest codec toDouble backend state (some { noOptions with threadId := some id })

/-- `turbo_state_graph_store_get_latest_snapshot_descriptor_for_run`. -/
def getLatestForRun : Option (Descriptor double) :=
  getLatest codec toDouble backend state (some { noOptions with runId := some id })

/-- `turbo_state_graph_store_get_latest_snapshot_descriptor_for_history_entry`. -/
def getLatestForHistoryEntry : Option (Descriptor double) :=
  getLatest codec toDouble backend state (some { noOptions with historyEntryId := some id })

/-- `turbo_state_graph_store_get_latest_snapshot_descriptor_for_checkpoint`. -/
def getLatestForCheckpoint : Option (Descriptor double) :=
  getLatest codec toDouble backend state (some { noOptions with checkpointId := some id })

end Store

/-! ## The order of descriptors -/

section Order

variable {double : Type} [LinearOrder double]

def Newer (candidate best : Descriptor double) : Prop :=
  descriptorIsNewer candidate (some best) = true

def rank (descriptor : Descriptor double) : double ×ₗ double ×ₗ double ×ₗ double ×ₗ List Nat :=
  toLex (descriptor.nextHistoryId, toLex (descriptor.nextCheckpointId,
    toLex (descriptor.nextRunId, toLex (descriptor.nextThreadId, codes descriptor.snapshotId))))

theorem toLex_lt_iff {α β : Type} [LinearOrder α] [LT β] {first first' : α} {rest rest' : β} :
    toLex (first, rest) < toLex (first', rest') ↔
      if first' ≠ first then first < first' else rest < rest' := by
  rw [Prod.Lex.toLex_lt_toLex]
  split
  next different =>
    constructor
    · rintro (less | ⟨same, -⟩)
      · exact less
      · exact absurd same.symm different
    · exact .inl
  next same =>
    rw [ne_eq, not_not] at same
    constructor
    · rintro (less | ⟨-, less⟩)
      · exact absurd same.symm less.ne
      · exact less
    · exact fun less => .inr ⟨same.symm, less⟩

theorem newer_iff {candidate best : Descriptor double} :
    Newer candidate best ↔ rank best < rank candidate := by
  rw [Newer, descriptorIsNewer, rank, rank, toLex_lt_iff, toLex_lt_iff, toLex_lt_iff,
    toLex_lt_iff]
  split
  next => exact decide_eq_true_iff
  split
  next => exact decide_eq_true_iff
  split
  next => exact decide_eq_true_iff
  split
  next => exact decide_eq_true_iff
  next => exact decide_eq_true_iff

theorem codes_injective : Function.Injective codes := by
  intro left right same
  have toNat : Function.Injective UInt8.toNat := fun _ _ => UInt8.toNat_inj.mp
  exact Subtype.ext (List.map_injective_iff.mpr toNat same)

omit [LinearOrder double] in
theorem id_of_rank {left right : Descriptor double} (same : rank left = rank right) :
    left.snapshotId = right.snapshotId := by
  simp only [rank, EmbeddingLike.apply_eq_iff_eq, Prod.mk.injEq] at same
  exact codes_injective same.2.2.2.2

theorem newest_eq (descriptors : List (Descriptor double)) :
    newest descriptors = descriptors.argmax rank := by
  rw [newest, List.argmax]
  congr 1
  funext best entry
  cases best with
  | none => rfl
  | some best => exact if_congr newer_iff rfl rfl

theorem newer_total {left right : Descriptor double}
    (different : left.snapshotId ≠ right.snapshotId) : Newer left right ∨ Newer right left := by
  rw [newer_iff, newer_iff]
  have ranks : rank left ≠ rank right := fun same => different (id_of_rank same)
  exact (lt_or_gt_of_ne ranks).symm

end Order

/-! ## The greatest of the matching snapshots -/

section Store

variable {double σ : Type} (codec : JsonCodec) (toDouble : Int → Nat → double) (backend : Backend σ)
  (state : σ) (options : Option ListOptions)

/-- A descriptor of a snapshot in the store that matches the options. -/
def Matching (descriptor : Descriptor double) : Prop :=
  ∃ entries, backend.list state = some entries ∧
    ∃ entry ∈ entries, readEntry codec toDouble backend state options entry = some (some descriptor)

/-- An answer is the greatest of the matching snapshots, or there is none. -/
def IsLatest [LinearOrder double] : Option (Descriptor double) → Prop
  | some descriptor =>
      Matching codec toDouble backend state options descriptor ∧
        ∀ other, Matching codec toDouble backend state options other → other ≠ descriptor →
          Newer descriptor other
  | none => ∀ descriptor, ¬Matching codec toDouble backend state options descriptor

/-- The entries that the list call looks at before the limit is reached.  It looks whether an
entry is a string even then. -/
def reached (emitted : Nat) : List (Option Id) → List (Option Id)
  | [] => []
  | entry :: entries =>
      if limitReached options emitted then if entry = none then [entry] else []
      else
        match readEntry codec toDouble backend state options entry with
        | some (some _) => entry :: reached (emitted + 1) entries
        | _ => entry :: reached emitted entries

section Reads

variable {codec toDouble backend state options}

theorem readEntry_id {entry : Option Id} {descriptor : Descriptor double}
    (reads : readEntry codec toDouble backend state options entry = some (some descriptor)) :
    entry = some descriptor.snapshotId := by
  obtain ⟨snapshotId, isId, reads⟩ := Option.bind_eq_some_iff.mp reads
  obtain ⟨snapshotJson, -, reads⟩ := Option.bind_eq_some_iff.mp reads
  obtain ⟨snapshot, -, reads⟩ := Option.bind_eq_some_iff.mp reads
  split at reads
  next =>
    obtain ⟨made, makes, same⟩ := Option.map_eq_some_iff.mp reads
    cases same
    simp only [makeSnapshotDescriptor, Option.bind_eq_bind, Option.bind_eq_some_iff,
      Option.pure_def, Option.some.injEq] at makes
    obtain ⟨-, -, -, -, -, -, -, -, -, -, -, -, -, -, -, -, rfl⟩ := makes
    exact isId
  next => cases reads

theorem matching_unique {left right : Descriptor double}
    (isLeft : Matching codec toDouble backend state options left)
    (isRight : Matching codec toDouble backend state options right)
    (same : left.snapshotId = right.snapshotId) : left = right := by
  obtain ⟨-, -, leftEntry, -, leftReads⟩ := isLeft
  obtain ⟨-, -, rightEntry, -, rightReads⟩ := isRight
  rw [readEntry_id leftReads] at leftReads
  rw [readEntry_id rightReads, ← same, leftReads] at rightReads
  cases rightReads
  rfl

theorem reached_subset (emitted : Nat) (entries : List (Option Id)) :
    reached codec toDouble backend state options emitted entries ⊆ entries := by
  induction entries generalizing emitted with
  | nil => exact List.Subset.refl _
  | cons first entries ih =>
      rw [reached]
      split
      next =>
        split
        next => exact List.cons_subset_cons _ (List.nil_subset _)
        next => exact List.nil_subset _
      next =>
        split
        next => exact List.cons_subset_cons _ (ih _)
        next => exact List.cons_subset_cons _ (ih _)

theorem reached_unlimited (unlimited : ∀ emitted, limitReached options emitted = false)
    (emitted : Nat) (entries : List (Option Id)) :
    reached codec toDouble backend state options emitted entries = entries := by
  induction entries generalizing emitted with
  | nil => rfl
  | cons first entries ih =>
      rw [reached, unlimited, if_neg Bool.false_ne_true]
      split
      next => rw [ih]
      next => rw [ih]

theorem listEntries_eq (emitted : Nat) (entries : List (Option Id)) :
    listEntries codec toDouble backend state options emitted entries =
      ((reached codec toDouble backend state options emitted entries).mapM
        (readEntry codec toDouble backend state options)).map List.reduceOption := by
  induction entries generalizing emitted with
  | nil => rfl
  | cons entry entries ih =>
      rw [listEntries, reached]
      cases entry with
      | none =>
          rw [if_pos rfl, if_pos rfl]
          split
          next => rfl
          next => rfl
      | some snapshotId =>
          rw [if_neg (Option.some_ne_none _), if_neg (Option.some_ne_none _)]
          split
          next => rfl
          cases reads : readEntry codec toDouble backend state options (some snapshotId) with
          | none =>
              rw [List.mapM_cons, reads]
              rfl
          | some found =>
              cases found with
              | none =>
                  rw [List.mapM_cons, reads]
                  dsimp only
                  rw [ih]
                  cases (reached codec toDouble backend state options emitted entries).mapM
                    (readEntry codec toDouble backend state options) <;> rfl
              | some descriptor =>
                  rw [List.mapM_cons, reads]
                  dsimp only
                  rw [ih]
                  cases (reached codec toDouble backend state options (emitted + 1)
                    entries).mapM (readEntry codec toDouble backend state options) <;> rfl

/-- A list call gives the matching snapshots among those that it looks at, if it can read all of
them. -/
theorem listEntries_spec (emitted : Nat) (entries : List (Option Id)) :
    (∀ entry ∈ reached codec toDouble backend state options emitted entries,
        (readEntry codec toDouble backend state options entry).isSome = true) ∧
      (∃ descriptors,
        listEntries codec toDouble backend state options emitted entries = some descriptors ∧
        ∀ descriptor, descriptor ∈ descriptors ↔
          ∃ entry ∈ reached codec toDouble backend state options emitted entries,
            readEntry codec toDouble backend state options entry = some (some descriptor)) ∨
    (¬∀ entry ∈ reached codec toDouble backend state options emitted entries,
        (readEntry codec toDouble backend state options entry).isSome = true) ∧
      listEntries codec toDouble backend state options emitted entries = none := by
  rw [listEntries_eq, Lists.mapM_eq_filterMap]
  split
  next all =>
    refine .inl ⟨List.all_eq_true.mp all, _, rfl, fun descriptor => ?_⟩
    rw [List.reduceOption_mem_iff, List.mem_filterMap]
  next broken =>
    exact .inr ⟨fun all => broken (List.all_eq_true.mpr all), rfl⟩

/-- The greatest of the snapshots that a list call looks at, or that it fails. -/
theorem getLatest_cases [LinearOrder double] :
    getLatest codec toDouble backend state options = none ∨
    ∃ descriptor entries, backend.list state = some entries ∧
      getLatest codec toDouble backend state options = some descriptor ∧
      (∀ entry ∈ reached codec toDouble backend state options 0 entries,
        (readEntry codec toDouble backend state options entry).isSome = true) ∧
      ∃ entry ∈ reached codec toDouble backend state options 0 entries,
        readEntry codec toDouble backend state options entry = some (some descriptor) := by
  cases latest : getLatest codec toDouble backend state options with
  | none => exact .inl rfl
  | some descriptor =>
      rw [getLatest, listFiltered, Option.bind_assoc] at latest
      obtain ⟨entries, listed, latest⟩ := Option.bind_eq_some_iff.mp latest
      obtain ⟨descriptors, filtered, isNewest⟩ := Option.bind_eq_some_iff.mp latest
      rcases listEntries_spec 0 entries with ⟨all, _, same, mem⟩ | ⟨-, failed⟩
      · rw [filtered] at same
        cases same
        rw [newest_eq] at isNewest
        have member := List.argmax_mem isNewest
        exact .inr ⟨descriptor, entries, listed, rfl, all, (mem descriptor).mp member⟩
      · rw [filtered] at failed
        cases failed

variable {entries : List (Option Id)}

theorem getLatest_of_greatest [LinearOrder double] {descriptor : Descriptor double}
    (listed : backend.list state = some entries)
    (all : ∀ entry ∈ reached codec toDouble backend state options 0 entries,
      (readEntry codec toDouble backend state options entry).isSome = true)
    (inside : ∃ entry ∈ reached codec toDouble backend state options 0 entries,
      readEntry codec toDouble backend state options entry = some (some descriptor))
    (greatest : ∀ other, Matching codec toDouble backend state options other →
      other ≠ descriptor → Newer descriptor other) :
    getLatest codec toDouble backend state options = some descriptor := by
  rcases listEntries_spec 0 entries with ⟨-, descriptors, filtered, mem⟩ | ⟨broken, -⟩
  · have member := (mem descriptor).mpr inside
    rw [getLatest, listFiltered, listed, Option.bind_some, filtered, Option.bind_some, newest_eq]
    cases isNewest : descriptors.argmax rank with
    | none => exact absurd (List.argmax_eq_none.mp isNewest ▸ member) List.not_mem_nil
    | some found =>
        obtain ⟨entry, isReached, reads⟩ := (mem found).mp (List.argmax_mem isNewest)
        have matching : Matching codec toDouble backend state options found :=
          ⟨entries, listed, entry, reached_subset 0 entries isReached, reads⟩
        by_contra other
        rw [Option.some.injEq] at other
        have older := newer_iff.mp (greatest found matching other)
        exact absurd (List.le_of_mem_argmax member isNewest) (not_le.mpr older)
  · exact absurd all broken

/-- Without a limit the answer is the greatest of all matching snapshots, in whatever order the
backend lists them. -/
theorem getLatest_unlimited [LinearOrder double]
    (unlimited : ∀ emitted, limitReached options emitted = false)
    (listed : backend.list state = some entries)
    (all : ∀ entry ∈ entries, (readEntry codec toDouble backend state options entry).isSome = true) :
    IsLatest codec toDouble backend state options
      (getLatest codec toDouble backend state options) := by
  have complete : reached codec toDouble backend state options 0 entries = entries :=
    reached_unlimited unlimited 0 entries
  rcases listEntries_spec 0 entries with ⟨-, descriptors, filtered, mem⟩ | ⟨broken, -⟩
  · rw [complete] at mem
    have inside : ∀ descriptor, Matching codec toDouble backend state options descriptor →
        descriptor ∈ descriptors := by
      rintro descriptor ⟨_, listedAgain, entry, member, reads⟩
      rw [listed] at listedAgain
      cases listedAgain
      exact (mem descriptor).mpr ⟨entry, member, reads⟩
    rw [getLatest, listFiltered, listed, Option.bind_some, filtered, Option.bind_some, newest_eq]
    cases isNewest : descriptors.argmax rank with
    | none =>
        rw [List.argmax_eq_none.mp isNewest] at inside
        exact fun descriptor matching => List.not_mem_nil (inside descriptor matching)
    | some greatest =>
        obtain ⟨entry, member, reads⟩ := (mem greatest).mp (List.argmax_mem isNewest)
        have matching : Matching codec toDouble backend state options greatest :=
          ⟨entries, listed, entry, member, reads⟩
        refine ⟨matching, fun other isOther different => ?_⟩
        have ids : greatest.snapshotId ≠ other.snapshotId :=
          fun same => different (matching_unique matching isOther same).symm
        apply (newer_total ids).resolve_right
        intro newer
        exact absurd (List.le_of_mem_argmax (inside other isOther) isNewest)
          (not_le.mpr (newer_iff.mp newer))
  · rw [complete] at broken
    exact absurd all broken

theorem readEntry_isSome {entry : Option Id}
    (described : (readEntry codec toDouble backend state none entry).isSome = true) :
    (readEntry codec toDouble backend state options entry).isSome = true := by
  obtain ⟨found, reads⟩ := Option.isSome_iff_exists.mp described
  obtain ⟨snapshotId, rfl, reads⟩ := Option.bind_eq_some_iff.mp reads
  obtain ⟨snapshotJson, loaded, reads⟩ := Option.bind_eq_some_iff.mp reads
  obtain ⟨snapshot, parsed, reads⟩ := Option.bind_eq_some_iff.mp reads
  rw [snapshotMatchesOptions, if_pos rfl] at reads
  obtain ⟨descriptor, made, -⟩ := Option.map_eq_some_iff.mp reads
  simp only [readEntry, Option.bind_eq_bind, Option.bind_some, loaded, parsed, made]
  split <;> rfl

theorem getLatest_single [LinearOrder double] {single : ListOptions} (unlimited : single.limit = 0)
    (listed : backend.list state = some entries) (described : ∀ entry ∈ entries,
      (readEntry codec toDouble backend state none entry).isSome = true) :
    IsLatest codec toDouble backend state (some single)
      (getLatest codec toDouble backend state (some single)) :=
  getLatest_unlimited (fun _ => by simp [limitReached, unlimited]) listed
    fun entry member => readEntry_isSome (described entry member)

end Reads

/-- The order of descriptors is a strict one, and total where ids differ.  The answer is the
greatest of all matching snapshots exactly when there is none, or when every entry that the list
call looks at can be read and the greatest one is listed before the limit is reached. -/
theorem getLatest_exact [LinearOrder double] :
    IsStrictOrder (Descriptor double) Newer ∧
    (∀ left right : Descriptor double, left.snapshotId ≠ right.snapshotId →
      Newer left right ∨ Newer right left) ∧
    (IsLatest codec toDouble backend state options
        (getLatest codec toDouble backend state options) ↔
      (∀ descriptor, ¬Matching codec toDouble backend state options descriptor) ∨
      ∃ entries, backend.list state = some entries ∧
        (∀ entry ∈ reached codec toDouble backend state options 0 entries,
          (readEntry codec toDouble backend state options entry).isSome = true) ∧
        ∃ entry ∈ reached codec toDouble backend state options 0 entries, ∃ descriptor,
          readEntry codec toDouble backend state options entry = some (some descriptor) ∧
          ∀ other, Matching codec toDouble backend state options other → other ≠ descriptor →
            Newer descriptor other) := by
  refine ⟨?_, fun left right => newer_total, ?_⟩
  · exact {
      irrefl := fun descriptor newer => lt_irrefl _ (newer_iff.mp newer)
      trans := fun first second third newer newer' =>
        newer_iff.mpr ((newer_iff.mp newer').trans (newer_iff.mp newer)) }
  have answers := @getLatest_cases double σ codec toDouble backend state options _
  constructor
  · intro isLatest
    rcases answers with failed | ⟨descriptor, entries, listed, found, all, inside⟩
    · rw [failed] at isLatest
      exact .inl isLatest
    · rw [found] at isLatest
      obtain ⟨entry, isReached, reads⟩ := inside
      exact .inr ⟨entries, listed, all, entry, isReached, descriptor, reads, isLatest.2⟩
  · rintro (none | ⟨entries, listed, all, entry, isReached, descriptor, reads, greatest⟩)
    · rcases answers with failed | ⟨descriptor, entries, listed, -, -, entry, isReached, reads⟩
      · rw [failed]
        exact none
      · exact absurd ⟨entries, listed, entry, reached_subset 0 entries isReached, reads⟩
          (none descriptor)
    · rw [getLatest_of_greatest listed all ⟨entry, isReached, reads⟩ greatest]
      exact ⟨⟨entries, listed, entry, reached_subset 0 entries isReached, reads⟩, greatest⟩

end Store

/-- The snapshot of a graph without nodes that counts its history entries. -/
def sampleSnapshot (nextHistoryId : Int) : Json :=
  .object [("topology", .object [("channels", .array []), ("nodes", .array []),
      ("edges", .array [])]),
    ("runtime", .object [("threads", .array []), ("runs", .array []), ("history", .array []),
      ("next_history_id", .int nextHistoryId)])]

def sampleCodec : JsonCodec :=
  Provider.knownCodec [sampleSnapshot 1, sampleSnapshot 2]

def sampleDouble (mantissa : Int) (exponent : Nat) : Int :=
  mantissa / 10 ^ exponent

def olderId : Id := ⟨asciiBytes "older", by decide⟩

def newerId : Id := ⟨asciiBytes "newer", by decide⟩

/-- The older graph is saved after the newer one. -/
def sampleRecords : List Record :=
  (run memoryStore [] [.save newerId (sampleCodec.serialize (sampleSnapshot 2)),
    .save olderId (sampleCodec.serialize (sampleSnapshot 1))]).1

def sampleDescriptor (snapshotId : Id) (nextHistoryId : Int) : Descriptor Int :=
  ⟨snapshotId, 0, none, none, 0, 0, 0, 0, 0, 0, 0, 0, 0, nextHistoryId, 0, 0, 0⟩

def onlyOne : ListOptions :=
  ⟨none, none, none, none, none, none, 1⟩

/-- With a limit of one the answer is the snapshot that is listed first. -/
theorem getLatest_limited :
    Matching sampleCodec sampleDouble memoryStore sampleRecords (some onlyOne)
      (sampleDescriptor newerId 2) ∧
    getLatest sampleCodec sampleDouble memoryStore sampleRecords (some onlyOne) =
      some (sampleDescriptor olderId 1) ∧
    ¬IsLatest sampleCodec sampleDouble memoryStore sampleRecords (some onlyOne)
      (getLatest sampleCodec sampleDouble memoryStore sampleRecords (some onlyOne)) := by
  have matching : Matching sampleCodec sampleDouble memoryStore sampleRecords (some onlyOne)
      (sampleDescriptor newerId 2) :=
    ⟨_, rfl, some newerId, by decide +kernel, by decide +kernel⟩
  have answer : getLatest sampleCodec sampleDouble memoryStore sampleRecords (some onlyOne) =
      some (sampleDescriptor olderId 1) := by decide +kernel
  refine ⟨matching, answer, ?_⟩
  rw [answer]
  intro isLatest
  have newer := isLatest.2 _ matching (by decide)
  exact absurd newer (by unfold Newer; decide)

/-- The calls for one thread, run, history entry or checkpoint answer the greatest of all snapshots
with it. -/
structure LatestForEach {double σ : Type} [LinearOrder double] (codec : JsonCodec)
    (toDouble : Int → Nat → double) (backend : Backend σ) (state : σ) (id : CString) : Prop where
  thread : IsLatest codec toDouble backend state (some { noOptions with threadId := some id })
    (getLatestForThread codec toDouble backend state id)
  run : IsLatest codec toDouble backend state (some { noOptions with runId := some id })
    (getLatestForRun codec toDouble backend state id)
  historyEntry : IsLatest codec toDouble backend state
    (some { noOptions with historyEntryId := some id })
    (getLatestForHistoryEntry codec toDouble backend state id)
  checkpoint : IsLatest codec toDouble backend state
    (some { noOptions with checkpointId := some id })
    (getLatestForCheckpoint codec toDouble backend state id)

/-- They do so in whatever order the backend lists the snapshots, if every snapshot that it lists
can be described. -/
theorem getLatestFor_exact {double σ : Type} [LinearOrder double] (codec : JsonCodec)
    (toDouble : Int → Nat → double) (backend : Backend σ) (state : σ)
    (entries : List (Option Id)) (listed : backend.list state = some entries)
    (described : ∀ entry ∈ entries,
      (readEntry codec toDouble backend state none entry).isSome = true) (id : CString) :
    LatestForEach codec toDouble backend state id :=
  ⟨getLatest_single rfl listed described, getLatest_single rfl listed described,
    getLatest_single rfl listed described, getLatest_single rfl listed described⟩

def sampleThread : CString := ⟨"thread", by decide⟩

theorem getLatestFor_exact_sample :
    LatestForEach sampleCodec sampleDouble memoryStore sampleRecords sampleThread := by
  have listed : memoryStore.list sampleRecords = some [some olderId, some newerId] := by
    decide +kernel
  refine getLatestFor_exact sampleCodec sampleDouble memoryStore sampleRecords _ listed ?_ _
  intro entry member
  rcases List.mem_pair.mp member with rfl | rfl <;> decide +kernel

end TurboAgent.SnapshotStore
