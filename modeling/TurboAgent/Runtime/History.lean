import TurboAgent.Runtime.Lineage

/-!
# The history of a run

Read by run id, the history of a run has the events of every checkpoint that was stored for the
run; read by checkpoint id, it has those of the checkpoints above.  A segment that stores its
checkpoint and fails to store its run record leaves a checkpoint that only the first reader
sees.  Without such a segment both readers agree.
-/

namespace TurboAgent.Segment

open Logic

variable {store next : Store} {config : Config} {world : World}

/-- A checkpoint would be stored, and the run record not. -/
def World.strands (world : World) : Bool :=
  world.status.resumable && world.checkpointStored && !world.publishes

/-- A resume of a run goes on from the latest checkpoint that the run record names. -/
def Call.Aligned (runId : String) (store : Store) (call : Call) : Prop :=
  ∀ checkpointId reads world, call = .resume checkpointId reads world →
    ∀ checkpoint, store.checkpoints.lookup checkpointId = some checkpoint →
      checkpoint.runId = runId → ∀ run, store.runs.lookup runId = some run →
        run.latestCheckpointId = some checkpointId

/-- Every resume of a run goes on from its latest checkpoint. -/
def AlignedIn (runId : String) (store : Store) : List Call → Prop
  | [] => True
  | call :: calls =>
      call.Aligned runId store ∧ AlignedIn runId (perform store call).2 calls

/-- No segment of a run leaves its checkpoint behind without the run record. -/
def WholeIn (runId : String) (store : Store) : List Call → Prop
  | [] => True
  | call :: calls =>
      (∀ config world, segmentOf store call = some (config, world) → config.runId = runId →
        world.strands = false) ∧ WholeIn runId (perform store call).2 calls

/-! ## The checkpoints of a run -/

/-- The checkpoints of a run are those on the way of its latest one. -/
def Published (runId : String) (store : Store) : Prop :=
  ∃ way : List (String × Checkpoint),
    (∀ checkpointId checkpoint, store.checkpoints.lookup checkpointId = some checkpoint →
      checkpoint.runId = runId → (checkpointId, checkpoint) ∈ way) ∧
    match (store.runs.lookup runId).bind Run.latestCheckpointId with
    | none => way = []
    | some checkpointId => Ancestry (fun checkpointId => store.checkpoints.lookup checkpointId)
        Checkpoint.parentCheckpointId checkpointId way

variable {runId : String}

theorem Published.of_records (published : Published runId store)
    (checkpoints : next.checkpoints = store.checkpoints) (runs : next.runs = store.runs) :
    Published runId next := by
  rw [Published, checkpoints, runs]
  exact published

variable {checkpointId : String}

theorem Published.insert_other (published : Published runId store) {checkpoint : Checkpoint}
    (fresh : checkpointId ∉ store.checkpoints) (other : checkpoint.runId ≠ runId) :
    Published runId { store with
      checkpoints := store.checkpoints.insert checkpointId checkpoint } := by
  obtain ⟨way, complete, ancestry⟩ := published
  refine ⟨way, ?_, ?_⟩
  · intro key record found same
    rcases lookup_insert_cases found with ⟨-, rfl⟩ | old
    · exact absurd same other
    · exact complete key record old same
  · revert ancestry
    dsimp only
    split
    next => exact id
    next => exact fun ancestry => ancestry.mono fun _ _ found => lookup_insert_of_fresh fresh found

theorem Published.insertRun_other {other : String} (published : Published runId store)
    (apart : runId ≠ other) (run : Run) :
    Published runId { store with runs := store.runs.insert other run } := by
  rw [Published]
  dsimp only
  rw [AList.lookup_insert_ne apart]
  exact published

variable {call : Call}

theorem segmentOf_parent (segment : segmentOf store call = some (config, world))
    (fresh : call.Fresh store) (aligned : call.Aligned config.runId store) :
    config.parentCheckpointId = (store.runs.lookup config.runId).bind Run.latestCheckpointId := by
  cases call with
  | start threadId runId link started =>
      cases segment
      rw [AList.lookup_eq_none.mpr fresh.1.1]
      rfl
  | resume checkpointId reads resumed =>
      rw [segmentOf, Option.map_eq_some_iff] at segment
      obtain ⟨⟨checkpoint, run⟩, read, same⟩ := segment
      cases same
      obtain ⟨found, isRun⟩ := readSource_some read
      have latest := aligned checkpointId reads _ rfl checkpoint found rfl run isRun
      rw [isRun, Option.bind_some, latest]
  | fork checkpointId runId reads forked =>
      rw [segmentOf, Option.map_eq_some_iff] at segment
      obtain ⟨source, -, same⟩ := segment
      cases same
      rw [AList.lookup_eq_none.mpr fresh.1.1]
      rfl

theorem Published.writes_own (published : Published config.runId store)
    (parent : config.parentCheckpointId =
      (store.runs.lookup config.runId).bind Run.latestCheckpointId)
    (fresh : world.Fresh store) (whole : world.strands = false)
    (writes : config.Writes world store next) : Published config.runId next := by
  cases writes with
  | none checkpoints runs => exact published.of_records checkpoints runs
  | stranded checkpointId checkpoint records unpublished =>
      rw [World.strands, records.built, records.stored, unpublished] at whole
      cases whole
  | ended run publishes checkpoints runs =>
      have latest : run.latestCheckpointId = config.parentCheckpointId := publishes.latest
      rw [Published, checkpoints, runs, AList.lookup_insert, Option.bind_some, latest, parent]
      exact published
  | paused checkpointId checkpoint run records publishes checkpoints runs =>
      have latest : run.latestCheckpointId = some checkpointId := publishes.latest
      have isFresh := (fresh _ records.made).2
      obtain ⟨way, complete, ancestry⟩ := published
      rw [Published, checkpoints, runs, AList.lookup_insert, Option.bind_some, latest]
      refine ⟨(checkpointId, checkpoint) :: way, ?_, ?_⟩
      · intro key record found same
        rcases lookup_insert_cases found with ⟨rfl, rfl⟩ | old
        · exact List.mem_cons_self
        · exact List.mem_cons_of_mem _ (complete key record old same)
      · have stored : (store.checkpoints.insert checkpointId checkpoint).lookup checkpointId =
            some checkpoint := AList.lookup_insert _
        rw [← parent] at ancestry
        have up := records.parent
        cases above : config.parentCheckpointId with
        | none =>
            rw [above] at ancestry up
            have top : way = [] := ancestry
            rw [top]
            exact .root stored up
        | some parentId =>
            rw [above] at ancestry up
            exact .child stored up
              (ancestry.mono fun _ _ found => lookup_insert_of_fresh isFresh found)

theorem Published.writes_other (published : Published runId store) (apart : runId ≠ config.runId)
    (fresh : world.Fresh store) (writes : config.Writes world store next) :
    Published runId next := by
  cases writes with
  | none checkpoints runs => exact published.of_records checkpoints runs
  | stranded checkpointId checkpoint records _ checkpoints runs =>
      have other : checkpoint.runId ≠ runId := fun same => apart (same.symm.trans records.runId)
      exact (published.insert_other (fresh _ records.made).2 other).of_records checkpoints runs
  | ended run _ checkpoints runs =>
      exact (published.insertRun_other apart run).of_records checkpoints runs
  | paused checkpointId checkpoint run records _ checkpoints runs =>
      have other : checkpoint.runId ≠ runId := fun same => apart (same.symm.trans records.runId)
      exact ((published.insert_other (fresh _ records.made).2 other).insertRun_other apart
        run).of_records checkpoints runs

theorem Published.perform (published : Published runId store) (fresh : call.Fresh store)
    (aligned : call.Aligned runId store)
    (whole : ∀ config world, segmentOf store call = some (config, world) →
      config.runId = runId → world.strands = false) :
    Published runId (Segment.perform store call).2 := by
  rw [Segment.perform]
  split
  next => exact published
  next config world segment =>
    have writes := execute_writes store config world
    have isFresh := segmentOf_fresh segment fresh
    by_cases own : config.runId = runId
    · subst own
      exact published.writes_own (segmentOf_parent segment fresh aligned) isFresh
        (whole config world segment rfl) writes
    · exact published.writes_other (Ne.symm own) isFresh writes

theorem Published.run (calls : List Call) : ∀ {store : Store},
    Published runId store → FreshIn store calls → AlignedIn runId store calls →
      WholeIn runId store calls → Published runId (Segment.run store calls) := by
  induction calls with
  | nil => exact fun published _ _ _ => published
  | cons call calls ih =>
      intro store published fresh aligned whole
      exact ih (published.perform fresh.1 aligned.1 whole.1) fresh.2 aligned.2 whole.2

theorem empty_published (runId : String) : Published runId .empty := by
  refine ⟨[], ?_, rfl⟩
  intro checkpointId checkpoint found
  cases found

/-! ## Both readers -/

/-- What `qsort` by sequence number gives. -/
def SortsBySeq (sort : List Checkpoint → List Checkpoint) : Prop :=
  ∀ records, (sort records).Perm records ∧
    (sort records).Pairwise fun left right => left.seq ≤ right.seq

theorem listCheckpoints_perm {way : List (String × Checkpoint)}
    (distinct : (way.map Prod.fst).Nodup)
    (found : ∀ pair ∈ way, store.checkpoints.lookup pair.1 = some pair.2 ∧ pair.2.runId = runId)
    (complete : ∀ checkpointId checkpoint,
      store.checkpoints.lookup checkpointId = some checkpoint → checkpoint.runId = runId →
        (checkpointId, checkpoint) ∈ way) :
    (listCheckpoints store runId).Perm (way.map Prod.snd) := by
  let entry (pair : String × Checkpoint) : Sigma fun _ : String => Checkpoint := ⟨pair.1, pair.2⟩
  have listed : listCheckpoints store runId = (store.checkpoints.entries.filter fun entry =>
      entry.2.runId = runId).map fun entry => entry.2 := by
    rw [listCheckpoints, List.filter_map]
    rfl
  have entries : (store.checkpoints.entries.filter fun entry => entry.2.runId = runId).Perm
      (way.map entry) := by
    refine (List.perm_ext_iff_of_nodup ?_ ?_).mpr ?_
    · exact store.checkpoints.nodupKeys.nodup.filter _
    · refine List.Nodup.of_map Sigma.fst ?_
      rw [List.map_map]
      exact distinct
    · intro record
      rw [List.mem_filter, decide_eq_true_eq, List.mem_map]
      constructor
      · rintro ⟨stored, same⟩
        exact ⟨(record.1, record.2), complete _ _ (AList.mem_lookup_iff.mpr stored) same, rfl⟩
      · rintro ⟨pair, member, rfl⟩
        obtain ⟨stored, same⟩ := found pair member
        exact ⟨AList.mem_lookup_iff.mp stored, same⟩
  have mapped := entries.map fun entry => entry.2
  rw [listed]
  rw [List.map_map] at mapped
  exact mapped

theorem Lineage.sorted (lineage : Lineage store) {checkpoint : Checkpoint}
    {way : List (String × Checkpoint)}
    (ancestry : Ancestry (fun checkpointId => store.checkpoints.lookup checkpointId)
      Checkpoint.parentCheckpointId checkpointId way)
    (found : store.checkpoints.lookup checkpointId = some checkpoint) :
    (way.reverse.map Prod.snd).Pairwise fun left right => left.seq < right.seq := by
  have heights := (lineage.rooted.heights ancestry found).1
  have seqs : (way.reverse.map Prod.snd).map Checkpoint.seq = List.range' 1 checkpoint.seq := by
    rw [List.map_map, List.map_reverse]
    show (way.map fun pair => pair.2.seq).reverse = _
    rw [heights, List.reverse_reverse]
  have increasing : ((way.reverse.map Prod.snd).map Checkpoint.seq).Pairwise (· < ·) := by
    rw [seqs]
    exact List.pairwise_lt_range'
  exact List.pairwise_map.mp increasing

/-- Two orders of the same records by distinct sequence numbers are the same. -/
theorem eq_of_sorted {left right : List Checkpoint} (perm : left.Perm right)
    (sorted : left.Pairwise fun first second => first.seq ≤ second.seq)
    (strict : right.Pairwise fun first second => first.seq < second.seq) : left = right := by
  have weak : right.Pairwise fun first second => first.seq ≤ second.seq :=
    strict.imp fun below => Nat.le_of_lt below
  refine perm.eq_of_pairwise ?_ sorted weak
  intro first second isFirst isSecond up down
  have distinct : (right.map Checkpoint.seq).Nodup :=
    List.pairwise_map.mpr (strict.imp fun below => Nat.ne_of_lt below)
  exact List.inj_on_of_nodup_map distinct (perm.mem_iff.mp isFirst) isSecond
    (Nat.le_antisymm up down)

theorem Published.history (published : Published runId store) (lineage : Lineage store)
    {sort : List Checkpoint → List Checkpoint} (sorts : SortsBySeq sort) {run : Run}
    (stored : store.runs.lookup runId = some run)
    (latest : run.latestCheckpointId = some checkpointId) :
    ∃ events, historyByRun sort store runId = some events ∧
      historyByCheckpoint store checkpointId = some events := by
  obtain ⟨way, complete, ancestry⟩ := published
  rw [stored, Option.bind_some, latest] at ancestry
  dsimp only at ancestry
  obtain ⟨checkpoint, found, same⟩ := lineage.latest runId run stored checkpointId latest
  obtain ⟨way', ancestry', -, chain⟩ := lineage.chain found
  cases ancestry.unique ancestry'
  have places := (lineage.rooted.heights ancestry found).2
  have perm := listCheckpoints_perm (lineage.rooted.nodup ancestry found)
    (fun pair member => ⟨ancestry.found pair member,
      (congrArg Prod.fst (places pair member)).trans same⟩) complete
  have valid : (listCheckpoints store runId).all (fun record =>
      decide (record.seq ≠ 0 ∧ record.seq ≤ maxExactInteger)) = true := by
    rw [List.all_eq_true]
    intro record member
    obtain ⟨pair, isPair, rfl⟩ := List.mem_map.mp (perm.mem_iff.mp member)
    have isStored := ancestry.found pair isPair
    have bounded := lineage.bounded _ _ isStored
    rw [decide_eq_true_eq]
    refine ⟨?_, bounded⟩
    rcases lineage.rooted _ _ isStored with ⟨one, -⟩ | ⟨_, _, _, _, _, higher⟩
    · rw [one]
      exact Nat.one_ne_zero
    · rw [higher]
      exact Nat.succ_ne_zero _
  have order : sort (listCheckpoints store runId) = way.reverse.map Prod.snd := by
    have reversed : (listCheckpoints store runId).Perm (way.reverse.map Prod.snd) := by
      rw [List.map_reverse]
      exact perm.trans (List.reverse_perm _).symm
    exact eq_of_sorted ((sorts _).1.trans reversed) (sorts _).2 (lineage.sorted ancestry found)
  refine ⟨way.reverse.flatMap fun pair => pair.2.events, ?_, ?_⟩
  · rw [historyByRun, recordsSorted, if_pos valid, Option.map_some, order, List.flatMap_map]
  · rw [historyByCheckpoint, chain, Option.map_some]

/-- Where every resume of a run goes on from its latest checkpoint, and no segment of the run
stores its checkpoint without its run record, both readers give the same history. -/
theorem history_agrees (sort : List Checkpoint → List Checkpoint) (sorts : SortsBySeq sort)
    (calls : List Call) (fresh : FreshIn .empty calls) (runId : String)
    (aligned : AlignedIn runId .empty calls) (whole : WholeIn runId .empty calls)
    (record : Run) (stored : (run .empty calls).runs.lookup runId = some record)
    (checkpointId : String) (latest : record.latestCheckpointId = some checkpointId) :
    ∃ events, historyByRun sort (run .empty calls) runId = some events ∧
      historyByCheckpoint (run .empty calls) checkpointId = some events :=
  (Published.run calls (empty_published runId) fresh aligned whole).history
    (Lineage.run calls empty_lineage fresh) sorts stored latest

def Below (left right : Checkpoint) : Prop :=
  left.seq ≤ right.seq

instance : DecidableRel Below := fun left right => inferInstanceAs (Decidable (left.seq ≤ right.seq))

instance : IsTrans Checkpoint Below := ⟨fun _ _ _ => Nat.le_trans⟩

instance : Std.Total Below := ⟨fun left right => Nat.le_total left.seq right.seq⟩

theorem insertionSort_sorts : SortsBySeq (List.insertionSort Below) :=
  fun records => ⟨List.perm_insertionSort Below records, List.pairwise_insertionSort Below records⟩

/-- A run that is resumed from its latest checkpoint, and a fork of it. -/
def alignedCalls : List Call :=
  [.start "thread" "first" noLink (sampleWorld "a" (.int 1) true),
    .fork "a" "second" ⟨true, true, true⟩ (sampleWorld "b" (.int 2) true),
    .resume "a" ⟨true, true, true⟩ (sampleWorld "c" (.int 3) true)]

theorem alignedCalls_fresh : FreshIn .empty alignedCalls :=
  ⟨⟨⟨by decide, by decide⟩, sampleWorld_fresh ⟨by decide, by decide⟩⟩,
    ⟨⟨by decide +kernel, by decide +kernel⟩, sampleWorld_fresh ⟨by decide, by decide +kernel⟩⟩,
    sampleWorld_fresh ⟨by decide, by decide +kernel⟩, trivial⟩

theorem aligned_of_latest {reads : Reads} {resumed : World}
    (latest : (store.runs.lookup runId).bind Run.latestCheckpointId = some checkpointId) :
    (Call.resume checkpointId reads resumed).Aligned runId store := by
  intro source _ _ same checkpoint _ _ run stored
  cases same
  rw [stored, Option.bind_some] at latest
  exact latest

theorem alignedCalls_aligned : AlignedIn "first" .empty alignedCalls := by
  refine ⟨?_, ?_, aligned_of_latest (by decide +kernel), trivial⟩
  · intro _ _ _ same
    cases same
  · intro _ _ _ same
    cases same

theorem segmentOf_world {made : World}
    (isMade : (∃ threadId runId link, call = .start threadId runId link made) ∨
      (∃ checkpointId reads, call = .resume checkpointId reads made) ∨
      ∃ checkpointId runId reads, call = .fork checkpointId runId reads made)
    (segment : segmentOf store call = some (config, world)) : world = made := by
  rcases isMade with ⟨_, _, _, rfl⟩ | ⟨_, _, rfl⟩ | ⟨_, _, _, rfl⟩
  · cases segment
    rfl
  · rw [segmentOf, Option.map_eq_some_iff] at segment
    obtain ⟨_, -, same⟩ := segment
    cases same
    rfl
  · rw [segmentOf, Option.map_eq_some_iff] at segment
    obtain ⟨_, -, same⟩ := segment
    cases same
    rfl

theorem alignedCalls_whole : WholeIn "first" .empty alignedCalls := by
  refine ⟨?_, ?_, ?_, trivial⟩
  · intro config world segment _
    rw [segmentOf_world (.inl ⟨_, _, _, rfl⟩) segment]
    rfl
  · intro config world segment _
    rw [segmentOf_world (.inr (.inr ⟨_, _, _, rfl⟩)) segment]
    rfl
  · intro config world segment _
    rw [segmentOf_world (.inr (.inl ⟨_, _, rfl⟩)) segment]
    rfl

theorem history_agrees_sample :
    ∃ events, historyByRun (List.insertionSort Below) (run .empty alignedCalls) "first" =
        some events ∧
      historyByCheckpoint (run .empty alignedCalls) "c" = some events := by
  have stored : ∃ record, (run .empty alignedCalls).runs.lookup "first" = some record ∧
      record.latestCheckpointId = some "c" := by
    refine ⟨_, rfl, ?_⟩
    decide +kernel
  obtain ⟨record, isRecord, latest⟩ := stored
  exact history_agrees _ insertionSort_sorts alignedCalls alignedCalls_fresh "first"
    alignedCalls_aligned alignedCalls_whole record isRecord "c" latest

/-- A segment whose run record could not be stored. -/
def strandedCalls : List Call :=
  [.start "thread" "first" noLink (sampleWorld "a" (.int 1) true),
    .resume "a" ⟨true, true, true⟩ (sampleWorld "b" (.int 2) false)]

theorem strandedCalls_fresh : FreshIn .empty strandedCalls :=
  ⟨⟨⟨by decide, by decide⟩, sampleWorld_fresh ⟨by decide, by decide⟩⟩,
    sampleWorld_fresh ⟨by decide, by decide +kernel⟩, trivial⟩

theorem strandedCalls_aligned : AlignedIn "first" .empty strandedCalls := by
  refine ⟨?_, aligned_of_latest (by decide +kernel), trivial⟩
  intro _ _ _ same
  cases same

/-- The events of a checkpoint that was never published are read by run id. -/
theorem history_replays_stranded :
    ¬∀ sort, SortsBySeq sort → ∀ calls, FreshIn .empty calls → ∀ runId,
      AlignedIn runId .empty calls →
      ∀ record, (run .empty calls).runs.lookup runId = some record →
      ∀ checkpointId, record.latestCheckpointId = some checkpointId →
        ∃ events, historyByRun sort (run .empty calls) runId = some events ∧
          historyByCheckpoint (run .empty calls) checkpointId = some events := by
  intro agrees
  have stored : ∃ record, (run .empty strandedCalls).runs.lookup "first" = some record ∧
      record.latestCheckpointId = some "a" := by
    refine ⟨_, rfl, ?_⟩
    decide +kernel
  obtain ⟨record, isRecord, latest⟩ := stored
  obtain ⟨events, byRun, byCheckpoint⟩ := agrees _ insertionSort_sorts strandedCalls
    strandedCalls_fresh "first" strandedCalls_aligned record isRecord "a" latest
  have replayed : historyByRun (List.insertionSort Below) (run .empty strandedCalls) "first" =
      some [.int 1, .int 2] := by
    decide +kernel
  have published : historyByCheckpoint (run .empty strandedCalls) "a" = some [.int 1] := by
    decide +kernel
  rw [replayed] at byRun
  rw [published, ← byRun] at byCheckpoint
  exact absurd byCheckpoint (by decide +kernel)

end TurboAgent.Segment
