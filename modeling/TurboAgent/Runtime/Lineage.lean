import TurboAgent.Runtime.Segment

/-!
# The lineage of checkpoints

Every stored checkpoint is the first of its run or continues a stored checkpoint of its run, at
every point at which a segment may fail.
-/

namespace TurboAgent.Segment

open Logic

/-! ## What a segment writes -/

structure Config.Records (config : Config) (world : World) (checkpointId : String)
    (checkpoint : Checkpoint) : Prop where
  made : world.checkpointId = some checkpointId
  built : world.status.resumable = true
  threadId : checkpoint.threadId = config.threadId
  runId : checkpoint.runId = config.runId
  parent : checkpoint.parentCheckpointId = config.parentCheckpointId
  seq : checkpoint.seq = config.nextCheckpointSeq
  stored : world.checkpointStored = true

structure Config.Publishes (config : Config) (checkpointId : Option String) (run : Run) : Prop where
  parentRunId : run.parentRunId = config.parentRunId
  forkedFrom : run.forkedFromCheckpointId = config.forkedFromCheckpointId
  latest : run.latestCheckpointId = (checkpointId <|> config.parentCheckpointId)

def World.publishes (world : World) : Bool :=
  world.cloned && world.runBuilt && world.runStored

inductive Config.Writes (config : Config) (world : World) (store next : Store) : Prop where
  /-- Neither a checkpoint nor the run. -/
  | none (checkpoints : next.checkpoints = store.checkpoints) (runs : next.runs = store.runs)
  /-- A checkpoint without the run. -/
  | stranded (checkpointId : String) (checkpoint : Checkpoint)
      (records : config.Records world checkpointId checkpoint)
      (unpublished : world.publishes = false)
      (checkpoints : next.checkpoints = store.checkpoints.insert checkpointId checkpoint)
      (runs : next.runs = store.runs)
  /-- The run without a checkpoint. -/
  | ended (run : Run) (publishes : config.Publishes Option.none run)
      (checkpoints : next.checkpoints = store.checkpoints)
      (runs : next.runs = store.runs.insert config.runId run)
  /-- A checkpoint and the run. -/
  | paused (checkpointId : String) (checkpoint : Checkpoint) (run : Run)
      (records : config.Records world checkpointId checkpoint)
      (publishes : config.Publishes (some checkpointId) run)
      (checkpoints : next.checkpoints = store.checkpoints.insert checkpointId checkpoint)
      (runs : next.runs = store.runs.insert config.runId run)

variable {store next : Store} {config : Config} {world : World}

theorem publish_cases (store : Store) (config : Config) (world : World) (run : Run) :
    ((publish store config world run).2 = store ∧ world.publishes = false) ∨
    ((publish store config world run).2.checkpoints = store.checkpoints ∧
      (publish store config world run).2.runs = store.runs.insert config.runId run) := by
  rw [publish]
  split
  next failed =>
    refine .inl ⟨rfl, ?_⟩
    rw [World.publishes]
    rcases failed with failed | failed | failed
    · simp [show world.cloned = false by simpa using failed]
    · simp [show world.runBuilt = false by simpa using failed]
    · simp [show world.runStored = false by simpa using failed]
  next =>
    dsimp only
    split
    next => exact .inr ⟨rfl, rfl⟩
    next => exact .inr ⟨rfl, rfl⟩

theorem headInitialize_records {ready : Store}
    (initialized : headInitialize store config world = some ready) :
    ready.checkpoints = store.checkpoints ∧ ready.runs = store.runs := by
  rw [headInitialize] at initialized
  split at initialized
  next => cases initialized
  split at initialized
  next =>
    cases initialized
    exact ⟨rfl, rfl⟩
  split at initialized
  next =>
    cases initialized
    exact ⟨rfl, rfl⟩
  next => cases initialized

variable {checkpointId : String}

theorem recordCheckpoint_some {updatedAt : String} {after : Store}
    (resumable : world.status.resumable = true)
    (recorded : recordCheckpoint store config world updatedAt = some (after, checkpointId)) :
    ∃ checkpoint, config.Records world checkpointId checkpoint ∧
      after.checkpoints = store.checkpoints.insert checkpointId checkpoint ∧
      after.runs = store.runs := by
  rw [recordCheckpoint] at recorded
  split at recorded
  next id checkpointJson made _ =>
    split at recorded
    next stored =>
      cases recorded
      exact ⟨_, ⟨made, resumable, rfl, rfl, rfl, rfl, stored.2.2⟩, rfl, rfl⟩
    next => cases recorded
  next => cases recorded

theorem execute_writes (store : Store) (config : Config) (world : World) :
    config.Writes world store (execute store config world).2 := by
  rw [execute]
  split
  next => exact .none rfl rfl
  split
  next createdAt updatedAt _ _ =>
    split
    next => exact .none rfl rfl
    split
    next => exact .none rfl rfl
    next ready initialized =>
      obtain ⟨checkpoints, runs⟩ := headInitialize_records initialized
      split
      next => exact .none checkpoints runs
      split
      next state status _ _ =>
        split
        next resumable =>
          split
          next => exact .none checkpoints runs
          next after checkpointId recorded =>
            obtain ⟨checkpoint, records, checkpoints', runs'⟩ :=
              recordCheckpoint_some resumable recorded
            rw [checkpoints] at checkpoints'
            rw [runs] at runs'
            rcases publish_cases after config world
              (runRecord config status createdAt updatedAt state (some checkpointId)) with
              ⟨same, unpublished⟩ | ⟨keep, run⟩
            · rw [same]
              exact .stranded checkpointId checkpoint records unpublished checkpoints' runs'
            · rw [runs'] at run
              exact .paused checkpointId checkpoint _ records ⟨rfl, rfl, rfl⟩
                (keep.trans checkpoints') run
        next =>
          rcases publish_cases ready config world
            (runRecord config status createdAt updatedAt state none) with
            ⟨same, -⟩ | ⟨keep, run⟩
          · rw [same]
            exact .none checkpoints runs
          · rw [runs] at run
            exact .ended _ ⟨rfl, rfl, rfl⟩ (keep.trans checkpoints) run
      next => exact .none checkpoints runs
  next => exact .none rfl rfl

/-! ## Ids -/

def Store.Unknown (store : Store) (runId : String) : Prop :=
  runId ∉ store.runs ∧ ∀ entry ∈ store.checkpoints.entries, entry.2.runId ≠ runId

/-- The id that is made for a checkpoint is not in use. -/
def World.Fresh (world : World) (store : Store) : Prop :=
  ∀ checkpointId, world.checkpointId = some checkpointId →
    checkpointId ≠ "" ∧ checkpointId ∉ store.checkpoints

/-- The ids that are made in a call are not in use. -/
def Call.Fresh (store : Store) : Call → Prop
  | .start _ runId _ world => store.Unknown runId ∧ world.Fresh store
  | .resume _ _ world => world.Fresh store
  | .fork _ runId _ world => store.Unknown runId ∧ world.Fresh store

/-- The ids that are made in a sequence of calls are not in use. -/
def FreshIn (store : Store) : List Call → Prop
  | [] => True
  | call :: calls => call.Fresh store ∧ FreshIn (perform store call).2 calls

/-! ## The invariant -/

def Checkpoint.place (checkpoint : Checkpoint) : String × String :=
  (checkpoint.runId, checkpoint.threadId)

/-- Checkpoints and runs are linked as they should. -/
structure Lineage (store : Store) : Prop where
  rooted : Rooted (fun checkpointId => store.checkpoints.lookup checkpointId)
    Checkpoint.parentCheckpointId Checkpoint.seq Checkpoint.place
  named : "" ∉ store.checkpoints
  bounded : ∀ checkpointId checkpoint, store.checkpoints.lookup checkpointId = some checkpoint →
    checkpoint.seq ≤ maxExactInteger
  latest : ∀ runId run, store.runs.lookup runId = some run →
    ∀ checkpointId, run.latestCheckpointId = some checkpointId →
      ∃ checkpoint, store.checkpoints.lookup checkpointId = some checkpoint ∧
        checkpoint.runId = runId
  forked : ∀ runId run, store.runs.lookup runId = some run →
    ∀ checkpointId, run.forkedFromCheckpointId = some checkpointId →
      ∃ checkpoint, store.checkpoints.lookup checkpointId = some checkpoint ∧
        run.parentRunId = some checkpoint.runId

structure Config.Placed (config : Config) (store : Store) : Prop where
  parent : (config.parentCheckpointId = none ∧ config.nextCheckpointSeq = 1) ∨
    ∃ checkpointId checkpoint, config.parentCheckpointId = some checkpointId ∧
      store.checkpoints.lookup checkpointId = some checkpoint ∧
      checkpoint.place = (config.runId, config.threadId) ∧
      config.nextCheckpointSeq = checkpoint.seq + 1
  forked : ∀ checkpointId, config.forkedFromCheckpointId = some checkpointId →
    ∃ checkpoint, store.checkpoints.lookup checkpointId = some checkpoint ∧
      config.parentRunId = some checkpoint.runId

variable {checkpoint : Checkpoint}

theorem lookup_insert_of_fresh (fresh : checkpointId ∉ store.checkpoints) {key : String}
    {record : Checkpoint} (found : store.checkpoints.lookup key = some record) :
    (store.checkpoints.insert checkpointId checkpoint).lookup key = some record := by
  have other : key ≠ checkpointId := by
    rintro rfl
    exact fresh (AList.lookup_isSome.mp (by rw [found]; rfl))
  rw [AList.lookup_insert_ne other]
  exact found

theorem lookup_insert_cases {key : String} {record : Checkpoint}
    (found : (store.checkpoints.insert checkpointId checkpoint).lookup key = some record) :
    (key = checkpointId ∧ record = checkpoint) ∨ store.checkpoints.lookup key = some record := by
  by_cases same : key = checkpointId
  · rw [same, AList.lookup_insert] at found
    exact .inl ⟨same, (Option.some.inj found).symm⟩
  · rw [AList.lookup_insert_ne same] at found
    exact .inr found

theorem Lineage.insert (lineage : Lineage store) (placed : config.Placed store)
    (records : config.Records world checkpointId checkpoint)
    (fresh : checkpointId ≠ "" ∧ checkpointId ∉ store.checkpoints)
    (bounded : config.nextCheckpointSeq ≤ maxExactInteger) :
    Lineage { store with checkpoints := store.checkpoints.insert checkpointId checkpoint } := by
  have keeps : ∀ {key record}, store.checkpoints.lookup key = some record →
      (store.checkpoints.insert checkpointId checkpoint).lookup key = some record :=
    fun found => lookup_insert_of_fresh fresh.2 found
  have place : checkpoint.place = (config.runId, config.threadId) := by
    rw [Checkpoint.place, records.runId, records.threadId]
  refine ⟨?_, ?_, ?_, ?_, ?_⟩
  · intro key record found
    rcases lookup_insert_cases found with ⟨rfl, rfl⟩ | old
    · rw [records.seq, records.parent]
      rcases placed.parent with ⟨none, one⟩ | ⟨parentId, parent, isParent, stored, same, next⟩
      · exact .inl ⟨one, none⟩
      · exact .inr ⟨parentId, parent, isParent, keeps stored, same.trans place.symm, next⟩
    · rcases lineage.rooted key record old with root | ⟨next, above, up, stored, same, higher⟩
      · exact .inl root
      · exact .inr ⟨next, above, up, keeps stored, same, higher⟩
  · intro member
    rcases (AList.mem_insert _).mp member with same | old
    · exact fresh.1 same.symm
    · exact lineage.named old
  · intro key record found
    rcases lookup_insert_cases found with ⟨-, rfl⟩ | old
    · rw [records.seq]
      exact bounded
    · exact lineage.bounded key record old
  · intro runId run isRun key isKey
    obtain ⟨found, stored, same⟩ := lineage.latest runId run isRun key isKey
    exact ⟨found, keeps stored, same⟩
  · intro runId run isRun key isKey
    obtain ⟨found, stored, same⟩ := lineage.forked runId run isRun key isKey
    exact ⟨found, keeps stored, same⟩

theorem Lineage.insertRun (lineage : Lineage store) (runId : String) (run : Run)
    (latest : ∀ checkpointId, run.latestCheckpointId = some checkpointId →
      ∃ checkpoint, store.checkpoints.lookup checkpointId = some checkpoint ∧
        checkpoint.runId = runId)
    (forked : ∀ checkpointId, run.forkedFromCheckpointId = some checkpointId →
      ∃ checkpoint, store.checkpoints.lookup checkpointId = some checkpoint ∧
        run.parentRunId = some checkpoint.runId) :
    Lineage { store with runs := store.runs.insert runId run } := by
  have cases : ∀ {key record}, (store.runs.insert runId run).lookup key = some record →
      (key = runId ∧ record = run) ∨ store.runs.lookup key = some record := by
    intro key record found
    by_cases same : key = runId
    · rw [same, AList.lookup_insert] at found
      exact .inl ⟨same, (Option.some.inj found).symm⟩
    · rw [AList.lookup_insert_ne same] at found
      exact .inr found
  refine ⟨lineage.rooted, lineage.named, lineage.bounded, ?_, ?_⟩
  · intro key record found
    rcases cases found with ⟨rfl, rfl⟩ | old
    · exact latest
    · exact lineage.latest key record old
  · intro key record found
    rcases cases found with ⟨rfl, rfl⟩ | old
    · exact forked
    · exact lineage.forked key record old

theorem Lineage.of_records (lineage : Lineage store) (checkpoints : next.checkpoints = store.checkpoints)
    (runs : next.runs = store.runs) : Lineage next := by
  obtain ⟨rooted, named, bounded, latest, forked⟩ := lineage
  rw [← checkpoints] at rooted named bounded latest forked
  rw [← runs] at latest forked
  exact ⟨rooted, named, bounded, latest, forked⟩

theorem readSource_some {reads : Reads} {run : Run}
    (read : readSource store checkpointId reads = some (checkpoint, run)) :
    store.checkpoints.lookup checkpointId = some checkpoint ∧
      store.runs.lookup checkpoint.runId = some run := by
  rw [readSource] at read
  split at read
  next => cases read
  split at read
  next => cases read
  next found isFound =>
    split at read
    next => cases read
    split at read
    next => cases read
    next record isRecord =>
      split at read
      next =>
        cases read
        exact ⟨isFound, isRecord⟩
      next => cases read

variable {call : Call}

/-- The segment of every call continues a stored checkpoint of its run or starts a run. -/
theorem segmentOf_placed (lineage : Lineage store)
    (segment : segmentOf store call = some (config, world)) : config.Placed store := by
  cases call with
  | start threadId runId link started =>
      cases segment
      exact ⟨.inl ⟨rfl, rfl⟩, fun _ isForked => by cases isForked⟩
  | resume checkpointId reads resumed =>
      rw [segmentOf, Option.map_eq_some_iff] at segment
      obtain ⟨⟨checkpoint, run⟩, read, same⟩ := segment
      cases same
      obtain ⟨found, isRun⟩ := readSource_some read
      exact ⟨.inr ⟨checkpointId, checkpoint, rfl, found, rfl, rfl⟩,
        lineage.forked checkpoint.runId run isRun⟩
  | fork checkpointId runId reads forked =>
      rw [segmentOf, Option.map_eq_some_iff] at segment
      obtain ⟨⟨checkpoint, run⟩, read, same⟩ := segment
      cases same
      obtain ⟨found, -⟩ := readSource_some read
      refine ⟨.inl ⟨rfl, rfl⟩, ?_⟩
      intro source isSource
      cases isSource
      exact ⟨checkpoint, found, rfl⟩

theorem segmentOf_fresh (segment : segmentOf store call = some (config, world))
    (fresh : call.Fresh store) : world.Fresh store := by
  cases call with
  | start threadId runId link started =>
      cases segment
      exact fresh.2
  | resume checkpointId reads resumed =>
      rw [segmentOf, Option.map_eq_some_iff] at segment
      obtain ⟨source, -, same⟩ := segment
      cases same
      exact fresh
  | fork checkpointId runId reads forked =>
      rw [segmentOf, Option.map_eq_some_iff] at segment
      obtain ⟨source, -, same⟩ := segment
      cases same
      exact fresh.2

theorem execute_seq (changed : (execute store config world).2 ≠ store) :
    config.nextCheckpointSeq ≤ maxExactInteger := by
  by_contra beyond
  refine changed ?_
  rw [execute, if_pos (.inr (Nat.lt_of_not_le beyond))]

theorem Config.Placed.parent_stored (placed : config.Placed store)
    (isParent : config.parentCheckpointId = some checkpointId) :
    ∃ checkpoint, store.checkpoints.lookup checkpointId = some checkpoint ∧
      checkpoint.runId = config.runId := by
  rcases placed.parent with ⟨none, -⟩ | ⟨parentId, parent, isSome, stored, same, -⟩
  · rw [none] at isParent
    cases isParent
  · rw [isSome] at isParent
    cases isParent
    exact ⟨parent, stored, congrArg Prod.fst same⟩

theorem Lineage.writes (lineage : Lineage store) (placed : config.Placed store)
    (fresh : world.Fresh store) (bounded : config.nextCheckpointSeq ≤ maxExactInteger)
    (writes : config.Writes world store next) : Lineage next := by
  cases writes with
  | none checkpoints runs => exact lineage.of_records checkpoints runs
  | stranded checkpointId checkpoint records _ checkpoints runs =>
      exact (lineage.insert placed records (fresh _ records.made) bounded).of_records
        checkpoints runs
  | ended run publishes checkpoints runs =>
      refine (lineage.insertRun config.runId run ?_ ?_).of_records checkpoints runs
      · intro checkpointId isLatest
        rw [publishes.latest] at isLatest
        exact placed.parent_stored isLatest
      · intro checkpointId isForked
        rw [publishes.forkedFrom] at isForked
        rw [publishes.parentRunId]
        exact placed.forked checkpointId isForked
  | paused checkpointId checkpoint run records publishes checkpoints runs =>
      have inserted := lineage.insert placed records (fresh _ records.made) bounded
      refine (inserted.insertRun config.runId run ?_ ?_).of_records checkpoints runs
      · intro latest isLatest
        rw [publishes.latest] at isLatest
        cases isLatest
        exact ⟨checkpoint, AList.lookup_insert _, records.runId⟩
      · intro source isForked
        rw [publishes.forkedFrom] at isForked
        obtain ⟨forked, stored, same⟩ := placed.forked source isForked
        rw [publishes.parentRunId]
        exact ⟨forked, lookup_insert_of_fresh (fresh _ records.made).2 stored, same⟩

theorem Lineage.perform (lineage : Lineage store) (fresh : call.Fresh store) :
    Lineage (Segment.perform store call).2 := by
  rw [Segment.perform]
  split
  next => exact lineage
  next config world segment =>
    by_cases changed : (execute store config world).2 = store
    · rw [changed]
      exact lineage
    · exact lineage.writes (segmentOf_placed lineage segment) (segmentOf_fresh segment fresh)
        (execute_seq changed) (execute_writes store config world)

theorem Lineage.run (calls : List Call) : ∀ {store : Store}, Lineage store → FreshIn store calls →
    Lineage (Segment.run store calls) := by
  induction calls with
  | nil => exact fun lineage _ => lineage
  | cons call calls ih => exact fun lineage fresh => ih (lineage.perform fresh.1) fresh.2

theorem empty_lineage : Lineage .empty where
  rooted _ _ found := by cases found
  named := AList.notMem_empty _
  bounded _ _ found := by cases found
  latest _ _ found := by cases found
  forked _ _ found := by cases found

/-! ## Chains -/

theorem chainFrom_ancestry (named : "" ∉ store.checkpoints) {way : List (String × Checkpoint)}
    (ancestry : Ancestry (fun checkpointId => store.checkpoints.lookup checkpointId)
      Checkpoint.parentCheckpointId checkpointId way) :
    ∀ rounds seen, way.length ≤ rounds → (way.map Prod.fst).Nodup →
      (∀ pair ∈ way, pair.1 ∉ seen) → chainFrom store rounds seen checkpointId = some way := by
  induction ancestry with
  | root found top =>
      intro rounds seen enough _ unseen
      rw [List.length_singleton] at enough
      obtain ⟨rounds, rfl⟩ : ∃ more, rounds = more + 1 := ⟨rounds - 1, by omega⟩
      rw [chainFrom, if_neg (unseen _ List.mem_cons_self), found]
      dsimp only
      rw [top]
      rfl
  | @child key next record above found up rest ih =>
      intro rounds seen enough distinct unseen
      rw [List.length_cons] at enough
      obtain ⟨rounds, rfl⟩ : ∃ more, rounds = more + 1 := ⟨rounds - 1, by omega⟩
      rw [List.map_cons, List.nodup_cons] at distinct
      obtain ⟨first, others⟩ := List.forall_mem_cons.mp unseen
      have isNamed : next ≠ "" := by
        rintro rfl
        obtain ⟨record, isRecord⟩ := rest.start
        exact named (AList.lookup_isSome.mp (by rw [isRecord]; rfl))
      rw [chainFrom, if_neg first, found]
      dsimp only
      rw [up, Option.filter_some, if_pos (by simpa using isNamed)]
      dsimp only
      rw [ih rounds _ (by omega) distinct.2, Option.map_some]
      intro pair member
      rw [List.mem_cons, not_or]
      refine ⟨?_, others pair member⟩
      intro same
      exact distinct.1 (List.mem_map.mpr ⟨pair, member, same⟩)

theorem Lineage.chain (lineage : Lineage store)
    (found : store.checkpoints.lookup checkpointId = some checkpoint) :
    ∃ way, Ancestry (fun checkpointId => store.checkpoints.lookup checkpointId)
        Checkpoint.parentCheckpointId checkpointId way ∧
      way.length = checkpoint.seq ∧ checkpointChain store checkpointId = some way := by
  obtain ⟨way, ancestry, length⟩ := lineage.rooted.exists_ancestry found
  have distinct := lineage.rooted.nodup ancestry found
  refine ⟨way, ancestry, length, ?_⟩
  refine chainFrom_ancestry lineage.named ancestry _ _ ?_ distinct (by simp)
  have within : way.map Prod.fst ⊆ store.checkpoints.keys := by
    intro key member
    obtain ⟨pair, isPair, rfl⟩ := List.mem_map.mp member
    exact AList.lookup_isSome.mp (by rw [ancestry.found pair isPair]; rfl)
  have few := (distinct.subperm within).length_le
  rw [List.length_map] at few
  have count : store.checkpoints.keys.length = store.checkpoints.entries.length :=
    List.length_map _
  omega

/-! ## Forks -/

def ForkedFrom (checkpointId runId : String) (store : Store) : Prop :=
  ∃ record, store.runs.lookup runId = some record ∧
    record.forkedFromCheckpointId = some checkpointId

theorem Config.Writes.runs_cases (writes : config.Writes world store next) :
    next.runs = store.runs ∨ ∃ record, next.runs = store.runs.insert config.runId record ∧
      record.forkedFromCheckpointId = config.forkedFromCheckpointId := by
  cases writes with
  | none _ runs => exact .inl runs
  | stranded _ _ _ _ _ runs => exact .inl runs
  | ended record publishes _ runs => exact .inr ⟨record, runs, publishes.forkedFrom⟩
  | paused _ _ record _ publishes _ runs => exact .inr ⟨record, runs, publishes.forkedFrom⟩

theorem segmentOf_forkedFrom (segment : segmentOf store call = some (config, world))
    (fresh : call.Fresh store) {record : Run}
    (stored : store.runs.lookup config.runId = some record) :
    config.forkedFromCheckpointId = record.forkedFromCheckpointId := by
  have known : config.runId ∈ store.runs := AList.lookup_isSome.mp (by rw [stored]; rfl)
  cases call with
  | start threadId runId link started =>
      cases segment
      exact absurd known fresh.1.1
  | resume checkpointId reads resumed =>
      rw [segmentOf, Option.map_eq_some_iff] at segment
      obtain ⟨⟨checkpoint, run⟩, read, same⟩ := segment
      cases same
      have isRun := (readSource_some read).2
      rw [show store.runs.lookup checkpoint.runId = some record from stored] at isRun
      cases isRun
      rfl
  | fork checkpointId runId reads forked =>
      rw [segmentOf, Option.map_eq_some_iff] at segment
      obtain ⟨source, -, same⟩ := segment
      cases same
      exact absurd known fresh.1.1

variable {runId : String}

theorem ForkedFrom.perform (forked : ForkedFrom checkpointId runId store) (fresh : call.Fresh store) :
    ForkedFrom checkpointId runId (Segment.perform store call).2 := by
  rw [Segment.perform]
  split
  next => exact forked
  next config world segment =>
    obtain ⟨record, stored, isForked⟩ := forked
    rcases (execute_writes store config world).runs_cases with same | ⟨written, runs, source⟩
    · rw [ForkedFrom, same]
      exact ⟨record, stored, isForked⟩
    · rw [ForkedFrom, runs]
      by_cases here : runId = config.runId
      · subst here
        refine ⟨written, AList.lookup_insert _, ?_⟩
        rw [source, segmentOf_forkedFrom segment fresh stored]
        exact isForked
      · exact ⟨record, by rw [AList.lookup_insert_ne here]; exact stored, isForked⟩

theorem ForkedFrom.run (calls : List Call) : ∀ {store : Store},
    ForkedFrom checkpointId runId store → FreshIn store calls →
      ForkedFrom checkpointId runId (Segment.run store calls) := by
  induction calls with
  | nil => exact fun forked _ => forked
  | cons call calls ih => exact fun forked fresh => ih (forked.perform fresh.1) fresh.2

theorem perform_fork {reads : Reads} {forked : World} (unknown : runId ∉ store.runs)
    (written : runId ∈ (perform store (.fork checkpointId runId reads forked)).2.runs) :
    ForkedFrom checkpointId runId (perform store (.fork checkpointId runId reads forked)).2 := by
  rw [perform] at written ⊢
  split at written
  next => exact absurd written unknown
  next config world segment =>
    rw [segmentOf, Option.map_eq_some_iff] at segment
    obtain ⟨source, -, same⟩ := segment
    cases same
    rcases (execute_writes store _ forked).runs_cases with kept | ⟨record, runs, isForked⟩
    · rw [kept] at written
      exact absurd written unknown
    · rw [ForkedFrom, runs]
      exact ⟨record, AList.lookup_insert _, isForked⟩

theorem run_append (store : Store) (before after : List Call) :
    run store (before ++ after) = run (run store before) after :=
  List.foldl_append

theorem freshIn_append {before after : List Call} :
    FreshIn store (before ++ after) ↔ FreshIn store before ∧ FreshIn (run store before) after := by
  induction before generalizing store with
  | nil => exact ⟨fun fresh => ⟨trivial, fresh⟩, fun fresh => fresh.2⟩
  | cons call before ih =>
      constructor
      · rintro ⟨first, rest⟩
        exact ⟨⟨first, (ih.mp rest).1⟩, (ih.mp rest).2⟩
      · rintro ⟨⟨first, rest⟩, later⟩
        exact ⟨first, ih.mpr ⟨rest, later⟩⟩

/-- Every stored checkpoint is the first of its run or continues a stored checkpoint of its run
and thread, and its chain is as long as its sequence number; runs name stored checkpoints of
theirs, and a fork that was stored names the run that it comes from. -/
theorem run_lineage (calls : List Call) (fresh : FreshIn .empty calls) :
    (∀ checkpointId checkpoint,
      (run .empty calls).checkpoints.lookup checkpointId = some checkpoint →
        ((checkpoint.seq = 1 ∧ checkpoint.parentCheckpointId = none) ∨
          ∃ parentId parent, checkpoint.parentCheckpointId = some parentId ∧
            (run .empty calls).checkpoints.lookup parentId = some parent ∧
            parent.runId = checkpoint.runId ∧ parent.threadId = checkpoint.threadId ∧
            checkpoint.seq = parent.seq + 1) ∧
        ∃ chain, checkpointChain (run .empty calls) checkpointId = some chain ∧
          chain.length = checkpoint.seq) ∧
    (∀ runId record, (run .empty calls).runs.lookup runId = some record →
      (∀ checkpointId, record.latestCheckpointId = some checkpointId →
        ∃ checkpoint, (run .empty calls).checkpoints.lookup checkpointId = some checkpoint ∧
          checkpoint.runId = runId) ∧
      ∀ checkpointId, record.forkedFromCheckpointId = some checkpointId →
        ∃ checkpoint, (run .empty calls).checkpoints.lookup checkpointId = some checkpoint ∧
          record.parentRunId = some checkpoint.runId) ∧
    ∀ before after checkpointId runId reads world,
      calls = before ++ .fork checkpointId runId reads world :: after →
      runId ∈ (run .empty (before ++ [.fork checkpointId runId reads world])).runs →
        ∃ record checkpoint, (run .empty calls).runs.lookup runId = some record ∧
          (run .empty calls).checkpoints.lookup checkpointId = some checkpoint ∧
          record.parentRunId = some checkpoint.runId := by
  have lineage := Lineage.run calls empty_lineage fresh
  refine ⟨?_, ?_, ?_⟩
  · intro checkpointId checkpoint found
    obtain ⟨way, -, length, chain⟩ := lineage.chain found
    refine ⟨?_, way, chain, length⟩
    rcases lineage.rooted checkpointId checkpoint found with
      root | ⟨parentId, parent, isParent, stored, same, next⟩
    · exact .inl root
    · exact .inr ⟨parentId, parent, isParent, stored, congrArg Prod.fst same,
        congrArg Prod.snd same, next⟩
  · intro runId record isRecord
    exact ⟨lineage.latest runId record isRecord, lineage.forked runId record isRecord⟩
  · intro before after checkpointId runId reads world isCalls written
    have fresh := isCalls ▸ fresh
    obtain ⟨-, ⟨unknown, -⟩, later⟩ := freshIn_append.mp fresh
    rw [run_append] at written
    have forked := (perform_fork unknown.1 written).run after later
    have whole : run .empty calls =
        run (perform (run .empty before) (.fork checkpointId runId reads world)).2 after := by
      rw [isCalls, run_append]
      rfl
    rw [← whole] at forked
    obtain ⟨record, stored, isForked⟩ := forked
    obtain ⟨checkpoint, found, same⟩ := lineage.forked runId record stored checkpointId isForked
    exact ⟨record, checkpoint, stored, found, same⟩

def noLink : ParentLink := ⟨none, none, none, none, none⟩

/-- A segment that stops with a checkpoint and stores its records as told. -/
def sampleWorld (checkpointId : String) (event : Json) (runStored : Bool) : World where
  createdAt := some "t"
  updatedAt := some "t"
  threadStored := true
  headRead := true
  headMarked := true
  logged := true
  status := .interrupted
  state := some (.object [])
  checkpoint := some (.object [])
  events := [event]
  checkpointId := some checkpointId
  checkpointBuilt := true
  checkpointStored := true
  cloned := true
  runBuilt := true
  runStored
  summarized := true
  headStored := true

/-- A run is resumed from its first checkpoint, in vain at first, and forked. -/
def sampleCalls : List Call :=
  [.start "thread" "first" noLink (sampleWorld "a" (.int 1) true),
    .resume "a" ⟨true, true, true⟩ (sampleWorld "b" (.int 2) false),
    .resume "a" ⟨true, true, true⟩ (sampleWorld "c" (.int 3) true),
    .fork "b" "second" ⟨true, true, true⟩ (sampleWorld "d" (.int 4) true)]

theorem sampleWorld_fresh {event : Json} {runStored : Bool}
    (fresh : checkpointId ≠ "" ∧ checkpointId ∉ store.checkpoints) :
    (sampleWorld checkpointId event runStored).Fresh store := by
  intro made isMade
  cases isMade
  exact fresh

theorem sampleCalls_fresh : FreshIn .empty sampleCalls :=
  ⟨⟨⟨by decide, by decide⟩, sampleWorld_fresh ⟨by decide, by decide⟩⟩,
    sampleWorld_fresh ⟨by decide, by decide +kernel⟩,
    sampleWorld_fresh ⟨by decide, by decide +kernel⟩,
    ⟨⟨by decide +kernel, by decide +kernel⟩, sampleWorld_fresh ⟨by decide, by decide +kernel⟩⟩,
    trivial⟩

theorem run_lineage_sample :
    (run .empty sampleCalls).checkpoints.keys.length = 4 ∧
    ∃ chain, checkpointChain (run .empty sampleCalls) "c" = some chain ∧ chain.length = 2 := by
  refine ⟨by decide +kernel, ?_⟩
  have found : ∃ checkpoint, (run .empty sampleCalls).checkpoints.lookup "c" = some checkpoint ∧
      checkpoint.seq = 2 := by
    refine ⟨_, rfl, ?_⟩
    decide +kernel
  obtain ⟨checkpoint, stored, two⟩ := found
  obtain ⟨chain, loaded, length⟩ :=
    ((run_lineage sampleCalls sampleCalls_fresh).1 "c" checkpoint stored).2
  exact ⟨chain, loaded, length.trans two⟩

end TurboAgent.Segment
