import TurboAgent.AgentContext.Coverage

/-!
# Consistency of a context with its store

The invariant of a thread ties the history of its committed compactions to the head in the
store, to the context and to the projection.  Every call keeps it, whatever fails.
-/

namespace TurboAgent.AgentContext

/-! ## Digests -/

theorem hexDigit_isIdChar {value : Nat} (small : value < 16) :
    isIdChar (hexDigit value) = true := by
  interval_cases value <;> decide

theorem noNul_hexText (digest : List UInt8) : noNul (hexText digest) = true := by
  refine noNul_of_idChars (List.all_eq_true.mpr ?_)
  intro ch member
  rw [hexText, String.toList_ofList, List.mem_flatMap] at member
  obtain ⟨byte, -, digit⟩ := member
  have bounded := byte.toNat_lt
  rcases List.mem_pair.mp digit with rfl | rfl
  · exact hexDigit_isIdChar (by omega)
  · exact hexDigit_isIdChar (by omega)

theorem Platform.noNul_sourceHash {platform : Platform} {source : Json} {sourceHash : String}
    (hashed : platform.sourceHash source = some sourceHash) : noNul sourceHash = true := by
  rw [Platform.sourceHash, Option.map_eq_some_iff] at hashed
  obtain ⟨digest, -, rfl⟩ := hashed
  exact noNul_hexText digest

/-! ## Records -/

def headsOf (threadId : CString) : RecordFilter :=
  ⟨.contextHeads, "thread_id", threadId.val⟩

def headKey (threadId : CString) : RecordKey :=
  (.contextHeads, threadId.val)

def compactionKey (id : CString) : RecordKey :=
  (.compactions, id.val)

section Records

variable {records : Records} {threadId : CString} {key : RecordKey}

theorem filter_kerase {selects : (Σ _ : RecordKey, Json) → Bool}
    {entries : List (Σ _ : RecordKey, Json)}
    (unselected : ∀ entry ∈ entries, entry.1 = key → selects entry = false) :
    (entries.kerase key).filter selects = entries.filter selects := by
  induction entries with
  | nil => rfl
  | cons entry rest ih =>
      by_cases same : key = entry.1
      · rw [List.kerase_cons_eq same, List.filter_cons_of_neg]
        rw [unselected entry List.mem_cons_self same.symm]
        exact Bool.false_ne_true
      · have rest := ih fun other member => unselected other (List.mem_cons_of_mem _ member)
        rw [List.kerase_cons_ne same, List.filter_cons, List.filter_cons, rest]

theorem list_insert_of_ne (record : Json) {filter : RecordFilter}
    (other : key.1 ≠ filter.collection) :
    Records.list (records.insert key record) filter = records.list filter := by
  have unselected : ∀ value, filter.selects key value = false := by
    intro value
    simp [RecordFilter.selects, other]
  rw [Records.list, AList.entries_insert, List.filter_cons_of_neg (by simp [unselected]),
    filter_kerase, Records.list]
  intro entry _ same
  rw [same]
  exact unselected _

theorem list_insert_head {record : Json}
    (keyed : ∀ entry ∈ records.entries, (headsOf threadId).selects entry.1 entry.2 →
      entry.1 = headKey threadId)
    (named : record.field "thread_id" = some (.string threadId.val)) :
    Records.list (records.insert (headKey threadId) record) (headsOf threadId) = [record] := by
  have selected : (headsOf threadId).selects (headKey threadId) record = true := by
    simp [RecordFilter.selects, headsOf, headKey, named]
  have rest : (records.entries.kerase (headKey threadId)).filter
      (fun entry => (headsOf threadId).selects entry.1 entry.2) = [] := by
    rw [List.filter_eq_nil_iff]
    intro entry member selects
    have known := (List.kerase_sublist _ _).subset member
    have same := keyed entry known selects
    have inside := List.mem_keys_of_mem member
    rw [same] at inside
    exact List.notMem_keys_kerase (headKey threadId) records.nodupKeys inside
  rw [Records.list, AList.entries_insert, List.filter_cons_of_pos (by simpa using selected), rest]
  rfl

theorem keyed_insert {record : Json}
    (keyed : ∀ entry ∈ records.entries, (headsOf threadId).selects entry.1 entry.2 →
      entry.1 = headKey threadId)
    (writes : (headsOf threadId).selects key record → key = headKey threadId) :
    ∀ entry ∈ (records.insert key record).entries, (headsOf threadId).selects entry.1 entry.2 →
      entry.1 = headKey threadId := by
  intro entry member selects
  rw [AList.entries_insert] at member
  rcases List.mem_cons.mp member with rfl | known
  · exact writes selects
  · exact keyed entry ((List.kerase_sublist _ _).subset known) selects

end Records

/-! ## Loading the head -/

structure Compaction.Sound (platform : Platform) (compaction : Compaction) : Prop where
  hashed : platform.sourceHash compaction.source = some compaction.sourceHash
  summarized : summaryValid compaction.summary = true
  exact : compaction.stop ≤ maxExactInteger

namespace Compaction

variable {platform : Platform} {compaction : Compaction} {threadId : CString}

theorem exactSize_int {record : Json} {key : String} {size : Nat}
    (stored : record.field key = some (.int size)) (exact : size ≤ maxExactInteger) :
    exactSize record key = some size := by
  simp [exactSize, stored, exact]

theorem Sound.headFields (sound : compaction.Sound platform) :
    headFields threadId (compaction.head threadId) =
      some (compaction.id.val, compaction.sourceHash, compaction.stop) := by
  have plain := Platform.noNul_sourceHash sound.hashed
  have id : (compaction.head threadId).getString "compaction_id" = some compaction.id.val :=
    Json.getString_of_field rfl compaction.id.property
  have hash : (compaction.head threadId).getString "source_hash" = some compaction.sourceHash :=
    Json.getString_of_field rfl plain
  have thread : (compaction.head threadId).getString "thread_id" = some threadId.val :=
    Json.getString_of_field rfl threadId.property
  have status : (compaction.head threadId).getString "status" = some "committed" :=
    Json.getString_of_field rfl (by decide)
  have stop : exactSize (compaction.head threadId) "source_event_end" = some compaction.stop :=
    exactSize_int rfl sound.exact
  simp [AgentContext.headFields, id, hash, thread, status, stop]

theorem Sound.compactionSummary (sound : compaction.Sound platform) :
    compactionSummary platform threadId compaction.sourceHash compaction.stop
      (compaction.prepared threadId) = some compaction.summary := by
  have plain := Platform.noNul_sourceHash sound.hashed
  have hash : (compaction.prepared threadId).getString "source_hash" =
      some compaction.sourceHash := Json.getString_of_field rfl plain
  have thread : (compaction.prepared threadId).getString "thread_id" = some threadId.val :=
    Json.getString_of_field rfl threadId.property
  have status : (compaction.prepared threadId).getString "status" = some "prepared" :=
    Json.getString_of_field rfl (by decide)
  have stop : exactSize (compaction.prepared threadId) "source_event_end" =
      some compaction.stop := exactSize_int rfl sound.exact
  have source : (compaction.prepared threadId).field "source" = some compaction.source := rfl
  have summary : (compaction.prepared threadId).field "summary" = some compaction.summary := rfl
  simp [AgentContext.compactionSummary, hash, thread, status, stop, source, summary, sound.hashed,
    sound.summarized]

def loaded (compaction : Compaction) (threadId : CString) : Loaded :=
  ⟨compaction.summary, compaction.head threadId, compaction.stop⟩

end Compaction

/-- What a load returns does not depend on the failures that it has not met. -/
theorem loadHead_answers {platform : Platform} {threadId : CString} {records : Records}
    {world : LoadWorld} {loaded : Option Loaded}
    (read : loadHead platform threadId records world = .ok loaded) :
    loadHead platform threadId records ⟨true, true, true⟩ = .ok loaded := by
  obtain ⟨listed, fetched, cloned⟩ := world
  rw [loadHead] at read ⊢
  cases listed with
  | false => simp at read
  | true =>
      simp only [Bool.not_true, Bool.false_eq_true, if_false, if_true] at read ⊢
      split at read
      next => exact read
      next =>
        split at read
        next => cases read
        cases fetched with
        | false => simp at read
        | true =>
            simp only [if_true] at read ⊢
            split at read
            next => cases read
            split at read
            next => cases read
            cases cloned with
            | false => simp at read
            | true => exact read
      next => cases read

/-! ## The invariant -/

/-- A copy of what the committed compactions say. -/
structure Context.Copies (context : Context) (threadId : CString)
    (committed : List Compaction) : Prop where
  summary : context.summary = lastSummary committed
  head : context.head = committed.head?.map (·.head threadId)
  eventStart : context.eventStart = coveredEnd committed

structure Thread.Consistent (platform : Platform) (thread : Thread) : Prop where
  /-- The committed compactions cover a prefix of the events. -/
  covers : Covers thread.events thread.committed
  /-- The prefix ends at a boundary. -/
  boundary : coveredEnd thread.committed = 0 ∨
    boundaryValid thread.events (coveredEnd thread.committed) = true
  /-- It ends before the most recent segment. -/
  recent : coveredEnd thread.committed ≤ recentSegment thread.events
  /-- The compactions pass the checks of a load. -/
  sound : ∀ compaction ∈ thread.committed, compaction.Sound platform
  /-- They are stored. -/
  stored : ∀ compaction ∈ thread.committed,
    thread.records.lookup (compactionKey compaction.id) = some (compaction.prepared thread.id)
  /-- No compaction is stored under an id that is not drawn yet. -/
  fresh : ∀ call, thread.drawn ≤ call → ∀ id, platform.uuid call = some id →
    thread.records.lookup (compactionKey id) = none
  /-- The head names the last one. -/
  heads : thread.records.list (headsOf thread.id) =
    (thread.committed.head?.map (·.head thread.id)).toList
  /-- Heads are stored under the thread. -/
  keyed : ∀ entry ∈ thread.records.entries, (headsOf thread.id).selects entry.1 entry.2 →
    entry.1 = headKey thread.id
  /-- The context is a copy. -/
  context : ∀ context, thread.context = some context →
    context.Copies thread.id thread.committed
  /-- The projection is a copy while there is a context. -/
  projection : thread.context.isSome → thread.projection = lastProjection thread.committed

namespace Thread.Consistent

variable {platform : Platform} {thread : Thread}

theorem loadHead (consistent : thread.Consistent platform) :
    AgentContext.loadHead platform thread.id thread.records ⟨true, true, true⟩ =
      .ok (thread.committed.head?.map (·.loaded thread.id)) := by
  have heads := consistent.heads
  have sound := consistent.sound
  have stored := consistent.stored
  rw [headsOf] at heads
  rw [AgentContext.loadHead, heads]
  cases committed : thread.committed with
  | nil => rfl
  | cons compaction rest =>
      have member : compaction ∈ thread.committed := by simp [committed]
      have sound := sound compaction member
      have stored := stored compaction member
      rw [compactionKey] at stored
      simp [sound.headFields, sound.compactionSummary, stored, Compaction.loaded]

theorem loadHead_ok (consistent : thread.Consistent platform) {world : LoadWorld}
    {loaded : Option Loaded}
    (read : AgentContext.loadHead platform thread.id thread.records world = .ok loaded) :
    loaded = thread.committed.head?.map (·.loaded thread.id) := by
  have answered := loadHead_answers read
  rw [consistent.loadHead, Except.ok.injEq] at answered
  exact answered.symm

theorem append (consistent : thread.Consistent platform) (events : List Json) :
    ({ thread with events := thread.events ++ events } : Thread).Consistent platform :=
  { consistent with
    covers := consistent.covers.append events
    boundary := consistent.boundary.imp_right (boundaryValid_append events)
    recent := Nat.le_trans consistent.recent (recentSegment_append thread.events events) }

theorem destroyed (consistent : thread.Consistent platform) :
    ({ thread with context := none, projection := .cleared } : Thread).Consistent platform :=
  { consistent with
    context := fun _ none => by cases none
    projection := fun some => by cases some }

theorem recreate (consistent : thread.Consistent platform) (policy : Policy) (world : LoadWorld) :
    (thread.recreate platform policy world).2.Consistent platform := by
  rw [Thread.recreate]
  dsimp only
  split
  next => exact consistent.destroyed
  split
  next => exact consistent.destroyed
  next read =>
    have last := consistent.loadHead_ok read
    have empty : thread.committed = [] := by
      cases committed : thread.committed with
      | nil => rfl
      | cons compaction rest => simp [committed] at last
    exact { consistent.destroyed with
      context := by
        intro context same
        cases same
        rw [empty]
        exact ⟨rfl, rfl, rfl⟩
      projection := by
        intro _
        dsimp only
        rw [empty]
        rfl }
  next loaded read =>
    have last := consistent.loadHead_ok read
    obtain ⟨compaction, rest, committed⟩ : ∃ compaction rest,
        thread.committed = compaction :: rest := by
      cases committed : thread.committed with
      | nil => simp [committed] at last
      | cons compaction rest => exact ⟨compaction, rest, rfl⟩
    have same : loaded = compaction.loaded thread.id := by simpa [committed] using last
    subst same
    exact { consistent.destroyed with
      context := by
        intro context same
        cases same
        dsimp only
        rw [committed]
        exact ⟨rfl, rfl, rfl⟩
      projection := by
        intro _
        dsimp only
        rw [committed]
        rfl }

theorem recreate_committed (policy : Policy) (world : LoadWorld) :
    (thread.recreate platform policy world).2.committed = thread.committed := by
  fun_cases Thread.recreate platform policy world thread <;> rfl

variable {context : Context}

theorem projected (consistent : thread.Consistent platform)
    (attached : thread.context = some context) :
    thread.projection = ⟨context.summary, context.eventStart, context.summary.isSome⟩ := by
  have copies := consistent.context context attached
  rw [consistent.projection (by simp [attached]), copies.summary, copies.eventStart]
  cases thread.committed with
  | nil => rfl
  | cons compaction rest => rfl

theorem eventStart_of_unsummarized (consistent : thread.Consistent platform)
    (attached : thread.context = some context) (none : context.summary = none) :
    context.eventStart = 0 := by
  have copies := consistent.context context attached
  rw [copies.summary] at none
  rw [copies.eventStart]
  cases committed : thread.committed with
  | nil => rfl
  | cons compaction rest =>
      rw [committed] at none
      cases none

theorem applyProjection (consistent : thread.Consistent platform)
    (attached : thread.context = some context) (cloned : Bool) :
    (thread.applyProjection context cloned).2 = thread := by
  have projected := consistent.projected attached
  rw [Thread.applyProjection]
  split
  next none =>
    rw [none, consistent.eventStart_of_unsummarized attached none] at projected
    dsimp only
    rw [Projection.cleared]
    exact projected ▸ rfl
  next summary summarized =>
    rw [summarized] at projected
    split
    next =>
      dsimp only
      exact projected ▸ rfl
    next => rfl

theorem draw (consistent : thread.Consistent platform) :
    ({ thread with drawn := thread.drawn + 1 } : Thread).Consistent platform :=
  { consistent with
    fresh := fun call later => consistent.fresh call (Nat.le_of_succ_le later) }

theorem prepared (consistent : thread.Consistent platform) {compaction : Compaction}
    {call : Nat} (drawn : platform.uuid call = some compaction.id) (used : call < thread.drawn)
    (absent : thread.records.lookup (compactionKey compaction.id) = none) :
    ({ thread with
      records := thread.records.insert (compactionKey compaction.id)
        (compaction.prepared thread.id) } : Thread).Consistent platform :=
  { consistent with
    stored := by
      intro other member
      have stored := consistent.stored other member
      have distinct : compactionKey other.id ≠ compactionKey compaction.id := by
        intro same
        rw [same, absent] at stored
        cases stored
      exact (AList.lookup_insert_ne distinct).trans stored
    fresh := by
      intro later unused id generated
      have distinct : compactionKey id ≠ compactionKey compaction.id := by
        intro same
        have same : id = compaction.id := Subtype.ext (Prod.ext_iff.mp same).2
        have again := platform.uuid_once later call id generated (same ▸ drawn)
        dsimp only at unused
        omega
      exact (AList.lookup_insert_ne distinct).trans (consistent.fresh later unused id generated)
    heads := (list_insert_of_ne _ (by simp [compactionKey, headsOf])).trans consistent.heads
    keyed := by
      apply keyed_insert consistent.keyed
      simp [RecordFilter.selects, compactionKey, headsOf] }

/-- What a compaction that is committed must satisfy. -/
structure Extends (platform : Platform) (thread : Thread) (compaction : Compaction) : Prop where
  start : compaction.start = coveredEnd thread.committed
  forward : compaction.start < compaction.stop
  built : buildSource (lastSummary thread.committed) thread.events compaction.start
    compaction.stop = some compaction.source
  boundary : boundaryValid thread.events compaction.stop = true
  recent : compaction.stop ≤ recentSegment thread.events
  sound : compaction.Sound platform

theorem committed (consistent : thread.Consistent platform) {compaction : Compaction}
    (next : Extends platform thread compaction)
    (stored : thread.records.lookup (compactionKey compaction.id) =
      some (compaction.prepared thread.id))
    (copies : context.Copies thread.id (compaction :: thread.committed)) :
    ({ thread with
      records := thread.records.insert (headKey thread.id) (compaction.head thread.id)
      context := some context
      projection := ⟨some compaction.summary, compaction.stop, true⟩
      committed := compaction :: thread.committed } : Thread).Consistent platform where
  covers := ⟨next.start, next.forward, next.built, consistent.covers⟩
  boundary := .inr next.boundary
  recent := next.recent
  sound := by
    exact List.forall_mem_cons.mpr ⟨next.sound, consistent.sound⟩
  stored := by
    intro other member
    refine (AList.lookup_insert_ne (by simp [compactionKey, headKey])).trans ?_
    rcases List.mem_cons.mp member with rfl | known
    · exact stored
    · exact consistent.stored other known
  fresh := by
    intro call unused id generated
    exact (AList.lookup_insert_ne (by simp [compactionKey, headKey])).trans
      (consistent.fresh call unused id generated)
  heads := list_insert_head consistent.keyed rfl
  keyed := keyed_insert consistent.keyed fun _ => rfl
  context := by
    intro other same
    cases same
    exact copies
  projection := fun _ => rfl

end Thread.Consistent

/-- A step keeps the views in agreement and does not give up what is covered. -/
structure Thread.Keeps (platform : Platform) (thread next : Thread) : Prop where
  consistent : next.Consistent platform
  advances : coveredEnd thread.committed ≤ coveredEnd next.committed

namespace Thread.Consistent

variable {platform : Platform} {thread : Thread}

theorem unchanged (consistent : thread.Consistent platform) : thread.Keeps platform thread :=
  ⟨consistent, Nat.le_refl _⟩

theorem commit (consistent : thread.Consistent platform) {compaction : Compaction}
    (next : Extends platform thread compaction) {call : Nat}
    (drawn : platform.uuid call = some compaction.id) (used : call < thread.drawn)
    (absent : thread.records.lookup (compactionKey compaction.id) = none)
    (context : Context) (world : CompactionWorld) :
    thread.Keeps platform (thread.commit context world compaction).2 := by
  rw [Thread.commit]
  split
  next => exact consistent.unchanged
  have prepared := consistent.prepared drawn used absent
  dsimp only
  split
  next => exact ⟨prepared, Nat.le_refl _⟩
  refine ⟨prepared.committed ?_ (AList.lookup_insert _) ⟨rfl, rfl, rfl⟩, ?_⟩
  · exact ⟨next.start, next.forward, next.built, next.boundary, next.recent, next.sound⟩
  · have forward := next.forward
    rw [next.start] at forward
    exact Nat.le_of_lt forward

theorem store (consistent : thread.Consistent platform) {context : Context}
    (attached : thread.context = some context) {selected : Selected} {desired : Nat}
    (fits : selected.Fits context.summary thread.events context.eventStart desired)
    (recent : desired ≤ recentSegment thread.events) (exact_ : selected.cut ≤ maxExactInteger)
    {summary : Json} (summarized : summaryValid summary = true) (world : CompactionWorld) :
    thread.Keeps platform (thread.store platform context world selected summary).2 := by
  have copies := consistent.context context attached
  rw [Thread.store]
  split
  next => exact consistent.unchanged
  next sourceHash hashed =>
    dsimp only
    split
    next id createdAt drawn _ =>
      split
      next => exact ⟨consistent.draw, Nat.le_refl _⟩
      let compaction : Compaction := ⟨id, context.eventStart, selected.cut, selected.source,
        selected.tokens, sourceHash, summary, createdAt⟩
      have next : Extends platform { thread with drawn := thread.drawn + 1 } compaction := {
        start := copies.eventStart
        forward := fits.after
        built := copies.summary ▸ fits.built
        boundary := fits.boundary
        recent := Nat.le_trans fits.within recent
        sound := ⟨hashed, summarized, exact_⟩ }
      have absent := consistent.fresh _ (Nat.le_refl _) id drawn
      have kept := consistent.draw.commit next drawn (Nat.lt_succ_self _) absent context world
      exact ⟨kept.consistent, kept.advances⟩
    next => exact ⟨consistent.draw, Nat.le_refl _⟩

theorem compactOnce (consistent : thread.Consistent platform) {context : Context}
    (attached : thread.context = some context) (world : CompactionWorld) :
    thread.Keeps platform (thread.compactOnce platform context world).2 := by
  rw [Thread.compactOnce]
  split
  next => exact consistent.unchanged
  next desired chosen =>
    have recent := (chooseCut_ok chosen).2
    split
    next => exact consistent.unchanged
    next selected limited =>
      have fits := limitSource_ok limited
      split
      next => exact consistent.unchanged
      next exact_ =>
        simp only [not_or, Nat.not_lt] at exact_
        split
        next => exact consistent.unchanged
        next summary _ =>
          split
          next => exact consistent.unchanged
          next summarized =>
            simp only [Bool.not_eq_true', Bool.not_eq_false] at summarized
            split
            next => exact consistent.unchanged
            split
            next => exact consistent.unchanged
            next => exact consistent.store attached fits recent exact_.2.1 summarized world

theorem prepareLoop (consistent : thread.Consistent platform) (worlds : Nat → CompactionWorld)
    (requests : Nat → Except Status UInt64) (rounds compacted requestTokens : Nat) :
    thread.Keeps platform
      (thread.prepareLoop platform worlds requests rounds compacted requestTokens).2 := by
  induction rounds generalizing thread compacted requestTokens with
  | zero =>
      rw [Thread.prepareLoop]
      split
      next => exact consistent.unchanged
      next => exact consistent.unchanged
  | succ rounds ih =>
      rw [Thread.prepareLoop]
      split
      next => exact consistent.unchanged
      next context attached =>
        dsimp only
        split
        next => exact consistent.unchanged
        have kept := consistent.compactOnce attached (worlds compacted)
        split
        next after compacts =>
          rw [compacts] at kept
          exact kept
        next after compacts =>
          rw [compacts] at kept
          split
          next => exact kept
          next tokens _ =>
            have rest := ih kept.consistent (compacted + 1) tokens.toNat
            exact ⟨rest.consistent, Nat.le_trans kept.advances rest.advances⟩
        next status after _ _ compacts =>
          rw [compacts] at kept
          exact kept

theorem prepare (consistent : thread.Consistent platform) (forceCompaction cloned : Bool)
    (worlds : Nat → CompactionWorld) (requests : Nat → Except Status UInt64) :
    thread.Keeps platform
      (thread.prepare platform forceCompaction cloned worlds requests).2 := by
  rw [Thread.prepare]
  split
  next => exact consistent.unchanged
  next context attached =>
    split
    next => exact consistent.compactOnce attached (worlds 0)
    have applied := consistent.applyProjection attached cloned
    split
    next after applies =>
      rw [applies] at applied
      subst applied
      split
      next => exact consistent.unchanged
      next => exact consistent.prepareLoop worlds requests _ _ _
    next status after _ applies =>
      rw [applies] at applied
      subst applied
      exact consistent.unchanged

theorem handleOverflow (consistent : thread.Consistent platform) (detected : Int)
    (world : CompactionWorld) :
    thread.Keeps platform (thread.handleOverflow platform detected world).2 := by
  rw [Thread.handleOverflow]
  split
  next => exact consistent.unchanged
  next context attached =>
    split
    next => exact consistent.unchanged
    split
    next => exact consistent.unchanged
    split
    next => exact consistent.unchanged
    have kept := consistent.compactOnce attached world
    split
    next after compacts =>
      rw [compacts] at kept
      exact kept
    next status after _ compacts =>
      rw [compacts] at kept
      exact kept

theorem perform (consistent : thread.Consistent platform) (call : Call) :
    thread.Keeps platform (thread.perform platform call) := by
  cases call with
  | append events => exact ⟨consistent.append events, Nat.le_refl _⟩
  | recreate policy world =>
      refine ⟨consistent.recreate policy world, ?_⟩
      rw [Thread.perform, recreate_committed]
  | prepare forceCompaction cloned worlds requests =>
      exact consistent.prepare forceCompaction cloned worlds requests
  | handleOverflow detected world => exact consistent.handleOverflow detected world

theorem run (consistent : thread.Consistent platform) (calls : List Call) :
    thread.Keeps platform (thread.run platform calls) := by
  induction calls generalizing thread with
  | nil => exact consistent.unchanged
  | cons call calls ih =>
      have kept := consistent.perform call
      have rest := ih kept.consistent
      exact ⟨rest.consistent, Nat.le_trans kept.advances rest.advances⟩

end Thread.Consistent

/-! ## Runs of a thread -/

/-- Records of a thread that has no head yet, with no compaction under an id that will be
generated. -/
structure Unused (platform : Platform) (id : CString) (records : Records) : Prop where
  heads : records.list (headsOf id) = []
  ids : ∀ call fresh, platform.uuid call = some fresh →
    records.lookup (compactionKey fresh) = none

namespace Thread

variable {platform : Platform} {id : CString} {records : Records}

theorem opened_consistent (unused : Unused platform id records) :
    (opened id records).Consistent platform where
  covers := trivial
  boundary := .inl rfl
  recent := Nat.zero_le _
  sound := fun _ none => nomatch none
  stored := fun _ none => nomatch none
  fresh := fun call _ => unused.ids call
  heads := unused.heads
  keyed := by
    intro entry member selects
    have listed : entry.2 ∈ records.list (headsOf id) := by
      exact List.mem_map_of_mem (List.mem_filter.mpr ⟨member, selects⟩)
    rw [unused.heads] at listed
    cases listed
  context := fun _ none => nomatch none
  projection := fun some => nomatch some

/-- The head that a thread has committed is accepted by every load that the store answers,
the committed compactions cover the events up to it in contiguous ranges from summary to
summary, it ends a segment before the most recent one, and the context and the projection
are copies of it. -/
structure Compacted (platform : Platform) (thread : Thread) : Prop where
  head : loadHead platform thread.id thread.records ⟨true, true, true⟩ =
    .ok (thread.committed.head?.map (·.loaded thread.id))
  stored : ∀ compaction ∈ thread.committed,
    thread.records.lookup (compactionKey compaction.id) = some (compaction.prepared thread.id)
  covers : Covers thread.events thread.committed
  segment : coveredEnd thread.committed = 0 ∨
    SegmentEnd thread.events (coveredEnd thread.committed)
  recent : coveredEnd thread.committed ≤ recentSegment thread.events
  uncompacted : thread.events ≠ [] → coveredEnd thread.committed < thread.events.length
  context : ∀ context, thread.context = some context →
    context.summary = lastSummary thread.committed ∧
      context.eventStart = coveredEnd thread.committed
  projection : thread.context.isSome → thread.projection = lastProjection thread.committed

/-- Every run of a thread is compacted consistently and never gives up what it covers. -/
theorem run_compacted (platform : Platform) (id : CString) (records : Records)
    (unused : Unused platform id records) (calls : List Call) :
    ((opened id records).run platform calls).Compacted platform ∧
      ∀ more, coveredEnd ((opened id records).run platform calls).committed ≤
        coveredEnd ((opened id records).run platform (calls ++ more)).committed := by
  have kept := (opened_consistent unused).run calls
  refine ⟨?_, ?_⟩
  · exact {
      head := kept.consistent.loadHead
      stored := kept.consistent.stored
      covers := kept.consistent.covers
      segment := kept.consistent.boundary.imp_right boundaryValid_iff.mp
      recent := kept.consistent.recent
      uncompacted := fun some =>
        Nat.lt_of_le_of_lt kept.consistent.recent (recentSegment_lt some)
      context := fun context attached =>
        ⟨(kept.consistent.context context attached).summary,
          (kept.consistent.context context attached).eventStart⟩
      projection := kept.consistent.projection }
  · intro more
    have rest := kept.consistent.run more
    rw [Thread.run, Thread.run, List.foldl_append]
    exact rest.advances

/-- A platform that hashes everything to one byte and counts its ids in unary. -/
def samplePlatform : Platform where
  digest _ := some [171]
  uuid call := some ⟨String.ofList (List.replicate call 'a'), by
    simp only [noNul, String.toList_ofList, List.contains_eq_mem, List.mem_replicate,
      Bool.not_eq_true', decide_eq_false_iff_not, not_and]
    exact fun _ => by decide⟩
  uuid_once first second id one two := by
    rw [← two, Option.some.injEq, Subtype.mk.injEq] at one
    have same := congrArg String.length one
    simpa using same

def samplePolicy : Policy :=
  ⟨100, 10, 50, 1, 100, 50, 2, true⟩

def sampleWorld : CompactionWorld :=
  ⟨fun _ _ => .ok 2, fun _ _ => some (.object [("schema_version", .int 1)]),
    some "2026-01-01T00:00:00Z", true, true, true⟩

/-- Two turns, a compaction of the first, and a new session. -/
def sampleCalls : List Call :=
  [.recreate samplePolicy ⟨true, true, true⟩,
    .append [.object [("kind", .string "model")], .object [("kind", .string "model")]],
    .prepare true true (fun _ => sampleWorld) (fun _ => .ok 0),
    .recreate samplePolicy ⟨true, true, true⟩]

theorem run_compacted_sample :
    coveredEnd ((opened ⟨"thread", by decide⟩ ∅).run samplePlatform sampleCalls).committed = 1 ∧
      ((opened ⟨"thread", by decide⟩ ∅).run samplePlatform sampleCalls).Compacted
        samplePlatform := by
  have unused : Unused samplePlatform ⟨"thread", by decide⟩ ∅ :=
    ⟨rfl, fun _ _ _ => AList.lookup_empty _⟩
  exact ⟨by decide +kernel, (run_compacted samplePlatform _ ∅ unused sampleCalls).1⟩

end Thread

end TurboAgent.AgentContext
