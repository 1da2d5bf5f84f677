import TurboAgent.Runtime.Store

/-!
# The context of a thread

A context keeps the request of a thread within the window of its model.  It replaces the
first events of the thread by a summary: it cuts the events at a boundary, has the range
summarized together with the previous summary, stores the compaction and then the head of
the thread that names it, and projects the summary and the cut into the agent.

Estimates, summaries, failures of the store and of memory are arguments.
-/

namespace TurboAgent.AgentContext

/-- `TURBO_AGENT_CONTEXT_MAX_EXACT_JSON_INTEGER`. -/
def maxExactInteger : Nat := 9007199254740991

/-- `turbo_agent_context_policy_t`; `detectsOverflow` tells whether `is_context_overflow` is
set. -/
structure Policy where
  (contextWindowTokens reserveOutputTokens compactTriggerTokens retainRecentTokens : Nat)
  (maxSummaryInputTokens maxSummaryTokens maxCompactionsPerTurn : Nat)
  detectsOverflow : Bool
  deriving DecidableEq

def Policy.inputCapacity (policy : Policy) : Nat :=
  policy.contextWindowTokens - policy.reserveOutputTokens

/-- `turbo_agent_context_policy_valid`. -/
def Policy.valid (policy : Policy) : Bool :=
  policy.contextWindowTokens ≠ 0 && policy.reserveOutputTokens < policy.contextWindowTokens &&
  policy.compactTriggerTokens ≠ 0 && policy.retainRecentTokens ≠ 0 &&
  policy.maxSummaryInputTokens ≠ 0 && policy.maxSummaryTokens ≠ 0 &&
  policy.maxCompactionsPerTurn ≠ 0 &&
  policy.compactTriggerTokens ≤ policy.inputCapacity &&
  policy.retainRecentTokens < policy.compactTriggerTokens &&
  policy.maxSummaryTokens < policy.inputCapacity

/-- `turbo_agent_context_exact_size`. -/
def exactSize (record : Json) (key : String) : Option Nat :=
  match record.field key with
  | some (.number mantissa exponent) =>
      if 0 ≤ mantissa ∧ 10 ^ exponent ∣ mantissa ∧ mantissa / 10 ^ exponent ≤ maxExactInteger then
        some (mantissa / 10 ^ exponent).toNat
      else none
  | _ => none

/-- `turbo_agent_context_summary_valid`. -/
def summaryValid (summary : Json) : Bool :=
  match summary.field "schema_version" with
  | some (.number mantissa exponent) => mantissa = 10 ^ exponent
  | _ => false

/-! ## Boundaries -/

/-- `turbo_agent_event_kind_is`. -/
def kindIs (event : Json) (kind : String) : Bool :=
  event.isObject && event.getString "kind" == some kind

/-- `turbo_agent_model_event_tool_call_count`. -/
def toolCallCount (event : Json) : Nat :=
  if kindIs event "model" then
    match event.field "tool_calls" with
    | some (.array toolCalls) => toolCalls.length
    | _ => 0
  else 0

/-- `turbo_agent_context_boundary_valid`. -/
def boundaryValid (events : List Json) : Nat → Bool
  | 0 => false
  | last + 1 =>
      match events[last]? with
      | none => false
      | some previous =>
          kindIs previous "tool_results" ||
            (kindIs previous "model" && toolCallCount previous == 0)

/-- `turbo_agent_context_previous_boundary`. -/
def previousBoundary (events : List Json) (start : Nat) : (before : Nat) → Nat
  | 0 => start
  | candidate + 1 =>
      if candidate ≤ start then start
      else if boundaryValid events candidate then candidate
      else previousBoundary events start candidate

/-- The loop of `turbo_agent_context_next_boundary`, with as many rounds as there are
boundaries up to the limit. -/
def nextBoundaryLoop (events : List Json) (limit : Nat) : (rounds : Nat) → (boundary : Nat) → Nat
  | 0, _ => limit + 1
  | rounds + 1, boundary =>
      if boundaryValid events boundary then boundary
      else nextBoundaryLoop events limit rounds (boundary + 1)

/-- `turbo_agent_context_next_boundary`. -/
def nextBoundary (events : List Json) (after limit : Nat) : Nat :=
  nextBoundaryLoop events limit (limit - after) (after + 1)

/-- `turbo_agent_context_clone_event_range`. -/
def eventRange (events : List Json) (start stop : Nat) : Option (List Json) :=
  if start ≤ stop ∧ stop ≤ events.length then some ((events.drop start).take (stop - start))
  else none

/-- `turbo_agent_context_build_source`. -/
def buildSource (summary : Option Json) (events : List Json) (start stop : Nat) : Option Json :=
  (eventRange events start stop).map fun range =>
    .object [("previous_summary", summary.getD .null), ("events", .array range)]

/-- What the estimator is asked for: a segment that ends at a cursor, the source of a
candidate, or the summary. -/
inductive Measured where
  | segment (cursor : Nat)
  | source (candidate : Nat)
  | summary
  deriving DecidableEq

/-- Answers of the estimator.  An error is one of the estimator or of the clone that it is
given. -/
abbrev Estimator := Measured → Json → Except Status UInt64

/-- The loop of `turbo_agent_context_choose_cut`.  The cursor falls in every round, so its
first value is enough rounds. -/
def chooseCutLoop (estimate : Estimator) (policy : Policy) (events : List Json) (start : Nat) :
    (rounds : Nat) → (cursor cut retained : Nat) → (retainedSegment : Bool) → Except Status Nat
  | 0, _, cut, _, _ => .ok cut
  | rounds + 1, cursor, cut, retained, retainedSegment =>
      if cursor ≤ start then .ok cut
      else
        let previous := previousBoundary events start cursor
        match eventRange events previous cursor with
        | none => .error .enomem
        | some segment =>
            match estimate (.segment cursor) (.array segment) with
            | .error status => .error status
            | .ok tokens =>
                if 2 ^ 64 - 1 - retained < tokens.toNat then .error .erange
                else if retainedSegment ∧ policy.retainRecentTokens < retained + tokens.toNat then
                  .ok cut
                else if previous = start then .ok previous
                else chooseCutLoop estimate policy events start rounds previous previous
                  (retained + tokens.toNat) true

/-- `turbo_agent_context_choose_cut`. -/
def chooseCut (estimate : Estimator) (policy : Policy) (events : List Json) (start : Nat) :
    Except Status Nat :=
  if events.length ≤ start then .error .enoent
  else
    match chooseCutLoop estimate policy events start events.length events.length events.length 0
        false with
    | .error status => .error status
    | .ok cut => if cut ≤ start then .error .enoent else .ok cut

/-- A source that fits: where it ends, the source and its tokens. -/
structure Selected where
  cut : Nat
  source : Json
  tokens : Nat
  deriving DecidableEq

/-- The loop of `turbo_agent_context_limit_source`.  The candidate rises in every round. -/
def limitSourceLoop (estimate : Estimator) (policy : Policy) (summary : Option Json)
    (events : List Json) (start desired : Nat) :
    (rounds : Nat) → (candidate : Nat) → Option Selected → Except Status (Option Selected)
  | 0, _, selected => .ok selected
  | rounds + 1, candidate, selected =>
      if desired < candidate then .ok selected
      else
        match buildSource summary events start candidate with
        | none => .error .enomem
        | some source =>
            match estimate (.source candidate) source with
            | .error status => .error status
            | .ok tokens =>
                if policy.maxSummaryInputTokens < tokens.toNat then .ok selected
                else if candidate = desired then .ok (some ⟨candidate, source, tokens.toNat⟩)
                else limitSourceLoop estimate policy summary events start desired rounds
                  (nextBoundary events candidate desired) (some ⟨candidate, source, tokens.toNat⟩)

/-- `turbo_agent_context_limit_source`. -/
def limitSource (estimate : Estimator) (policy : Policy) (summary : Option Json)
    (events : List Json) (start desired : Nat) : Except Status Selected :=
  match limitSourceLoop estimate policy summary events start desired desired
      (nextBoundary events start desired) none with
  | .error status => .error status
  | .ok none => .error .emsgsize
  | .ok (some selected) => .ok selected

/-! ## Records -/

def hexDigit (value : Nat) : Char :=
  if value < 10 then Char.ofNat ('0'.toNat + value) else Char.ofNat ('a'.toNat + (value - 10))

def hexText (digest : List UInt8) : String :=
  String.ofList (digest.flatMap fun byte =>
    [hexDigit (byte.toNat / 16), hexDigit (byte.toNat % 16)])

/-- The platform: the digest of a serialized document, and the ids of the calls of the
generator.  An id is generated once. -/
structure Platform where
  digest : Json → Option (List UInt8)
  uuid : Nat → Option CString
  uuid_once : ∀ first second id, uuid first = some id → uuid second = some id → first = second

/-- `turbo_agent_context_source_hash`. -/
def Platform.sourceHash (platform : Platform) (source : Json) : Option String :=
  (platform.digest source).map hexText

structure Compaction where
  id : CString
  (start stop : Nat)
  source : Json
  sourceTokens : Nat
  sourceHash : String
  summary : Json
  createdAt : String

def Compaction.prepared (compaction : Compaction) (threadId : CString) : Json :=
  .object [("schema_version", .int 1), ("compaction_id", .string compaction.id.val),
    ("thread_id", .string threadId.val), ("status", .string "prepared"),
    ("source_event_start", .int compaction.start), ("source_event_end", .int compaction.stop),
    ("source_tokens", .int compaction.sourceTokens),
    ("source_hash", .string compaction.sourceHash), ("created_at", .string compaction.createdAt),
    ("summary", compaction.summary), ("source", compaction.source)]

def Compaction.head (compaction : Compaction) (threadId : CString) : Json :=
  .object [("schema_version", .int 1), ("thread_id", .string threadId.val),
    ("status", .string "committed"), ("compaction_id", .string compaction.id.val),
    ("source_hash", .string compaction.sourceHash), ("source_event_end", .int compaction.stop),
    ("committed_at", .string compaction.createdAt)]

abbrev Records := AList fun _ : RecordKey => Json

/-- `turbo_agent_runtime_store_list_json` of a store that answers. -/
def Records.list (records : Records) (filter : RecordFilter) : List Json :=
  (records.entries.filter fun entry => filter.selects entry.1 entry.2).map (·.2)

/-! ## Contexts -/

/-- `turbo_agent_context_t`. -/
structure Context where
  policy : Policy
  (summary head : Option Json)
  eventStart : Nat
  deriving DecidableEq

/-- `projection` of the agent. -/
structure Projection where
  summary : Option Json
  eventStart : Nat
  active : Bool
  deriving DecidableEq

/-- `turbo_agent_context_clear_projection`. -/
def Projection.cleared : Projection := ⟨none, 0, false⟩

/-- A thread: its events, the records, the context and the projection of the agent of the
current session, and the ids drawn so far.  `committed` is the history of the compactions
whose head was stored, the latest first; no code reads it. -/
structure Thread where
  id : CString
  events : List Json
  records : Records
  context : Option Context
  projection : Projection
  drawn : Nat
  committed : List Compaction

/-- What `turbo_agent_context_load_head` meets: whether the store lists and reads, and
whether the clones are made. -/
structure LoadWorld where
  (listed fetched cloned : Bool)

structure Loaded where
  (summary head : Json)
  eventStart : Nat
  deriving DecidableEq

/-- The checks of `turbo_agent_context_load_head` on a head. -/
def headFields (threadId : CString) (head : Json) : Option (String × String × Nat) := do
  let compactionId ← head.getString "compaction_id"
  let headHash ← head.getString "source_hash"
  let named ← head.getString "thread_id"
  guard (named = threadId.val)
  guard ((head.getString "status").getD "" = "committed")
  let eventStart ← exactSize head "source_event_end"
  return (compactionId, headHash, eventStart)

/-- The checks of `turbo_agent_context_load_head` on the compaction that a head names. -/
def compactionSummary (platform : Platform) (threadId : CString) (headHash : String)
    (eventStart : Nat) (compaction : Json) : Option Json := do
  let compactionHash ← compaction.getString "source_hash"
  guard (compactionHash = headHash)
  let named ← compaction.getString "thread_id"
  guard (named = threadId.val)
  guard ((compaction.getString "status").getD "" = "prepared")
  let compactionEnd ← exactSize compaction "source_event_end"
  guard (compactionEnd = eventStart)
  let source ← compaction.field "source"
  let computedHash ← platform.sourceHash source
  guard (computedHash = compactionHash)
  let summary ← compaction.field "summary"
  guard (summaryValid summary)
  return summary

/-- `turbo_agent_context_load_head`: no head, or what the head names. -/
def loadHead (platform : Platform) (threadId : CString) (records : Records) (world : LoadWorld) :
    Except Status (Option Loaded) :=
  if !world.listed then .error .eio
  else
    match records.list ⟨.contextHeads, "thread_id", threadId.val⟩ with
    | [] => .ok none
    | [head] =>
        match headFields threadId head with
        | none => .error .eproto
        | some (compactionId, headHash, eventStart) =>
            match (if world.fetched then records.lookup (.compactions, compactionId) else none) with
            | none => .error .eio
            | some compaction =>
                match compactionSummary platform threadId headHash eventStart compaction with
                | none => .error .eproto
                | some summary =>
                    if world.cloned then .ok (some ⟨summary, head, eventStart⟩)
                    else .error .enomem
    | _ => .error .eproto

namespace Thread

/-- Destroy the context and `turbo_agent_context_create` a new one on the agent of the next
session. -/
def recreate (platform : Platform) (policy : Policy) (world : LoadWorld) (thread : Thread) :
    Status × Thread :=
  let thread := { thread with context := none, projection := .cleared }
  if thread.id.val = "" ∨ !policy.valid then (.einval, thread)
  else
    match loadHead platform thread.id thread.records world with
    | .error status => (status, thread)
    | .ok none => (.ok, { thread with context := some ⟨policy, none, none, 0⟩ })
    | .ok (some loaded) => (.ok, { thread with
        context := some ⟨policy, some loaded.summary, some loaded.head, loaded.eventStart⟩
        projection := ⟨some loaded.summary, loaded.eventStart, true⟩ })

/-- `turbo_agent_context_apply_projection`. -/
def applyProjection (context : Context) (cloned : Bool) (thread : Thread) : Status × Thread :=
  match context.summary with
  | none => (.ok, { thread with projection := .cleared })
  | some summary =>
      if cloned then (.ok, { thread with projection := ⟨some summary, context.eventStart, true⟩ })
      else (.enomem, thread)

/-- What a compaction meets: estimates, the summarizer, the clock, memory for the records,
and the two writes. -/
structure CompactionWorld where
  estimate : Estimator
  summarize : Json → Nat → Option Json
  createdAt : Option String
  (allocated preparedStored headStored : Bool)

/-- The writes of `turbo_agent_context_compact_once` and the update of the three copies. -/
def commit (context : Context) (world : CompactionWorld) (compaction : Compaction)
    (thread : Thread) : Status × Thread :=
  if !world.preparedStored then (.eio, thread)
  else
    let records := thread.records.insert (.compactions, compaction.id.val)
      (compaction.prepared thread.id)
    if !world.headStored then (.eio, { thread with records })
    else (.ok, { thread with
      records := records.insert (.contextHeads, thread.id.val) (compaction.head thread.id)
      context := some { context with
        summary := some compaction.summary
        head := some (compaction.head thread.id)
        eventStart := compaction.stop }
      projection := ⟨some compaction.summary, compaction.stop, true⟩
      committed := compaction :: thread.committed })

/-- The part of `turbo_agent_context_compact_once` after the summary. -/
def store (platform : Platform) (context : Context) (world : CompactionWorld)
    (selected : Selected) (summary : Json) (thread : Thread) : Status × Thread :=
  match platform.sourceHash selected.source with
  | none => (.eio, thread)
  | some sourceHash =>
      let id := platform.uuid thread.drawn
      let thread := { thread with drawn := thread.drawn + 1 }
      match id, world.createdAt with
      | some id, some createdAt =>
          if !world.allocated then (.enomem, thread)
          else commit context world ⟨id, context.eventStart, selected.cut, selected.source,
            selected.tokens, sourceHash, summary, createdAt⟩ thread
      | _, _ => (.eio, thread)

/-- `turbo_agent_context_compact_once`. -/
def compactOnce (platform : Platform) (context : Context) (world : CompactionWorld)
    (thread : Thread) : Status × Thread :=
  match chooseCut world.estimate context.policy thread.events context.eventStart with
  | .error status => (status, thread)
  | .ok desired =>
      match limitSource world.estimate context.policy context.summary thread.events
          context.eventStart desired with
      | .error status => (status, thread)
      | .ok selected =>
          if maxExactInteger < context.eventStart ∨ maxExactInteger < selected.cut ∨
              maxExactInteger < selected.tokens then (.erange, thread)
          else
            match world.summarize selected.source context.policy.maxSummaryTokens with
            | none => (.eproto, thread)
            | some summary =>
                if !summaryValid summary then (.eproto, thread)
                else
                  match world.estimate .summary summary with
                  | .error status => (status, thread)
                  | .ok tokens =>
                      if context.policy.maxSummaryTokens < tokens.toNat then (.emsgsize, thread)
                      else store platform context world selected summary thread

/-- The loop of `turbo_agent_context_prepare`; `rounds` is what is left of
`max_compactions_per_turn`.  The context is the one of the thread. -/
def prepareLoop (platform : Platform) (worlds : Nat → CompactionWorld)
    (requests : Nat → Except Status UInt64) :
    (rounds compacted requestTokens : Nat) → Thread → Status × Thread
  | rounds, compacted, requestTokens, thread =>
      match thread.context with
      | none => (.einval, thread)
      | some context =>
          let done := if requestTokens ≤ context.policy.inputCapacity then .ok else .emsgsize
          match rounds with
          | 0 => (done, thread)
          | rounds + 1 =>
              if requestTokens < context.policy.compactTriggerTokens then (done, thread)
              else
                match compactOnce platform context (worlds compacted) thread with
                | (.enoent, thread) => (done, thread)
                | (.ok, thread) =>
                    match requests (compacted + 1) with
                    | .error status => (status, thread)
                    | .ok tokens => prepareLoop platform worlds requests rounds (compacted + 1)
                        tokens.toNat thread
                | (status, thread) => (status, thread)

/-- `turbo_agent_context_prepare`; `requests` are the estimates of the requests. -/
def prepare (platform : Platform) (forceCompaction cloned : Bool)
    (worlds : Nat → CompactionWorld) (requests : Nat → Except Status UInt64) (thread : Thread) :
    Status × Thread :=
  match thread.context with
  | none => (.einval, thread)
  | some context =>
      if forceCompaction then compactOnce platform context (worlds 0) thread
      else
        match applyProjection context cloned thread with
        | (.ok, thread) =>
            match requests 0 with
            | .error status => (status, thread)
            | .ok tokens => prepareLoop platform worlds requests
                context.policy.maxCompactionsPerTurn 0 tokens.toNat thread
        | (status, thread) => (status, thread)

/-- `turbo_agent_context_handle_overflow`; `detected` is what `is_context_overflow` returns.
The result tells whether the context was compacted. -/
def handleOverflow (platform : Platform) (detected : Int) (world : CompactionWorld)
    (thread : Thread) : Except Status Bool × Thread :=
  match thread.context with
  | none => (.ok false, thread)
  | some context =>
      if !context.policy.detectsOverflow then (.ok false, thread)
      else if detected < 0 then (.error .eproto, thread)
      else if detected = 0 then (.ok false, thread)
      else
        match compactOnce platform context world thread with
        | (.ok, thread) => (.ok true, thread)
        | (status, thread) => (.error status, thread)

end Thread

/-! ## Runs -/

inductive Call where
  | append (events : List Json)
  | recreate (policy : Policy) (world : LoadWorld)
  | prepare (forceCompaction cloned : Bool) (worlds : Nat → Thread.CompactionWorld)
      (requests : Nat → Except Status UInt64)
  | handleOverflow (detected : Int) (world : Thread.CompactionWorld)

namespace Thread

def perform (platform : Platform) (thread : Thread) : Call → Thread
  | .append events => { thread with events := thread.events ++ events }
  | .recreate policy world => (thread.recreate platform policy world).2
  | .prepare forceCompaction cloned worlds requests =>
      (thread.prepare platform forceCompaction cloned worlds requests).2
  | .handleOverflow detected world => (thread.handleOverflow platform detected world).2

def run (platform : Platform) (thread : Thread) (calls : List Call) : Thread :=
  calls.foldl (fun thread call => thread.perform platform call) thread

/-- A thread without a context over the given records. -/
def opened (id : CString) (records : Records) : Thread :=
  ⟨id, [], records, none, .cleared, 0, []⟩

end Thread

end TurboAgent.AgentContext
