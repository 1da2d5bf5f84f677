import TurboAgent.Data.Json
import TurboAgent.Runtime.Status

/-!
# The published head of a thread

The runtime keeps its records as JSON documents in named collections.  The head of a thread is
one of them: a document with a snapshot of the run that was published last, or with `null` while
the first segment of the thread is not published.  What is written here is read back elsewhere,
through field checks of its own.

The store is the list of the in-memory backend.  Whether a call of the store fails, and with
which code, is an argument; a failing write leaves the store as it is.
-/

namespace TurboAgent.Publication

inductive Shelf where
  | threads
  | runs
  | checkpoints
  | threadHeads
  deriving DecidableEq

/-- `turbo_agent_runtime_memory_record_t`. -/
structure Record where
  collection : Shelf
  id : CString
  document : Json
  deriving DecidableEq

/-- `turbo_agent_runtime_memory_store_t`. -/
abbrev Store := List Record

/-- `turbo_agent_runtime_memory_store_get`. -/
def find (collection : Shelf) (id : CString) : Store → Option Json
  | [] => none
  | record :: rest =>
      if record.collection = collection ∧ record.id = id then some record.document
      else find collection id rest

/-- The search of `turbo_agent_runtime_memory_store_put` for a record that it can replace. -/
def replace (collection : Shelf) (id : CString) (document : Json) : Store → Option Store
  | [] => none
  | record :: rest =>
      if record.collection = collection ∧ record.id = id then
        some ({ record with document } :: rest)
      else (replace collection id document rest).map (record :: ·)

/-- `turbo_agent_runtime_memory_store_put`. -/
def put (collection : Shelf) (id : CString) (document : Json) (store : Store) : Store :=
  (replace collection id document store).getD (⟨collection, id, document⟩ :: store)

/-- `turbo_agent_runtime_memory_store_list`. -/
def list (collection : Shelf) (key : String) (value : CString) (store : Store) : List Json :=
  (store.filter fun record => decide (record.collection = collection) &&
    record.document.getString key == some value.val).map Record.document

/-- How one read goes: whether the backend tells absence from failure, the code it fails with,
and whether the listing and the copy of the result succeed. -/
structure Read where
  classified : Bool
  failure : Option StoreError
  (listed cloned : Bool)

def Read.working : Read := ⟨true, none, true, true⟩

/-- `turbo_agent_runtime_store_get_json_status`. -/
def getJson (read : Read) (collection : Shelf) (id : CString) (store : Store) :
    Except Status Json :=
  match read.failure with
  | some error => .error error.val
  | none =>
      match find collection id store with
      | some document => .ok document
      | none => .error (if read.classified then .enoent else .unclassified)

/-- `head_string`. -/
def headString (object : Json) (key : String) : Option String :=
  match object.field key with
  | some (.string text) => if noNul text then some text else none
  | _ => none

/-- `head_read`. -/
def headRead (read : Read) (threadId : CString) (store : Store) : Except Status Json :=
  match getJson read .threadHeads threadId store with
  | .ok head => .ok head
  | .error .unclassified =>
      if read.listed ∧ list .threadHeads "id" threadId store = [] then .error .enoent
      else .error .eio
  | .error status => .error status

/-- What `head_load` finds: a run, a thread whose first segment is not published, or an error. -/
inductive Loaded where
  | published (run : Json)
  | empty
  | failed (status : Status)
  deriving DecidableEq

def publishedStatuses : List String := ["completed", "interrupted", "cancelled", "timed_out"]

/-- The checks of `head_load` on the run snapshot. -/
def runReadable (threadId : CString) (run : Json) : Bool :=
  run.isObject &&
  (headString run "id").any (· ≠ "") &&
  headString run "thread_id" == some threadId.val &&
  (headString run "status").any (publishedStatuses.contains ·) &&
  (run.field "state_snapshot").any (· ≠ .null) &&
  (run.field "latest_checkpoint_id").any fun checkpoint =>
    checkpoint == .null || (headString run "latest_checkpoint_id").any (· ≠ "")

/-- `head_load`. -/
def headLoad (read : Read) (threadId : CString) (store : Store) : Loaded :=
  if threadId.val = "" then .failed .einval
  else
    match headRead read threadId store with
    | .error status => .failed status
    | .ok head =>
        if headString head "id" ≠ some threadId.val ∨
            headString head "thread_id" ≠ some threadId.val ∨
            Json.asInt64 (head.field "schema_version") (-1) ≠ 1 then .failed .eproto
        else
          match head.field "run_snapshot" with
          | none => .failed .eproto
          | some run =>
              if run = .null then .empty
              else if !runReadable threadId run then .failed .eproto
              else if read.cloned then .published run
              else .failed .enomem

/-- The document that `turbo_runtime_head_publish` writes. -/
def headDocument (threadId : CString) (run : Option Json) : Json :=
  .object [("schema_version", .int 1), ("id", .string threadId.val),
    ("thread_id", .string threadId.val), ("run_snapshot", run.getD .null)]

/-- `turbo_runtime_head_publish`. -/
def headPublish (stored : Bool) (threadId : CString) (run : Option Json) (store : Store) :
    Bool × Store :=
  if stored then (true, put .threadHeads threadId (headDocument threadId run) store)
  else (false, store)

/-- `turbo_runtime_head_initialize`. -/
def headInitialize (read : Read) (stored : Bool) (threadId : CString) (store : Store) :
    Bool × Store :=
  match headLoad read threadId store with
  | .published _ | .empty => (true, store)
  | .failed .enoent => headPublish stored threadId none store
  | .failed _ => (false, store)

/-! ## The store -/

section

variable {collection collection' : Shelf} {id id' : CString} {document : Json} {store : Store}

theorem find_replace_same {replaced : Store}
    (done : replace collection id document store = some replaced) :
    find collection id replaced = some document := by
  induction store generalizing replaced with
  | nil => simp [replace] at done
  | cons record rest ih =>
      rw [replace] at done
      split at done
      next here =>
        cases done
        simp [find, here]
      next elsewhere =>
        simp only [Option.map_eq_some_iff] at done
        obtain ⟨tail, tailDone, rfl⟩ := done
        rw [find, if_neg elsewhere]
        exact ih tailDone

theorem find_replace_other {replaced : Store}
    (done : replace collection id document store = some replaced)
    (other : ¬(collection = collection' ∧ id = id')) :
    find collection' id' replaced = find collection' id' store := by
  induction store generalizing replaced with
  | nil => simp [replace] at done
  | cons record rest ih =>
      rw [replace] at done
      split at done
      next here =>
        cases done
        have apart : ¬(record.collection = collection' ∧ record.id = id') := by
          rw [here.1, here.2]
          exact other
        simp only [find, if_neg apart]
      next =>
        simp only [Option.map_eq_some_iff] at done
        obtain ⟨tail, tailDone, rfl⟩ := done
        simp only [find, ih tailDone]

@[simp] theorem find_put_same :
    find collection id (put collection id document store) = some document := by
  rw [put]
  cases done : replace collection id document store with
  | none => simp [find]
  | some replaced => exact find_replace_same done

theorem find_put_other (other : ¬(collection = collection' ∧ id = id')) :
    find collection' id' (put collection id document store) = find collection' id' store := by
  rw [put]
  cases done : replace collection id document store with
  | none => simp only [Option.getD_none, find, if_neg other]
  | some replaced => exact find_replace_other done other

@[simp] theorem find_put_collection (other : collection ≠ collection') :
    find collection' id' (put collection id document store) = find collection' id' store :=
  find_put_other fun same => other same.1

theorem find_put_isSome (stored : (find collection' id' store).isSome = true) :
    (find collection' id' (put collection id document store)).isSome = true := by
  by_cases same : collection = collection' ∧ id = id'
  · obtain ⟨rfl, rfl⟩ := same
    simp
  · rw [find_put_other same]
    exact stored

theorem list_ne_nil {value : CString} (stored : find collection value store = some document)
    (named : document.getString "id" = some value.val) :
    list collection "id" value store ≠ [] := by
  induction store with
  | nil => simp [find] at stored
  | cons record rest ih =>
      rw [find] at stored
      split at stored
      next here =>
        cases stored
        simp [list, here.1, named]
      have later := ih stored
      simp only [list, ne_eq, List.map_eq_nil_iff, List.filter_eq_nil_iff] at later ⊢
      intro none
      exact later fun other member => none other (List.mem_cons_of_mem record member)

end

/-! ## Loading and marking -/

section

variable {read : Read} {threadId : CString} {store : Store}

theorem headRead_working :
    headRead .working threadId store = match find .threadHeads threadId store with
      | some head => .ok head
      | none => .error .enoent := by
  cases found : find .threadHeads threadId store with
  | none => simp [headRead, getJson, Read.working, found]
  | some head => simp [headRead, getJson, Read.working, found]

theorem headLoad_congr {store' : Store}
    (same : find .threadHeads threadId store' = find .threadHeads threadId store) :
    headLoad .working threadId store' = headLoad .working threadId store := by
  simp only [headLoad, headRead_working, same]

theorem getString_of_headString {object : Json} {key text : String}
    (found : headString object key = some text) : object.getString key = some text := by
  unfold headString at found
  split at found
  next inner stored =>
    split at found
    next plain =>
      cases found
      exact Json.getString_of_field stored plain
    next => cases found
  next => cases found

/-- A backend that does not classify its failures is believed only after an empty listing. -/
theorem headRead_absent (absent : headRead read threadId store = .error .enoent) :
    find .threadHeads threadId store = none ∨ list .threadHeads "id" threadId store = [] := by
  unfold headRead at absent
  split at absent
  next => cases absent
  next =>
    split at absent
    next empty => exact .inr empty.2
    next => cases absent
  next status _ failed =>
    cases absent
    unfold getJson at failed
    split at failed
    next error _ =>
      rw [Except.error.injEq] at failed
      exact absurd failed error.property.2
    split at failed
    next => cases failed
    next missing => exact .inl missing

theorem headRead_of_absent (absent : headLoad read threadId store = .failed .enoent) :
    headRead read threadId store = .error .enoent := by
  unfold headLoad at absent
  split at absent
  next => cases absent
  split at absent
  next status failed =>
    cases absent
    exact failed
  next =>
    repeat' split at absent
    all_goals cases absent

theorem head_of_published {run : Json}
    (published : headLoad .working threadId store = .published run) :
    ∃ head, find .threadHeads threadId store = some head ∧
      headString head "id" = some threadId.val ∧ head.field "run_snapshot" = some run ∧
      runReadable threadId run = true := by
  simp only [headLoad, headRead_working] at published
  split at published
  next => cases published
  cases found : find .threadHeads threadId store with
  | none => simp [found] at published
  | some head =>
      simp only [found] at published
      split at published
      next => cases published
      next fields =>
        push Not at fields
        split at published
        next => cases published
        next snapshot stored =>
          split at published
          next => cases published
          split at published
          next => cases published
          next readable =>
            simp only [Read.working, if_true, Loaded.published.injEq] at published
            subst published
            exact ⟨head, rfl, fields.1, stored, by simpa using readable⟩

/-- When a read reports absence there is no head that could be loaded: a readable head is
listed. -/
theorem not_published_of_absent (absent : headLoad read threadId store = .failed .enoent)
    (run : Json) : headLoad .working threadId store ≠ .published run := by
  intro published
  obtain ⟨head, found, named, -, -⟩ := head_of_published published
  rcases headRead_absent (headRead_of_absent absent) with missing | empty
  · simp [missing] at found
  · exact list_ne_nil found (getString_of_headString named) empty

@[simp] theorem headString_of_field {object : Json} {key text : String}
    (stored : object.field key = some (.string text)) (plain : noNul text = true) :
    headString object key = some text := by
  simp [headString, stored, plain]

/-- A published run is loaded when the run passes the checks of the reader. -/
theorem headLoad_publish {run : Json} (named : threadId.val ≠ "")
    (stored : find .threadHeads threadId store = some (headDocument threadId (some run))) :
    headLoad .working threadId store =
      if run = .null then .empty
      else if runReadable threadId run then .published run
      else .failed .eproto := by
  have id : headString (headDocument threadId (some run)) "id" = some threadId.val :=
    headString_of_field rfl threadId.property
  have thread : headString (headDocument threadId (some run)) "thread_id" = some threadId.val :=
    headString_of_field rfl threadId.property
  have version : Json.asInt64 ((headDocument threadId (some run)).field "schema_version") (-1) = 1 :=
    Json.asInt64_int (by decide) (by decide)
  have snapshot : (headDocument threadId (some run)).field "run_snapshot" = some run := rfl
  have copied : Read.working.cloned = true := rfl
  simp only [headLoad, if_neg named, headRead_working, stored, id, thread, version, snapshot,
    ne_eq, not_true_eq_false, or_self, if_false, copied, if_true]
  cases runReadable threadId run <;> rfl

theorem headLoad_marked (named : threadId.val ≠ "")
    (stored : find .threadHeads threadId store = some (headDocument threadId none)) :
    headLoad .working threadId store = .empty := by
  have marked : headDocument threadId none = headDocument threadId (some .null) := rfl
  rw [marked] at stored
  rw [headLoad_publish named stored, if_pos rfl]

end

end TurboAgent.Publication
