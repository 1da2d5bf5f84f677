import TurboAgent.Data.Bytes
import TurboAgent.Logic.FileTree
import TurboAgent.Provider.Sse
import TurboAgent.Runtime.Status

/-!
# Runtime stores

A store keeps the text of a record under a collection and an id, in a list or in a file below a
root directory.  The calls of a runtime handle write and read JSON through either of them.

Collections and ids are the bytes of C strings.  The file store is the one of POSIX systems.
A store has no call that deletes a record; the optional call that creates a record only if it
is absent exists for the store in memory alone and is left out.
-/

namespace TurboAgent.RuntimeStore

open Logic.FileTree
open Provider (JsonCodec)

/-- `turbo_agent_runtime_store_t` for states of type `σ`. -/
structure Backend (σ : Type) where
  put : σ → Bytes → Bytes → CString → σ × Status
  get : σ → Bytes → Bytes → Except Status CString
  list : σ → Bytes → Option String → Option String → Option CString

/-! ## Records in a list -/

/-- `turbo_runtime_store_json_matches_filter`. -/
def matchesFilter (record : Json) (filterKey filterValue : Option String) : Bool :=
  match filterKey, filterValue with
  | some key, some value => record.getString key == some value
  | _, _ => true

section Codec

variable (codec : JsonCodec)

/-- A record on its way into the array of a list call: `none` if its text is not JSON, and
`some none` if the filter leaves it out. -/
def listRecord (filterKey filterValue : Option String) (recordJson : CString) :
    Option (Option Json) :=
  match codec.parse recordJson.val with
  | none => none
  | some record =>
      some (if matchesFilter record filterKey filterValue then some record else none)

def listText (records : List (Option Json)) : CString :=
  codec.serialize (.array records.reduceOption)

end Codec

/-! ## The store in memory -/

/-- `turbo_agent_runtime_memory_record_t`. -/
structure Record where
  (collection id : Bytes)
  recordJson : CString
  deriving DecidableEq

def Record.named (record : Record) (collection id : Bytes) : Bool :=
  record.collection = collection && record.id = id

/-- Replaces the text of the first record of a collection and an id. -/
def replaceJson (collection id : Bytes) (recordJson : CString) : List Record → List Record
  | [] => []
  | record :: records =>
      if record.named collection id then { record with recordJson } :: records
      else record :: replaceJson collection id recordJson records

/-- `turbo_agent_runtime_memory_store_put`. -/
def memoryPut (records : List Record) (collection id : Bytes) (recordJson : CString) :
    List Record × Status :=
  if records.any (·.named collection id) then (replaceJson collection id recordJson records, .ok)
  else (⟨collection, id, recordJson⟩ :: records, .ok)

/-- `turbo_agent_runtime_memory_store_get`. -/
def memoryGet (records : List Record) (collection id : Bytes) : Except Status CString :=
  match records.find? (·.named collection id) with
  | some record => .ok record.recordJson
  | none => .error .enoent

/-- `turbo_agent_runtime_memory_store_list`. -/
def memoryList (codec : JsonCodec) (records : List Record) (collection : Bytes)
    (filterKey filterValue : Option String) : Option CString :=
  ((records.filter fun record => record.collection = collection).mapM fun record =>
    listRecord codec filterKey filterValue record.recordJson).map (listText codec)

/-- `turbo_agent_runtime_store_memory_create`. -/
def memoryStore (codec : JsonCodec) : Backend (List Record) where
  put := memoryPut
  get := memoryGet
  list := memoryList codec

/-! ## The store in files -/

/-- `turbo_runtime_store_join_path`. -/
def joinPath (left right : Bytes) : Bytes :=
  below left right

def fileName (id : Bytes) : Bytes :=
  id ++ asciiBytes ".json"

/-- `turbo_runtime_store_record_path`. -/
def recordPath (rootDir collection id : Bytes) : Bytes :=
  joinPath (joinPath rootDir collection) (fileName id)

def isListed (name : Bytes) : Bool :=
  !decide (name.length < 6) && (asciiBytes ".json").isSuffixOf name

structure Reading where
  order : List Bytes → List Bytes
  perm : ∀ names, (order names).Perm names

section Files

variable (system : System)

/-- `turbo_runtime_store_ensure_dir`, with whether it succeeds. -/
def ensureDir (disk : Disk CString) (path : Bytes) : Disk CString × Bool :=
  if path = [] then (disk, false)
  else
    match disk.mkdir system path with
    | .ok after => (after, true)
    | .error .eexist => (disk, true)
    | .error _ => (disk, false)

/-- `turbo_runtime_store_read_text_file`. -/
def readTextFile (disk : Disk CString) (path : Bytes) : Except Status CString :=
  match disk.read system path with
  | .ok content => .ok content
  | .error .enoent => .error .enoent
  | .error _ => .error .eio

variable (rootDir : Bytes)

/-- `turbo_agent_runtime_file_store_put`. -/
def filePut (disk : Disk CString) (collection id : Bytes) (recordJson : CString) :
    Disk CString × Status :=
  let made := ensureDir system disk (joinPath rootDir collection)
  if !made.2 then (made.1, .unclassified)
  else
    match made.1.write system (recordPath rootDir collection id) recordJson with
    | .ok written => (written, .ok)
    | .error _ => (made.1, .unclassified)

/-- `turbo_agent_runtime_file_store_get`. -/
def fileGet (disk : Disk CString) (collection id : Bytes) : Except Status CString :=
  readTextFile system disk (recordPath rootDir collection id)

/-- `turbo_agent_runtime_file_store_list_append`. -/
def fileListAppend (codec : JsonCodec) (disk : Disk CString) (path : Bytes)
    (filterKey filterValue : Option String) : Option (Option Json) :=
  match readTextFile system disk path with
  | .error _ => none
  | .ok recordText => listRecord codec filterKey filterValue recordText

/-- `turbo_agent_runtime_file_store_list`. -/
def fileList (codec : JsonCodec) (reading : Reading) (disk : Disk CString) (collection : Bytes)
    (filterKey filterValue : Option String) : Option CString :=
  match disk.readDirectory system (joinPath rootDir collection) with
  | .error .enoent => some (listText codec [])
  | .error _ => none
  | .ok names =>
      (((reading.order names).filter isListed).mapM fun name =>
        fileListAppend system codec disk (joinPath (joinPath rootDir collection) name) filterKey
          filterValue).map (listText codec)

/-- The operations that `turbo_agent_runtime_store_file_create` binds. -/
def fileStore (codec : JsonCodec) (reading : Reading) : Backend (Disk CString) where
  put := filePut system rootDir
  get := fileGet system rootDir
  list := fileList system rootDir codec reading

/-- Makes directories one after the other, up to the first failure. -/
def ensureDirs (disk : Disk CString) : List Bytes → Disk CString × Bool
  | [] => (disk, true)
  | path :: paths =>
      let made := ensureDir system disk path
      if made.2 then ensureDirs made.1 paths else made

/-- `turbo_agent_runtime_store_file_create`, with whether it gives a store. -/
def fileCreate (disk : Disk CString) : Disk CString × Bool :=
  ensureDirs system disk [rootDir, joinPath rootDir (asciiBytes "threads"),
    joinPath rootDir (asciiBytes "runs"), joinPath rootDir (asciiBytes "checkpoints")]

end Files

/-! ## The calls of a handle -/

section Calls

variable {σ : Type} (codec : JsonCodec) (backend : Backend σ)

/-- `turbo_agent_runtime_store_put_json`. -/
def putJson (state : σ) (collection id : Bytes) (record : Json) : σ × Status :=
  backend.put state collection id (codec.serialize record)

/-- `turbo_agent_runtime_store_get_json_status`. -/
def getJsonStatus (state : σ) (collection id : Bytes) : Except Status Json :=
  match backend.get state collection id with
  | .error status => .error status
  | .ok serialized =>
      match codec.parse serialized.val with
      | some record => .ok record
      | none => .error .eproto

def parseArray (serialized : CString) : Option (List Json) :=
  match codec.parse serialized.val with
  | some (.array records) => some records
  | _ => none

/-- `turbo_agent_runtime_store_list_json`. -/
def listJson (state : σ) (collection : Bytes) (filterKey filterValue : Option String) :
    Option (List Json) :=
  match backend.list state collection filterKey filterValue with
  | none => none
  | some serialized => parseArray codec serialized

inductive Operation where
  | put (collection id : Bytes) (record : Json)
  | get (collection id : Bytes)
  | list (collection : Bytes) (filterKey filterValue : Option String)
  deriving DecidableEq

inductive Answer where
  | status (status : Status)
  | record (found : Except Status Json)
  | records (found : Option (List Json))
  deriving DecidableEq

def perform (state : σ) : Operation → σ × Answer
  | .put collection id record =>
      let after := putJson codec backend state collection id record
      (after.1, .status after.2)
  | .get collection id => (state, .record (getJsonStatus codec backend state collection id))
  | .list collection filterKey filterValue =>
      (state, .records (listJson codec backend state collection filterKey filterValue))

end Calls

/-- Calls one after the other, each with the order in which it would read a directory. -/
def run {σ : Type} (codec : JsonCodec) (backend : Reading → Backend σ) (state : σ) :
    List (Reading × Operation) → σ × List Answer
  | [] => (state, [])
  | (reading, operation) :: calls =>
      let first := perform codec (backend reading) state operation
      let rest := run codec backend first.1 calls
      (rest.1, first.2 :: rest.2)

end TurboAgent.RuntimeStore
