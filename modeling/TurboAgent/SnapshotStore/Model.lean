import TurboAgent.Memory.Files
import TurboAgent.RuntimeStore.Model

/-!
# Stores of graph snapshots

A store keeps the text of a snapshot under an id, in a list or in a file below a root directory.
The file is named after the id in hexadecimal digits, and the list of a directory reads the ids
back from the names of its files.

Ids are C strings as bytes.  The file store is the one of POSIX systems.
-/

namespace TurboAgent.SnapshotStore

open Logic.FileTree
open RuntimeStore (Reading joinPath isListed)

abbrev Id := { bytes : Bytes // 0 ∉ bytes }

/-- `turbo_state_graph_store_t` for states of type `σ`.  A list is the array whose text the
backend gives; an entry that is no string is `none`. -/
structure Backend (σ : Type) where
  load : σ → Id → Option CString
  save : σ → Id → CString → σ × Bool
  list : σ → Option (List (Option Id))
  remove : σ → Id → σ × Bool

/-! ## The store in memory -/

/-- `turbo_state_graph_store_memory_record_t`. -/
structure Record where
  snapshotId : Id
  snapshotJson : CString
  deriving DecidableEq

/-- `turbo_state_graph_store_memory_find`. -/
def memoryFind (records : List Record) (snapshotId : Id) : Option Record :=
  records.find? fun record => record.snapshotId = snapshotId

/-- `turbo_state_graph_store_memory_load`. -/
def memoryLoad (records : List Record) (snapshotId : Id) : Option CString :=
  (memoryFind records snapshotId).map Record.snapshotJson

/-- Replaces the text of the first record of an id. -/
def replaceJson (snapshotId : Id) (snapshotJson : CString) : List Record → List Record
  | [] => []
  | record :: records =>
      if record.snapshotId = snapshotId then { record with snapshotJson } :: records
      else record :: replaceJson snapshotId snapshotJson records

/-- `turbo_state_graph_store_memory_save`. -/
def memorySave (records : List Record) (snapshotId : Id) (snapshotJson : CString) :
    List Record × Bool :=
  match memoryFind records snapshotId with
  | some _ => (replaceJson snapshotId snapshotJson records, true)
  | none => (⟨snapshotId, snapshotJson⟩ :: records, true)

/-- `turbo_state_graph_store_memory_list`. -/
def memoryList (records : List Record) : Option (List (Option Id)) :=
  some (records.map fun record => some record.snapshotId)

/-- `turbo_state_graph_store_memory_delete`. -/
def memoryDelete (records : List Record) (snapshotId : Id) : List Record × Bool :=
  match memoryFind records snapshotId with
  | some _ => (records.eraseP fun record => record.snapshotId = snapshotId, true)
  | none => (records, false)

/-- `turbo_state_graph_store_memory_create`. -/
def memoryStore : Backend (List Record) where
  load := memoryLoad
  save := memorySave
  list := memoryList
  remove := memoryDelete

/-! ## The store in files -/

/-- `turbo_state_graph_store_hex_encode`. -/
def hexEncode (text : Bytes) : Bytes :=
  Memory.hexEncode text

/-- `turbo_state_graph_store_hex_decode`. -/
def hexDecode (text : Bytes) : Option Bytes :=
  Memory.hexDecode text

def fileName (snapshotId : Id) : Bytes :=
  hexEncode snapshotId.val ++ asciiBytes ".json"

/-- `turbo_state_graph_store_file_snapshot_dir`. -/
def snapshotDir (rootDir : Bytes) : Bytes :=
  joinPath rootDir (asciiBytes "snapshots")

/-- `turbo_state_graph_store_file_snapshot_path`. -/
def snapshotPath (rootDir : Bytes) (snapshotId : Id) : Bytes :=
  joinPath (snapshotDir rootDir) (fileName snapshotId)

def cText (bytes : Bytes) : Id :=
  ⟨bytes.takeWhile (· ≠ 0), fun inside => by simpa using List.mem_takeWhile_imp inside⟩

/-- `turbo_state_graph_store_file_list_append`: what a name adds to the array, and `none` if
the call fails. -/
def fileListAppend (name : Bytes) : Option (List (Option Id)) :=
  if isListed name then
    (hexDecode (name.take (name.length - 5))).map fun bytes => [some (cText bytes)]
  else some []

section Files

variable (system : System) (rootDir : Bytes)

/-- `turbo_state_graph_store_file_load`. -/
def fileLoad (disk : Disk CString) (snapshotId : Id) : Option CString :=
  (disk.read system (snapshotPath rootDir snapshotId)).toOption

/-- `turbo_state_graph_store_file_save`. -/
def fileSave (disk : Disk CString) (snapshotId : Id) (snapshotJson : CString) :
    Disk CString × Bool :=
  match disk.write system (snapshotPath rootDir snapshotId) snapshotJson with
  | .ok written => (written, true)
  | .error _ => (disk, false)

/-- `turbo_state_graph_store_file_list`. -/
def fileList (reading : Reading) (disk : Disk CString) : Option (List (Option Id)) :=
  match disk.readDirectory system (snapshotDir rootDir) with
  | .error _ => none
  | .ok names => ((reading.order names).mapM fileListAppend).map List.flatten

/-- `turbo_state_graph_store_file_delete`. -/
def fileDelete (disk : Disk CString) (snapshotId : Id) : Disk CString × Bool :=
  match disk.remove system (snapshotPath rootDir snapshotId) with
  | .ok removed => (removed, true)
  | .error _ => (disk, false)

/-- The operations that `turbo_state_graph_store_file_create` binds. -/
def fileStore (reading : Reading) : Backend (Disk CString) where
  load := fileLoad system rootDir
  save := fileSave system rootDir
  list := fileList system rootDir reading
  remove := fileDelete system rootDir

/-- `turbo_state_graph_store_file_create`, with whether it gives a store. -/
def fileCreate (disk : Disk CString) : Disk CString × Bool :=
  RuntimeStore.ensureDirs system disk [rootDir, snapshotDir rootDir]

end Files

/-! ## Runs -/

inductive Operation where
  | save (snapshotId : Id) (snapshotJson : CString)
  | delete (snapshotId : Id)
  deriving DecidableEq

def perform {σ : Type} (backend : Backend σ) (state : σ) : Operation → σ × Bool
  | .save snapshotId snapshotJson => backend.save state snapshotId snapshotJson
  | .delete snapshotId => backend.remove state snapshotId

/-- Calls one after the other, each with its result. -/
def run {σ : Type} (backend : Backend σ) (state : σ) :
    List Operation → σ × List (Operation × Bool)
  | [] => (state, [])
  | operation :: operations =>
      let first := perform backend state operation
      let rest := run backend first.1 operations
      (rest.1, (operation, first.2) :: rest.2)

end TurboAgent.SnapshotStore
