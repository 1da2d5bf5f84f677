import TurboAgent.Data.Bytes
import TurboAgent.Data.Json
import TurboAgent.Logic.Program
import TurboAgent.Runtime.Status

/-!
# Editing a workspace file

`fs.edit` reads a file of the workspace, replaces the one occurrence of a text and puts the
result in the place of the file: it is written to a staging file beside the target and renamed.
Between any two steps the execution can be cancelled or run out of time, and every call of the
file system can fail.

The calls are those of the root-relative file primitives: each one does what it is for or fails,
and a path leads them to a place in the workspace or is not admitted.  Only this call writes to
the workspace, and allocations succeed.
-/

namespace TurboAgent.Workspace

open Logic Runtime

/-- What the tool is configured with, and how the file primitives read paths and texts. -/
structure Config where
  maxWriteBytes : Nat
  /-- `WORKSPACE_PATH_LIMIT`. -/
  pathLimit : Nat
  /-- `vstr_utf8_valid`. -/
  utf8Valid : Bytes → Bool
  /-- The place that a path leads to. -/
  locate : Bytes → Option Bytes
  bounded : maxWriteBytes ≤ 2147483647

/-- `WorkspaceEdit_t`. -/
structure EditRequest where
  (path oldText newText : Bytes)
  deriving DecidableEq

/-- What `turbo_coding_result` is given. -/
structure Report where
  ok : Bool
  (status summary : String)
  deriving DecidableEq

def completed : Report := ⟨true, "completed", "file replacement committed"⟩

def notCommitted : Report := ⟨false, "failed", "file replacement was not committed"⟩

/-- The report of a staging file that is left behind. -/
def cleanupFailed : Report :=
  ⟨false, "cleanup_failed", "target unchanged; staging file cleanup failed"⟩

/-- A report of a request that is not carried out. -/
def rejected (summary : String) : Report := ⟨false, "rejected", summary⟩

/-! ## The file system -/

structure FileNode where
  content : Bytes
  regular : Bool
  mode : Nat
  deriving DecidableEq

/-- What `cmeta_fs_root_stat` says of a path. -/
inductive StatAnswer where
  | found (regular : Bool) (mode : Nat)
  /-- `-ENOENT`. -/
  | missing
  | refused
  deriving DecidableEq

inductive TokenState where
  | clear
  | timedOut
  | cancelled
  deriving DecidableEq

/-- What `turbo_coding_check_control` reads: the token, and whether the deadline has passed. -/
structure ControlReading where
  token : TokenState
  late : Bool
  deriving DecidableEq

/-- `turbo_coding_check_control`. -/
def checkControl (reading : ControlReading) : ToolStatus :=
  match reading.token with
  | .timedOut => .deadlineExceeded
  | .cancelled => .cancelled
  | .clear => if reading.late then .deadlineExceeded else .ok

theorem checkControl_ne_error (reading : ControlReading) : checkControl reading ≠ .error := by
  obtain ⟨token, late⟩ := reading
  cases token <;> cases late <;> decide

inductive Op where
  | control
  | openRead (path : Bytes)
  | read (size : Nat)
  | closeRead
  | stat (path : Bytes)
  | uuid
  | createFile (path : Bytes) (mode : Nat)
  | write (bytes : Bytes)
  | close
  | rename (source target : Bytes)
  | unlink (path : Bytes)
  /-- A subtraction of sizes, for the record. -/
  | sizes (minuend subtrahend : Nat)
  deriving DecidableEq

/-- What a call answers: a call that fails has no bytes, is false or gives no positive count. -/
def Answer : Op → Type
  | .control => ControlReading
  | .openRead _ => Bool
  | .read _ => Option Bytes
  | .closeRead => Bool
  | .stat _ => StatAnswer
  | .uuid => Option Bytes
  | .createFile _ _ => Bool
  | .write _ => Int
  | .close => Bool
  | .rename _ _ => Bool
  | .unlink _ => Bool
  | .sizes _ _ => PUnit

abbrev interface : Interface := ⟨Op, Answer⟩

/-- The workspace and the files that are open in it. -/
structure World where
  files : Bytes → Option FileNode
  /-- What is left to read of the file that is open for it. -/
  reader : Option Bytes
  /-- The file that is open for writing. -/
  writer : Option Bytes
  /-- Some call has failed, or the execution was to end. -/
  troubled : Bool
  /-- Some subtraction of sizes has wrapped. -/
  wrapped : Bool

/-- The world after a call that went well or not. -/
def World.note (world : World) (well : Bool) : World :=
  { world with troubled := world.troubled || !well }

/-- The world with the content of the file that is open for writing replaced. -/
def World.filled (world : World) (content : Bytes → Bytes) : World :=
  match world.writer with
  | none => world
  | some place =>
      { world with
        files := Function.update world.files place
          ((world.files place).map fun node => { node with content := content node.content }) }

def Performs (config : Config) : (op : Op) → World → Answer op → World → Prop
  | .control, world, reading, after => after = world.note (checkControl reading == .ok)
  | .openRead path, world, opened, after =>
      (opened = false ∧ after = world.note false) ∨
        (opened = true ∧ ∃ place node, config.locate path = some place ∧
          world.files place = some node ∧ after = { world with reader := some node.content })
  | .read size, world, answer, after =>
      (answer = none ∧ after = world.note false) ∨
        ∃ bytes rest, answer = some bytes ∧ world.reader = some (bytes ++ rest) ∧
          bytes.length ≤ size ∧ (bytes = [] → rest = []) ∧
          after = { world with reader := some rest }
  | .closeRead, world, closed, after => after = { world with reader := none }.note closed
  | .stat path, world, answer, after =>
      (answer = .refused ∧ after = world.note false) ∨
        (∃ place, config.locate path = some place ∧ after = world ∧
          answer = match world.files place with
            | none => .missing
            | some node => .found node.regular node.mode)
  | .uuid, world, answer, after => after = world.note (Option.isSome answer)
  | .createFile path mode, world, created, after =>
      (created = false ∧ after = world.note false) ∨
        (created = true ∧ ∃ place, config.locate path = some place ∧ world.files place = none ∧
          after = { world with
            files := Function.update world.files place (some ⟨[], true, mode⟩)
            writer := some place })
  | .write bytes, world, written, after =>
      (Int.toNat written = 0 ∧ ∃ content, after = (world.filled content).note false) ∨
        (0 < Int.toNat written ∧ Int.toNat written ≤ bytes.length ∧
          after = world.filled (· ++ bytes.take (Int.toNat written)))
  | .close, world, closed, after =>
      (closed = false ∧ ∃ content, after = { world.filled content with writer := none }.note false) ∨
        (closed = true ∧ after = { world with writer := none })
  | .rename source target, world, renamed, after =>
      (renamed = false ∧ after = world.note false) ∨
        (renamed = true ∧ ∃ old new node, config.locate source = some old ∧
          config.locate target = some new ∧ world.files old = some node ∧
          after = { world with
            files := Function.update (Function.update world.files old none) new (some node) })
  | .unlink path, world, unlinked, after =>
      (unlinked = false ∧ after = world.note false) ∨
        (unlinked = true ∧ ∃ place, config.locate path = some place ∧
          after = { world with files := Function.update world.files place none })
  | .sizes minuend subtrahend, world, _, after =>
      after = { world with wrapped := world.wrapped || decide (minuend < subtrahend) }

/-- The file system as a machine with one agent. -/
abbrev machine (config : Config) : Machine interface Unit (ToolStatus × Option Report) where
  State := World
  perform _ := Performs config
  spawn _ _ _ := none

/-! ## The tool -/

abbrev Call (α : Type) := Program interface α

/-- `turbo_coding_check_control` as a step of a program. -/
def control : Call ToolStatus :=
  .call .control fun reading => .done (checkControl reading)

/-- `cmeta_fs_root_file_open` for reading. -/
def openRead (path : Bytes) : Call Bool := .call (.openRead path) .done

/-- `cmeta_fs_root_file_read`. -/
def readFile (size : Nat) : Call (Option Bytes) := .call (.read size) .done

/-- `cmeta_fs_root_file_close` after reading. -/
def closeRead : Call Bool := .call .closeRead .done

/-- `cmeta_fs_root_stat`. -/
def statPath (path : Bytes) : Call StatAnswer := .call (.stat path) .done

/-- `cmeta_uuid_v4_generate` and `cmeta_uuid_format`. -/
def newUuid : Call (Option Bytes) := .call .uuid .done

/-- `cmeta_fs_root_file_open` for a new file. -/
def createFile (path : Bytes) (mode : Nat) : Call Bool := .call (.createFile path mode) .done

/-- `cmeta_fs_root_file_write`. -/
def writeFile (bytes : Bytes) : Call Int := .call (.write bytes) .done

/-- `cmeta_fs_root_file_close` after writing. -/
def closeWrite : Call Bool := .call .close .done

/-- `cmeta_fs_root_rename`. -/
def renameFile (source target : Bytes) : Call Bool := .call (.rename source target) .done

/-- `cmeta_fs_root_unlink`. -/
def unlinkFile (path : Bytes) : Call Bool := .call (.unlink path) .done

def sizes (minuend subtrahend : Nat) : Call PUnit := .call (.sizes minuend subtrahend) .done

/-- `WORKSPACE_IO_CHUNK`. -/
def ioChunk : Nat := 4096

def sizeSub (minuend subtrahend : Nat) : Nat :=
  (minuend + 2 ^ 64 - subtrahend) % 2 ^ 64

theorem sizeSub_le (minuend subtrahend : Nat) :
    sizeSub minuend subtrahend ≤ minuend + 2 ^ 64 - subtrahend :=
  Nat.mod_le _ _

theorem sizeSub_eq {minuend subtrahend : Nat} (small : minuend < 2 ^ 64)
    (fits : subtrahend ≤ minuend) : sizeSub minuend subtrahend = minuend - subtrahend := by
  rw [sizeSub, Nat.add_comm, Nat.add_sub_assoc fits, Nat.add_mod_left,
    Nat.mod_eq_of_lt ((Nat.sub_le _ _).trans_lt small)]

/-- `workspace_text`. -/
def workspaceText (config : Config) (text : Bytes) : Bool :=
  !text.contains 0 && config.utf8Valid text

/-- The loop of `workspace_read`, with the text so far. -/
def readLoop (config : Config) (text : Bytes) : Call (ToolStatus × Bytes) := do
  let status ← control
  if status ≠ .ok then pure (status, text)
  else
    let answer ← readFile ioChunk
    match answer with
    | none => pure (.error, text)
    | some bytes =>
        if _last : bytes = [] then
          pure (if workspaceText config text then .ok else .error, text)
        else
          let _ ← sizes config.maxWriteBytes text.length
          if _large : sizeSub config.maxWriteBytes text.length < bytes.length then
            pure (.error, text)
          else readLoop config (text ++ bytes)
termination_by config.maxWriteBytes + 2 ^ 64 - text.length
decreasing_by
  have some_bytes : 0 < bytes.length := List.length_pos_of_ne_nil _last
  have room := sizeSub_le config.maxWriteBytes text.length
  rw [List.length_append]
  omega

/-- `workspace_read`. -/
def workspaceRead (config : Config) (path : Bytes) : Call (ToolStatus × Bytes) := do
  let status ← control
  if status ≠ .ok then pure (status, [])
  else
    let opened ← openRead path
    if opened = false then pure (.error, [])
    else
      let result ← readLoop config []
      let closed ← closeRead
      if result.1 ≠ .ok then pure result
      else if closed = false then pure (.error, result.2)
      else
        let status ← control
        pure (status, result.2)

def directoryOf (path : Bytes) : Bytes :=
  (path.reverse.dropWhile fun byte => !(byte == 47 || byte == 92)).reverse

def temporaryName (path uuid : Bytes) : Bytes :=
  directoryOf path ++ asciiBytes ".turbo-agent-" ++ uuid

/-- The loop that writes the staging file: no status if a write fails. -/
def writeLoop (content : Bytes) (offset : Nat) : Call (Option ToolStatus) :=
  if _more : offset < content.length then do
    let _ ← sizes content.length offset
    let amount := min (sizeSub content.length offset) ioChunk
    let status ← control
    if status ≠ .ok then pure (some status)
    else
      let written ← writeFile ((content.drop offset).take amount)
      if _failed : written ≤ 0 then pure none
      else writeLoop content (offset + Int.toNat written)
  else pure (some .ok)
termination_by content.length - offset
decreasing_by omega

/-- The end of `workspace_publish`: the staging file is closed and removed. -/
def cleanUp (temporary : Bytes) (opened staged : Bool) (status : ToolStatus) (report : Report) :
    Call (ToolStatus × Option Report) := do
  let _ ← if opened then closeWrite else pure true
  if staged = false then pure (status, some report)
  else
    let unlinked ← unlinkFile temporary
    if unlinked = false then pure (.ok, some cleanupFailed) else pure (status, some report)

/-- `workspace_publish` from the staging file on. -/
def stage (path temporary content : Bytes) (mode : Nat) : Call (ToolStatus × Option Report) := do
  let status ← control
  if status ≠ .ok then cleanUp temporary false false status completed
  else
    let created ← createFile temporary mode
    if created = false then cleanUp temporary false false .ok notCommitted
    else
      let written ← writeLoop content 0
      match written with
      | none => cleanUp temporary true true .ok notCommitted
      | some status =>
          if status ≠ .ok then cleanUp temporary true true status completed
          else
            let closed ← closeWrite
            if closed = false then cleanUp temporary false true .ok notCommitted
            else
              let status ← control
              if status ≠ .ok then cleanUp temporary false true status completed
              else
                let renamed ← renameFile temporary path
                if renamed = false then cleanUp temporary false true .ok notCommitted
                else cleanUp temporary false false .ok completed

/-- `workspace_publish` for a target of some mode. -/
def publishAs (path content : Bytes) (mode : Nat) : Call (ToolStatus × Option Report) := do
  let uuid ← newUuid
  match uuid with
  | none => pure (.error, none)
  | some uuid => stage path (temporaryName path uuid) content mode

/-- `workspace_publish`. -/
def workspacePublish (config : Config) (path content : Bytes) :
    Call (ToolStatus × Option Report) :=
  if path = [] ∨ config.pathLimit < path.length then
    pure (.ok, some (rejected "invalid workspace path"))
  else do
    let answer ← statPath path
    match answer with
    | .refused =>
        pure (.ok, some (rejected "path cannot be admitted within the workspace"))
    | .missing => publishAs path content 0o600
    | .found regular mode =>
        if regular = false then pure (.ok, some (rejected "target is not a regular file"))
        else publishAs path content (mode &&& 0o777)

/-- `strstr`. -/
def strstr (pattern : Bytes) : Bytes → Option Nat
  | [] => if pattern = [] then some 0 else none
  | byte :: rest =>
      if pattern.isPrefixOf (byte :: rest) then some 0 else (strstr pattern rest).map (· + 1)

def onlyMatch (pattern text : Bytes) : Option Nat :=
  match if pattern = [] then none else strstr pattern text with
  | none => none
  | some place => if (strstr pattern (text.drop (place + 1))).isSome then none else some place

/-- The text with an occurrence replaced, and what follows it cut to a length. -/
def spliced (original : Bytes) (request : EditRequest) (place tail : Nat) : Bytes :=
  original.take place ++ request.newText ++
    (original.drop (place + request.oldText.length)).take tail

/-- `workspace_edit`. -/
def workspaceEdit (config : Config) (request : EditRequest) :
    Call (ToolStatus × Option Report) := do
  let result ← workspaceRead config request.path
  if result.1 = .error then
    pure (.ok, some ⟨false, "failed", "file cannot be read within configured bounds"⟩)
  else if result.1 ≠ .ok then pure (result.1, none)
  else
    let original := result.2
    let status ← control
    if status ≠ .ok then pure (status, none)
    else
      match onlyMatch request.oldText original with
      | none => pure (.ok, some ⟨false, "conflict", "old_text must match exactly once"⟩)
      | some place =>
          let _ ← sizes original.length place
          let behind := sizeSub original.length place
          let _ ← sizes behind request.oldText.length
          let tail := sizeSub behind request.oldText.length
          let _ ← sizes original.length request.oldText.length
          let total := sizeSub original.length request.oldText.length
          let _ ← sizes config.maxWriteBytes total
          if sizeSub config.maxWriteBytes total < request.newText.length then
            pure (.ok, some (rejected "replacement exceeds configured bounds"))
          else workspacePublish config request.path (spliced original request place tail)

def argumentFits (config : Config) (limit : Nat) (text : Bytes) : Bool :=
  text.length ≤ limit && !text.contains 0 && config.utf8Valid text

/-- The arguments are texts within their limits. -/
def Config.admits (config : Config) (request : EditRequest) : Bool :=
  argumentFits config config.pathLimit request.path &&
    argumentFits config config.maxWriteBytes request.oldText &&
    argumentFits config config.maxWriteBytes request.newText

/-- `workspace_invoke` for `fs.edit`, on arguments that are decoded: a call that fails has no
report. -/
def workspaceInvoke (config : Config) (request : EditRequest) :
    Call (ToolStatus × Option Report) := do
  let status ← control
  if status ≠ .ok then pure (status, none)
  else if config.admits request = false then
    pure (.ok, some (rejected "arguments exceed text or size constraints"))
  else
    let result ← workspaceEdit config request
    pure (result.1, if result.1 = .ok then result.2 else none)

end TurboAgent.Workspace
