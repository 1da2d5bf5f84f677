import TurboAgent.Data.Json
import TurboAgent.Runtime.Status

/-!
# Codex bridge

A client of the Codex app-server sends requests and reads JSON messages: responses to its
requests, requests of the server, and notifications.  `run_text` starts a turn of a thread and
collects its text from the notifications that arrive until the turn is completed.

What the transport returns is given: the result of every write and of every read, in order.
A deadline that passes is a read that times out.
-/

namespace TurboAgent.Codex

/-- A line that was read, and the document that it parses to. -/
structure Frame where
  length : Nat
  broken : Bool
  document : Option Json
  deriving DecidableEq

inductive Read where
  | failed (status : Status)
  | frame (frame : Frame)
  deriving DecidableEq

/-- `turbo_codex_client_config_t`, with the length of a message when it is sent.  A server
request that the callback refuses has no result. -/
structure Config where
  (clientName clientTitle clientVersion : String)
  experimentalApi : Bool
  maxMessageBytes : Nat
  serverRequest : Option (String → Option Json → Option Json)
  serializedLength : Json → Nat

/-- `turbo_codex_client_t`, with the results of the writes to come and the messages sent. -/
structure Client where
  nextRequestId : Nat
  (initialized closed : Bool)
  (lastError captureThreadId captureTurnId : Option String)
  capturedText : String
  completedTurn : Option Json
  captureError : Status
  writes : List Status
  sent : List Json
  deriving DecidableEq

/-- `turbo_codex_set_error`. -/
def setError (client : Client) (message : String) : Client :=
  { client with lastError := some message }

section

variable (config : Config)

/-! ## Sending -/

/-- `turbo_codex_send_json`. -/
def sendJson (client : Client) (message : Json) : Status × Client :=
  if client.closed then (.eshutdown, client)
  else if config.maxMessageBytes < config.serializedLength message then
    (.emsgsize, setError client "outbound Codex message exceeds max_message_bytes")
  else
    let status := client.writes.headD .ok
    let client := { client with writes := client.writes.tail, sent := client.sent ++ [message] }
    if status = .ok then (.ok, client) else (status, setError client "Codex transport write failed")

/-- `turbo_codex_send_notification`. -/
def sendNotification (client : Client) (method : String) (params : Json) : Status × Client :=
  sendJson config client (.object [("method", .string method), ("params", params)])

/-- `turbo_codex_send_server_response` with a result. -/
def sendResult (client : Client) (id result : Json) : Status × Client :=
  sendJson config client (.object [("id", id), ("result", result)])

/-- `turbo_codex_send_server_response` with an error. -/
def sendFailure (client : Client) (id : Json) (code : Int) (message : String) :
    Status × Client :=
  sendJson config client (.object [("id", id),
    ("error", .object [("code", .int code), ("message", .string message)])])

/-! ## Incoming messages -/

/-- `turbo_codex_is_approval_method`. -/
def isApprovalMethod (method : String) : Bool :=
  ["item/commandExecution/requestApproval", "item/fileChange/requestApproval",
    "execCommandApproval", "applyPatchApproval"].contains method

/-- `turbo_codex_handle_server_request`. -/
def handleServerRequest (client : Client) (id : Json) (method : String) (params : Option Json) :
    Status × Client :=
  match config.serverRequest with
  | some serverRequest =>
      match serverRequest method params with
      | some result => sendResult config client id result
      | none => sendFailure config client id (-32000) "TurboAgent rejected the server request"
  | none =>
      if isApprovalMethod method then
        sendResult config client id (.object [("decision", .string "decline")])
      else sendFailure config client id (-32601) "Method not found"

/-- What `turbo_codex_capture_notification` does with `item/agentMessage/delta`. -/
def captureDelta (client : Client) (params : Json) : Client :=
  match client.captureThreadId, params.getString "threadId" with
  | some captured, some threadId =>
      if captured = threadId ∧
          (client.captureTurnId = none ∨ params.getString "turnId" = client.captureTurnId) then
        match params.getString "delta" with
        | none => client
        | some delta =>
            if config.maxMessageBytes - client.capturedText.utf8ByteSize < delta.utf8ByteSize then
              setError { client with captureError := .emsgsize }
                "Codex agent message exceeds max_message_bytes"
            else { client with capturedText := client.capturedText ++ delta }
      else client
  | _, _ => client

/-- What `turbo_codex_capture_notification` does with `turn/completed`. -/
def captureCompleted (client : Client) (params : Json) : Client :=
  match params.field "turn" with
  | none => client
  | some turn =>
      if !turn.isObject then client
      else
        match client.captureThreadId, params.getString "threadId", turn.getString "id" with
        | some captured, some threadId, some turnId =>
            if captured = threadId ∧
                (client.captureTurnId = none ∨ client.captureTurnId = some turnId) then
              { client with completedTurn := some turn }
            else client
        | _, _, _ => client

/-- `turbo_codex_capture_notification`. -/
def captureNotification (client : Client) (method : String) (params : Option Json) : Client :=
  match params with
  | none => client
  | some params =>
      if !params.isObject then client
      else if method = "item/agentMessage/delta" then captureDelta config client params
      else if method = "turn/completed" then captureCompleted client params
      else client

/-- The end of `turbo_codex_dispatch_incoming`: a response. -/
def dispatchResponse (client : Client) (message : Json) (expectedId : Option String) :
    Except Status (Option Json) × Client :=
  if expectedId = none ∨ message.getString "id" ≠ expectedId then
    (.error .eproto, setError client "unexpected Codex response id")
  else
    match message.field "error" with
    | some error =>
        (.error .eio, setError client ((error.getString "message").getD "Codex request failed"))
    | none =>
        match message.field "result" with
        | none =>
            (.error .eproto,
              setError client "Codex response contains neither result nor error")
        | some result => (.ok (some result), client)

/-- `turbo_codex_dispatch_incoming`: the result of the response that was awaited. -/
def dispatchIncoming (client : Client) (message : Json) (expectedId : Option String) :
    Except Status (Option Json) × Client :=
  if !message.isObject then (.error .eproto, client)
  else
    match message.getString "method" with
    | none => dispatchResponse client message expectedId
    | some method =>
        match message.field "id" with
        | none => (.ok none, captureNotification config client method (message.field "params"))
        | some id =>
            let (status, client) :=
              handleServerRequest config client id method (message.field "params")
            if status = .ok then (.ok none, client) else (.error status, client)

/-- `turbo_codex_read_message`. -/
def readMessage (client : Client) : Read → Except Status Json × Client
  | .failed status =>
      if status = .ok then (.error .eproto, client)
      else if status = .etimedout then (.error status, client)
      else (.error status, setError client "Codex transport read failed")
  | .frame frame =>
      if frame.length = 0 ∨ config.maxMessageBytes < frame.length ∨ frame.broken then
        (.error (if config.maxMessageBytes < frame.length then .emsgsize else .eproto),
          setError client "invalid or oversized Codex JSONL frame")
      else
        match frame.document with
        | none => (.error .eproto, setError client "invalid JSON from Codex app-server")
        | some message => (.ok message, client)

/-- The loop of `turbo_codex_client_request`. -/
def awaitResponse (id : String) : List Read → Client → Except Status Json × Client × List Read
  | [], client => (.error .etimedout, client, [])
  | read :: reads, client =>
      match readMessage config client read with
      | (.error status, client) => (.error status, client, reads)
      | (.ok message, client) =>
          match dispatchIncoming config client message (some id) with
          | (.error status, client) => (.error status, client, reads)
          | (.ok (some result), client) => (.ok result, client, reads)
          | (.ok none, client) => awaitResponse id reads client

/-- `turbo_codex_client_request`. -/
def request (client : Client) (method : String) (params : Json) (reads : List Read) :
    Except Status Json × Client × List Read :=
  if client.closed then (.error .einval, client, reads)
  else if !client.initialized ∧ method ≠ "initialize" then (.error .ebusy, client, reads)
  else if client.nextRequestId = 18446744073709551615 then (.error .erange, client, reads)
  else
    let id := "turbo-" ++ toString client.nextRequestId
    let client := { client with nextRequestId := client.nextRequestId + 1 }
    match sendJson config client
      (.object [("method", .string method), ("id", .string id), ("params", params)]) with
    | (.ok, client) => awaitResponse config id reads client
    | (status, client) => (.error status, client, reads)

/-- `turbo_codex_client_pump`. -/
def pump (client : Client) (read : Read) : Status × Client :=
  if !client.initialized ∨ client.closed then (.einval, client)
  else
    match readMessage config client read with
    | (.error status, client) => (status, client)
    | (.ok message, client) =>
        match dispatchIncoming config client message none with
        | (.error status, client) => (status, client)
        | (.ok _, client) => (.ok, client)

/-! ## Running a turn -/

/-- `turbo_codex_client_initialize`. -/
def clientInitialize (client : Client) (reads : List Read) : Status × Client × List Read :=
  if client.closed then (.einval, client, reads)
  else
    let params : Json := .object [
      ("clientInfo", .object [("name", .string config.clientName),
        ("title", .string config.clientTitle), ("version", .string config.clientVersion)]),
      ("capabilities", .object [("experimentalApi", .bool config.experimentalApi)])]
    match request config client "initialize" params reads with
    | (.error status, client, reads) => (status, client, reads)
    | (.ok _, client, reads) =>
        match sendNotification config { client with initialized := true } "initialized"
          (.object []) with
        | (.ok, client) => (.ok, client, reads)
        | (status, client) => (status, { client with initialized := false }, reads)

/-- `turbo_codex_run_options_t`. -/
structure RunOptions where
  (threadId model cwd sandbox approvalPolicy : Option String)
  ephemeralThread : Bool
  timeoutMs : Nat
  deriving DecidableEq

/-- `turbo_codex_run_options_init`. -/
def runOptionsInit : RunOptions where
  threadId := none
  model := none
  cwd := none
  sandbox := some "workspace-write"
  approvalPolicy := some "on-request"
  ephemeralThread := true
  timeoutMs := 30 * 60 * 1000

/-- A text field that is left out when it is absent or empty. -/
def optionalField (key : String) (text : Option String) : List (String × Json) :=
  match text with
  | none => []
  | some text => if text = "" then [] else [(key, .string text)]

/-- The method and the parameters of the request for the thread. -/
def threadRequest (options : RunOptions) : String × Json :=
  match options.threadId with
  | some threadId =>
      if threadId = "" then ("thread/start", startParams options)
      else ("thread/resume", .object [("threadId", .string threadId)])
  | none => ("thread/start", startParams options)
where
  /-- Parameters of a new thread. -/
  startParams (options : RunOptions) : Json :=
    .object (optionalField "model" options.model ++ optionalField "cwd" options.cwd ++
      optionalField "sandbox" options.sandbox ++
      optionalField "approvalPolicy" options.approvalPolicy ++
      [("ephemeral", .bool options.ephemeralThread)])

def idIn (result : Json) (key : String) : Option String :=
  match (result.field key).bind fun value => value.getString "id" with
  | none => none
  | some id => if id = "" then none else some id

/-- The part of `turbo_codex_client_run_text` up to the id of the thread. -/
def openThread (client : Client) (options : RunOptions) (reads : List Read) :
    Except Status String × Client × List Read :=
  match if client.initialized then (.ok, client, reads) else clientInitialize config client reads with
  | (.ok, client, reads) =>
      let (method, params) := threadRequest options
      match request config client method params reads with
      | (.error status, client, reads) => (.error status, client, reads)
      | (.ok result, client, reads) =>
          match idIn result "thread" with
          | none =>
              (.error .eproto, setError client "Codex thread response has no thread id", reads)
          | some threadId => (.ok threadId, client, reads)
  | (status, client, reads) => (.error status, client, reads)

def resetCapture (client : Client) (threadId : String) : Client :=
  { client with
    captureThreadId := some threadId
    captureTurnId := none
    capturedText := ""
    completedTurn := none
    captureError := .ok }

/-- The parameters of `turn/start`. -/
def turnParams (threadId prompt : String) : Json :=
  .object [("threadId", .string threadId),
    ("input", .array [.object [("type", .string "text"), ("text", .string prompt)]])]

/-- The id of the turn is known: a completion of another turn is dropped. -/
def adoptTurn (client : Client) (turnId : String) : Client :=
  { client with
    captureTurnId := some turnId
    completedTurn := client.completedTurn.filter fun turn => turn.getString "id" == some turnId }

/-- The loop of `turbo_codex_client_run_text`. -/
def awaitTurn : List Read → Client → Except Status Json × Client × List Read
  | [], client =>
      match client.completedTurn with
      | some turn => (.ok turn, client, [])
      | none => (.error .etimedout, client, [])
  | read :: reads, client =>
      match client.completedTurn with
      | some turn => (.ok turn, client, read :: reads)
      | none =>
          match pump config client read with
          | (.ok, client) =>
              if client.captureError = .ok then awaitTurn reads client
              else (.error client.captureError, client, reads)
          | (status, client) => (.error status, client, reads)

/-- `turbo_codex_turn_status`. -/
def turnStatus (turn : Json) : Status :=
  match turn.getString "status" with
  | none => .eproto
  | some status =>
      if status = "completed" then .ok else if status = "interrupted" then .ecanceled else .eio

/-- What `turbo_codex_client_run_text` returns. -/
structure Outcome where
  (threadId turnId text : String)
  turn : Json
  deriving DecidableEq

/-- The part of `turbo_codex_client_run_text` from `turn/start` on. -/
def runTurn (client : Client) (threadId prompt : String) (reads : List Read) :
    Except Status Outcome × Client × List Read :=
  match request config (resetCapture client threadId) "turn/start" (turnParams threadId prompt)
    reads with
  | (.error status, client, reads) => (.error status, client, reads)
  | (.ok result, client, reads) =>
      if client.captureError ≠ .ok then (.error client.captureError, client, reads)
      else
        match idIn result "turn" with
        | none => (.error .eproto, setError client "Codex turn response has no turn id", reads)
        | some turnId =>
            match awaitTurn config reads (adoptTurn client turnId) with
            | (.error status, client, reads) => (.error status, client, reads)
            | (.ok turn, client, reads) =>
                if turnStatus turn = .ok then
                  (.ok ⟨threadId, turnId, client.capturedText, turn⟩, client, reads)
                else
                  (.error (turnStatus turn),
                    setError client "Codex turn did not complete successfully", reads)

def runThread (client : Client) (prompt : String) (options : RunOptions) (reads : List Read) :
    Except Status Outcome × Client × List Read :=
  match openThread config client options reads with
  | (.error status, client, reads) => (.error status, client, reads)
  | (.ok threadId, client, reads) => runTurn config client threadId prompt reads

/-- `turbo_codex_client_run_text`. -/
def runText (client : Client) (prompt : String) (options : RunOptions) (reads : List Read) :
    Except Status Outcome × Client × List Read :=
  if prompt = "" ∨ options.timeoutMs = 0 then (.error .einval, client, reads)
  else
    let (outcome, client, reads) := runThread config client prompt options reads
    (outcome, { client with captureThreadId := none, captureTurnId := none }, reads)

end

end TurboAgent.Codex
