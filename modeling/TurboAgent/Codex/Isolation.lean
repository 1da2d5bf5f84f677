import TurboAgent.Codex.Model

/-!
# Isolation of a Codex turn

The text of a turn is made of the deltas that name it, up to its completion.  The client knows
the turn only from the response to `turn/start`, and captures what its thread sends before as if
it belonged to the turn.  It returns the text and the completion of the turn when the thread
sends nothing of other turns before the response, and nothing after a completion of the turn.
-/

namespace TurboAgent.Codex

/-! ## Messages -/

def notification (method : String) (message : Json) : Option Json :=
  if message.getString "method" = some method ∧ message.field "id" = none then
    (message.field "params").filter Json.isObject
  else none

def deltaIn (thread : String) (message : Json) : Option String :=
  match notification "item/agentMessage/delta" message with
  | none => none
  | some params =>
      if params.getString "threadId" = some thread then params.getString "delta" else none

def deltaOf (thread turn : String) (message : Json) : Option String :=
  match notification "item/agentMessage/delta" message with
  | none => none
  | some params =>
      if params.getString "threadId" = some thread ∧ params.getString "turnId" = some turn then
        params.getString "delta"
      else none

def completionIn (thread : String) (message : Json) : Option (String × Json) :=
  match notification "turn/completed" message with
  | none => none
  | some params =>
      match params.field "turn" with
      | none => none
      | some turn =>
          if turn.isObject ∧ params.getString "threadId" = some thread then
            (turn.getString "id").map fun id => (id, turn)
          else none

def completionOf (thread turn : String) (message : Json) : Option Json :=
  ((completionIn thread message).filter fun completed => completed.1 == turn).map Prod.snd

/-- The deltas of a turn up to its completion. -/
def deltasOf (thread turn : String) : List Json → List String
  | [] => []
  | message :: messages =>
      match completionOf thread turn message with
      | some _ => []
      | none => (deltaOf thread turn message).toList ++ deltasOf thread turn messages

def textOf (thread turn : String) (messages : List Json) : String :=
  String.join (deltasOf thread turn messages)

def completedBy (thread turn : String) (messages : List Json) : Option Json :=
  messages.findSome? (completionOf thread turn)

/-- Messages that a thread sends for one turn: until the turn is completed the deltas of the
thread are those of the turn, and then there are no deltas and no completions. -/
def Separate (thread turn : String) : List Json → Prop
  | [] => True
  | message :: messages =>
      match completionOf thread turn message with
      | some _ => ∀ later ∈ messages,
          deltaIn thread later = none ∧ completionIn thread later = none
      | none => deltaIn thread message = deltaOf thread turn message ∧
          Separate thread turn messages

/-! ## Captures -/

/-- The delta that a client captures, before and after it knows the turn. -/
def hears (thread : String) (turn : Option String) (message : Json) : Option String :=
  match turn with
  | none => deltaIn thread message
  | some turn => deltaOf thread turn message

def ends (thread : String) (turn : Option String) (message : Json) : Option Json :=
  match turn with
  | none => (completionIn thread message).map Prod.snd
  | some turn => completionOf thread turn message

variable {config : Config} {client client' : Client} {thread : String} {turn : Option String}
  {heard : List String} {ended : Option Json}

structure Captured (config : Config) (client : Client) (thread : String) (turn : Option String)
    (heard : List String) (ended : Option Json) : Prop where
  thread : client.captureThreadId = some thread
  turn : client.captureTurnId = turn
  completed : client.completedTurn = ended
  text : (client.captureError = .ok ∧ client.capturedText = String.join heard ∧
      (String.join heard).utf8ByteSize ≤ config.maxMessageBytes) ∨
    (client.captureError = .emsgsize ∧
      config.maxMessageBytes < (String.join heard).utf8ByteSize)

theorem Captured.congr (captured : Captured config client thread turn heard ended)
    (threads : client'.captureThreadId = client.captureThreadId)
    (turns : client'.captureTurnId = client.captureTurnId)
    (texts : client'.capturedText = client.capturedText)
    (completed : client'.completedTurn = client.completedTurn)
    (error : client'.captureError = client.captureError) :
    Captured config client' thread turn heard ended where
  thread := threads.trans captured.thread
  turn := turns.trans captured.turn
  completed := completed.trans captured.completed
  text := by
    rw [texts, error]
    exact captured.text

theorem join_concat (texts : List String) (text : String) :
    String.join (texts ++ [text]) = String.join texts ++ text := by
  rw [String.join_append]
  simp [String.join]

theorem Captured.sendJson (captured : Captured config client thread turn heard ended)
    (message : Json) :
    Captured config (sendJson config client message).2 thread turn heard ended := by
  rw [Codex.sendJson]
  split
  next => exact captured
  split
  next => exact captured.congr rfl rfl rfl rfl rfl
  dsimp only
  split
  next => exact captured.congr rfl rfl rfl rfl rfl
  next => exact captured.congr rfl rfl rfl rfl rfl

theorem Captured.handleServerRequest (captured : Captured config client thread turn heard ended)
    (id : Json) (method : String) (params : Option Json) :
    Captured config (handleServerRequest config client id method params).2 thread turn heard
      ended := by
  rw [Codex.handleServerRequest]
  split
  next =>
    split
    next => exact captured.sendJson _
    next => exact captured.sendJson _
  next =>
    split
    next => exact captured.sendJson _
    next => exact captured.sendJson _

variable {method : String} {message params : Json}

theorem notification_eq (isMethod : message.getString "method" = some method)
    (noId : message.field "id" = none) (given : message.field "params" = some params)
    (object : params.isObject = true) : notification method message = some params := by
  rw [notification, if_pos ⟨isMethod, noId⟩, given, Option.filter_some_pos object]

theorem notification_other {other : String} (isMethod : message.getString "method" = some method)
    (differs : method ≠ other) : notification other message = none := by
  rw [notification, if_neg]
  rw [isMethod]
  intro same
  exact differs (Option.some.inj same.1)

theorem notification_eq_none (bare : (message.field "params").filter Json.isObject = none) :
    notification method message = none := by
  rw [notification, bare, ite_self]

theorem Captured.unheard (captured : Captured config client thread turn heard ended)
    (noDelta : notification "item/agentMessage/delta" message = none)
    (noCompletion : notification "turn/completed" message = none) :
    Captured config client thread turn (heard ++ (hears thread turn message).toList)
      ((ends thread turn message).or ended) := by
  have silent : hears thread turn message = none := by
    cases turn <;> simp [hears, deltaIn, deltaOf, noDelta]
  have unended : ends thread turn message = none := by
    cases turn <;> simp [ends, completionOf, completionIn, noCompletion]
  rw [silent, unended]
  simpa using captured

theorem Captured.hear (captured : Captured config client thread turn heard ended) (delta : String) :
    Captured config
      (if config.maxMessageBytes - client.capturedText.utf8ByteSize < delta.utf8ByteSize then
        setError { client with captureError := .emsgsize }
          "Codex agent message exceeds max_message_bytes"
      else { client with capturedText := client.capturedText ++ delta }) thread turn
      (heard ++ [delta]) ended := by
  have size : (String.join (heard ++ [delta])).utf8ByteSize =
      (String.join heard).utf8ByteSize + delta.utf8ByteSize := by
    rw [join_concat, String.utf8ByteSize_append]
  split
  next long =>
    refine ⟨captured.thread, captured.turn, captured.completed, .inr ⟨rfl, ?_⟩⟩
    rw [size]
    rcases captured.text with ⟨-, text, fits⟩ | ⟨-, tooLong⟩
    · rw [text] at long
      omega
    · omega
  next short =>
    refine ⟨captured.thread, captured.turn, captured.completed, ?_⟩
    rcases captured.text with ⟨ok, text, fits⟩ | ⟨error, tooLong⟩
    · refine .inl ⟨ok, ?_, ?_⟩
      · rw [join_concat, ← text]
      · rw [text] at short
        omega
    · exact .inr ⟨error, by omega⟩

theorem captureDelta_eq {threadId : String} (isThread : client.captureThreadId = some thread)
    (sender : params.getString "threadId" = some threadId) :
    captureDelta config client params =
      if thread = threadId ∧
          (client.captureTurnId = none ∨ params.getString "turnId" = client.captureTurnId) then
        match params.getString "delta" with
        | none => client
        | some delta =>
            if config.maxMessageBytes - client.capturedText.utf8ByteSize < delta.utf8ByteSize then
              setError { client with captureError := .emsgsize }
                "Codex agent message exceeds max_message_bytes"
            else { client with capturedText := client.capturedText ++ delta }
      else client := by
  unfold captureDelta
  split
  next captured threadId' isCaptured isSender =>
    rw [isThread] at isCaptured
    rw [sender] at isSender
    cases isCaptured
    cases isSender
    rfl
  next absent => exact absurd sender (absent _ _ isThread)

variable {completed : Json} {turnId : String}

theorem captureCompleted_eq {threadId : String} (isThread : client.captureThreadId = some thread)
    (given : params.field "turn" = some completed) (object : completed.isObject = true)
    (sender : params.getString "threadId" = some threadId)
    (named : completed.getString "id" = some turnId) :
    captureCompleted client params =
      if thread = threadId ∧
          (client.captureTurnId = none ∨ client.captureTurnId = some turnId) then
        { client with completedTurn := some completed }
      else client := by
  rw [captureCompleted, given]
  dsimp only
  rw [object, Bool.not_true, if_neg Bool.false_ne_true]
  split
  next captured threadId' turnId' isCaptured isSender isNamed =>
    rw [isThread] at isCaptured
    rw [sender] at isSender
    rw [named] at isNamed
    cases isCaptured
    cases isSender
    cases isNamed
    rfl
  next absent => exact absurd named (absent _ _ _ isThread sender)

theorem Captured.captureDelta (captured : Captured config client thread turn heard ended)
    (delta : notification "item/agentMessage/delta" message = some params)
    (noCompletion : notification "turn/completed" message = none) :
    Captured config (captureDelta config client params) thread turn
      (heard ++ (hears thread turn message).toList) ((ends thread turn message).or ended) := by
  have unended : ends thread turn message = none := by
    cases turn <;> simp [ends, completionOf, completionIn, noCompletion]
  rw [unended, Option.none_or]
  cases sender : params.getString "threadId" with
  | none =>
      have silent : hears thread turn message = none := by
        cases turn <;> simp [hears, deltaIn, deltaOf, delta, sender]
      rw [silent]
      simpa [Codex.captureDelta, sender] using captured
  | some threadId =>
      have isHeard : hears thread turn message =
          if thread = threadId ∧ (client.captureTurnId = none ∨
            params.getString "turnId" = client.captureTurnId) then params.getString "delta"
          else none := by
        rw [captured.turn]
        cases turn with
        | none => simp [hears, deltaIn, delta, sender, eq_comm]
        | some turn => simp [hears, deltaOf, delta, sender, eq_comm]
      rw [isHeard, captureDelta_eq captured.thread sender]
      split
      next =>
        cases params.getString "delta" with
        | none => simpa using captured
        | some text => exact captured.hear text
      next => simpa using captured

theorem Captured.captureCompleted (captured : Captured config client thread turn heard ended)
    (noDelta : notification "item/agentMessage/delta" message = none)
    (completion : notification "turn/completed" message = some params) :
    Captured config (captureCompleted client params) thread turn
      (heard ++ (hears thread turn message).toList) ((ends thread turn message).or ended) := by
  have silent : hears thread turn message = none := by
    cases turn <;> simp [hears, deltaIn, deltaOf, noDelta]
  have kept : (ends thread turn message = none) → Captured config client thread turn heard
      ((ends thread turn message).or ended) := by
    intro none
    rw [none]
    exact captured
  rw [silent, Option.toList_none, List.append_nil]
  cases given : params.field "turn" with
  | none =>
      rw [Codex.captureCompleted, given]
      apply kept
      cases turn <;> simp [ends, completionOf, completionIn, completion, given]
  | some completed =>
      cases object : completed.isObject with
      | false =>
          rw [Codex.captureCompleted, given]
          dsimp only
          rw [object, Bool.not_false, if_pos rfl]
          apply kept
          cases turn <;> simp [ends, completionOf, completionIn, completion, given, object]
      | true =>
          cases sender : params.getString "threadId" with
          | none =>
              have same : Codex.captureCompleted client params = client := by
                simp [Codex.captureCompleted, given, sender]
              rw [same]
              apply kept
              cases turn <;> simp [ends, completionOf, completionIn, completion, given, sender]
          | some threadId =>
              cases named : completed.getString "id" with
              | none =>
                  have same : Codex.captureCompleted client params = client := by
                    simp [Codex.captureCompleted, given, sender, named]
                  rw [same]
                  apply kept
                  cases turn <;>
                    simp [ends, completionOf, completionIn, completion, given, named]
              | some turnId =>
                  have isEnd : ends thread turn message =
                      if thread = threadId ∧ (client.captureTurnId = none ∨
                        client.captureTurnId = some turnId) then some completed else none := by
                    rw [captured.turn]
                    by_cases same : thread = threadId
                    · cases turn with
                      | none =>
                          simp [ends, completionIn, completion, given, object, sender, named, same]
                      | some turn =>
                          by_cases own : turn = turnId
                          · simp [ends, completionOf, completionIn, completion, given, object,
                              sender, named, same, own]
                          · simp [ends, completionOf, completionIn, completion, given, object,
                              sender, named, same, own, Ne.symm own]
                    · cases turn <;> simp [ends, completionOf, completionIn, completion, given,
                        object, sender, same, Ne.symm same]
                  rw [isEnd, captureCompleted_eq captured.thread given object sender named]
                  split
                  next => exact ⟨captured.thread, captured.turn, rfl, captured.text⟩
                  next => exact captured

theorem Captured.captureNotification (captured : Captured config client thread turn heard ended)
    (isMethod : message.getString "method" = some method) (noId : message.field "id" = none) :
    Captured config (captureNotification config client method (message.field "params")) thread
      turn (heard ++ (hears thread turn message).toList)
      ((ends thread turn message).or ended) := by
  unfold Codex.captureNotification
  cases given : message.field "params" with
  | none =>
      exact captured.unheard (notification_eq_none (by rw [given]; rfl))
        (notification_eq_none (by rw [given]; rfl))
  | some params =>
      dsimp only
      cases object : params.isObject with
      | false =>
          have bare : (message.field "params").filter Json.isObject = none := by
            rw [given, Option.filter_some_neg object]
          exact captured.unheard (notification_eq_none bare) (notification_eq_none bare)
      | true =>
          simp only [Bool.not_true, Bool.false_eq_true, if_false]
          split
          next isDelta =>
            rw [isDelta] at isMethod
            exact captured.captureDelta (notification_eq isMethod noId given object)
              (notification_other isMethod (by decide))
          next noDelta =>
            split
            next isCompletion =>
              rw [isCompletion] at isMethod
              exact captured.captureCompleted (notification_other isMethod (by decide))
                (notification_eq isMethod noId given object)
            next noCompletion =>
              exact captured.unheard (notification_other isMethod noDelta)
                (notification_other isMethod noCompletion)

/-! ## Reading -/

def messageOf (config : Config) : Read → Option Json
  | .failed _ => none
  | .frame frame =>
      if frame.length = 0 ∨ config.maxMessageBytes < frame.length ∨ frame.broken then none
      else frame.document

def Gives (config : Config) (reads : List Read) (messages : List Json) : Prop :=
  reads.map (messageOf config) = messages.map some

theorem readMessage_ok {read : Read} (ok : readMessage config client read = (.ok message, client')) :
    client' = client ∧ messageOf config read = some message := by
  cases read with
  | failed status =>
      rw [readMessage] at ok
      split at ok
      next => cases ok
      split at ok
      next => cases ok
      next => cases ok
  | frame frame =>
      rw [readMessage] at ok
      split at ok
      next => cases ok
      next fits =>
        cases document : frame.document with
        | none =>
            rw [document] at ok
            cases ok
        | some found =>
            rw [document] at ok
            cases ok
            rw [messageOf, if_neg fits, document]
            exact ⟨rfl, rfl⟩

theorem readMessage_ne_ok (read : Read) :
    readMessage config client read ≠ (.error .ok, client') := by
  intro failed
  cases read with
  | failed status =>
      rw [readMessage] at failed
      split at failed
      next => cases failed
      next other =>
        split at failed
        next => cases failed; exact other rfl
        next => cases failed; exact other rfl
  | frame frame =>
      rw [readMessage] at failed
      split at failed
      next =>
        have status := congrArg Prod.fst failed
        split at status <;> cases status
      split at failed
      next => cases failed
      next => cases failed

variable {expected : Option String}

theorem dispatchIncoming_ne_ok :
    dispatchIncoming config client message expected ≠ (.error .ok, client') := by
  intro failed
  rw [dispatchIncoming] at failed
  split at failed
  next => cases failed
  split at failed
  next =>
    rw [dispatchResponse] at failed
    split at failed
    next => cases failed
    split at failed
    next => cases failed
    split at failed
    next => cases failed
    next => cases failed
  next =>
    split at failed
    next => cases failed
    dsimp only at failed
    split at failed
    next => cases failed
    next other =>
      have status := Except.error.inj (congrArg Prod.fst failed)
      exact other status

variable {result : Json}

theorem dispatchIncoming_unexpected :
    dispatchIncoming config client message none ≠ (.ok (some result), client') := by
  intro answered
  rw [dispatchIncoming] at answered
  split at answered
  next => cases answered
  split at answered
  next =>
    rw [dispatchResponse, if_pos (.inl rfl)] at answered
    cases answered
  split at answered
  next => cases answered
  dsimp only at answered
  split at answered
  next => cases answered
  next => cases answered

theorem Captured.dispatchIncoming (captured : Captured config client thread turn heard ended)
    (handled : dispatchIncoming config client message expected = (.ok none, client')) :
    Captured config client' thread turn (heard ++ (hears thread turn message).toList)
      ((ends thread turn message).or ended) ∧ message.getString "method" ≠ none := by
  rw [Codex.dispatchIncoming] at handled
  split at handled
  next => cases handled
  cases isMethod : message.getString "method" with
  | none =>
      rw [isMethod] at handled
      dsimp only at handled
      rw [dispatchResponse] at handled
      split at handled
      next => cases handled
      split at handled
      next => cases handled
      split at handled
      next => cases handled
      next => cases handled
  | some method =>
      rw [isMethod] at handled
      refine ⟨?_, by simp⟩
      cases named : message.field "id" with
      | none =>
          rw [named] at handled
          cases handled
          exact captured.captureNotification isMethod named
      | some id =>
          rw [named] at handled
          dsimp only at handled
          split at handled
          next =>
            cases handled
            have silent : ∀ other, notification other message = none := by
              intro other
              rw [notification, named]
              simp
            exact (captured.handleServerRequest id method _).unheard (silent _) (silent _)
          next => cases handled

theorem dispatchIncoming_response
    (answered : dispatchIncoming config client message expected = (.ok (some result), client')) :
    client' = client ∧ message.getString "method" = none ∧
      message.field "result" = some result := by
  rw [dispatchIncoming] at answered
  split at answered
  next => cases answered
  cases isMethod : message.getString "method" with
  | none =>
      rw [isMethod] at answered
      dsimp only at answered
      rw [dispatchResponse] at answered
      split at answered
      next => cases answered
      split at answered
      next => cases answered
      split at answered
      next => cases answered
      next found isResult =>
        cases answered
        exact ⟨rfl, rfl, isResult⟩
  | some method =>
      rw [isMethod] at answered
      cases named : message.field "id" with
      | none =>
          rw [named] at answered
          cases answered
      | some id =>
          rw [named] at answered
          dsimp only at answered
          split at answered
          next => cases answered
          next => cases answered

/-- What a client captures of messages before it knows the turn. -/
def heardEarly (thread : String) (messages : List Json) : List String :=
  messages.flatMap fun message => (deltaIn thread message).toList

def endedEarly (thread : String) (last : Option Json) (messages : List Json) : Option Json :=
  messages.foldl (fun last message => (ends thread none message).or last) last

variable {rest : List Read}

theorem Captured.awaitResponse {id : String} :
    ∀ (reads : List Read) (client : Client) (heard : List String) (ended : Option Json),
      Captured config client thread none heard ended →
      awaitResponse config id reads client = (.ok result, client', rest) →
      ∃ earlyReads early responseRead response, reads = earlyReads ++ responseRead :: rest ∧
        Gives config earlyReads early ∧ messageOf config responseRead = some response ∧
        (∀ message ∈ early, message.getString "method" ≠ none) ∧
        response.getString "method" = none ∧ response.field "result" = some result ∧
        Captured config client' thread none (heard ++ heardEarly thread early)
          (endedEarly thread ended early) := by
  intro reads
  induction reads with
  | nil =>
      intro client heard ended _ answered
      cases answered
  | cons read reads ih =>
      intro client heard ended captured answered
      rw [Codex.awaitResponse] at answered
      split at answered
      next => cases answered
      next message middle isRead =>
        obtain ⟨rfl, isMessage⟩ := readMessage_ok isRead
        split at answered
        next => cases answered
        next found after dispatched =>
          cases answered
          obtain ⟨rfl, noMethod, isResult⟩ := dispatchIncoming_response dispatched
          refine ⟨[], [], read, message, rfl, rfl, isMessage, by simp, noMethod, isResult, ?_⟩
          simpa [heardEarly, endedEarly] using captured
        next after dispatched =>
          obtain ⟨next, isMethod⟩ := captured.dispatchIncoming dispatched
          obtain ⟨earlyReads, early, responseRead, response, split, gives, isResponse, methods,
            noMethod, isResult, final⟩ := ih after _ _ next answered
          refine ⟨read :: earlyReads, message :: early, responseRead, response, ?_, ?_, isResponse,
            ?_, noMethod, isResult, ?_⟩
          · rw [split, List.cons_append]
          · rw [Gives, List.map_cons, List.map_cons, isMessage, gives]
          · exact List.forall_mem_cons.mpr ⟨isMethod, methods⟩
          · rw [List.append_assoc] at final
            exact final

theorem Captured.request (captured : Captured config client thread none heard ended)
    {reads : List Read}
    (answered : request config client method params reads = (.ok result, client', rest)) :
    ∃ earlyReads early responseRead response, reads = earlyReads ++ responseRead :: rest ∧
      Gives config earlyReads early ∧ messageOf config responseRead = some response ∧
      (∀ message ∈ early, message.getString "method" ≠ none) ∧
      response.getString "method" = none ∧ response.field "result" = some result ∧
      Captured config client' thread none (heard ++ heardEarly thread early)
        (endedEarly thread ended early) := by
  rw [Codex.request] at answered
  split at answered
  next => cases answered
  split at answered
  next => cases answered
  split at answered
  next => cases answered
  dsimp only at answered
  have numbered : Captured config
      { client with nextRequestId := client.nextRequestId + 1 } thread none heard ended :=
    captured.congr rfl rfl rfl rfl rfl
  split at answered
  next sent isSent =>
    have sending := numbered.sendJson (.object [("method", .string method),
      ("id", .string ("turbo-" ++ toString client.nextRequestId)), ("params", params)])
    rw [isSent] at sending
    exact Captured.awaitResponse reads sent heard ended sending answered
  next => cases answered

theorem Captured.pump (captured : Captured config client thread (some turnId) heard none)
    {read : Read} (pumped : pump config client read = (.ok, client')) :
    ∃ message, messageOf config read = some message ∧
      Captured config client' thread (some turnId)
        (heard ++ (hears thread (some turnId) message).toList)
        (completionOf thread turnId message) := by
  rw [Codex.pump] at pumped
  split at pumped
  next => cases pumped
  split at pumped
  next status after failed =>
    cases pumped
    exact absurd failed (readMessage_ne_ok _)
  next message after isRead =>
    obtain ⟨rfl, isMessage⟩ := readMessage_ok isRead
    split at pumped
    next status after failed =>
      cases pumped
      exact absurd failed dispatchIncoming_ne_ok
    next result after dispatched =>
      cases pumped
      cases result with
      | none =>
          have next := (captured.dispatchIncoming dispatched).1
          rw [Option.or_none] at next
          exact ⟨message, isMessage, next⟩
      | some result => exact absurd dispatched dispatchIncoming_unexpected

theorem notification_method (found : notification method message = some params) :
    message.getString "method" = some method := by
  rw [notification] at found
  split at found
  next is => exact is.1
  next => cases found

theorem not_delta_of_completion (completed : completionIn thread message ≠ none) :
    notification "item/agentMessage/delta" message = none := by
  rw [completionIn] at completed
  split at completed
  next => exact absurd rfl completed
  next params found => exact notification_other (notification_method found) (by decide)

theorem completionIn_of_completionOf (found : completionOf thread turnId message = some completed) :
    completionIn thread message = some (turnId, completed) := by
  rw [completionOf, Option.map_eq_some_iff] at found
  obtain ⟨⟨id, turn⟩, isFound, rfl⟩ := found
  rw [Option.filter_eq_some_iff] at isFound
  have same : id = turnId := beq_iff_eq.mp isFound.2
  rw [isFound.1, same]

theorem completionIn_id (found : completionIn thread message = some (turnId, completed)) :
    completed.getString "id" = some turnId := by
  rw [completionIn] at found
  split at found
  next => cases found
  split at found
  next => cases found
  next turn _ =>
    split at found
    next =>
      obtain ⟨id, named, same⟩ := Option.map_eq_some_iff.mp found
      cases same
      exact named
    next => cases found

theorem Captured.awaitTurn :
    ∀ (reads : List Read) (client : Client) (heard : List String) (ended : Option Json),
      Captured config client thread (some turnId) heard ended → client.captureError = .ok →
      awaitTurn config reads client = (.ok completed, client', rest) →
      ∃ laterReads later, reads = laterReads ++ rest ∧ Gives config laterReads later ∧
        ((ended = some completed ∧ later = []) ∨
          (ended = none ∧ completedBy thread turnId later = some completed)) ∧
        client'.capturedText = String.join (heard ++ deltasOf thread turnId later) := by
  intro reads
  induction reads with
  | nil =>
      intro client heard ended captured ok waited
      rw [Codex.awaitTurn, captured.completed] at waited
      cases ended with
      | none => cases waited
      | some turn =>
          cases waited
          refine ⟨[], [], rfl, rfl, .inl ⟨rfl, rfl⟩, ?_⟩
          rw [deltasOf, List.append_nil]
          rcases captured.text with ⟨-, text, -⟩ | ⟨error, -⟩
          · exact text
          · rw [ok] at error
            cases error
  | cons read reads ih =>
      intro client heard ended captured ok waited
      rw [Codex.awaitTurn, captured.completed] at waited
      cases ended with
      | some turn =>
          cases waited
          refine ⟨[], [], rfl, rfl, .inl ⟨rfl, rfl⟩, ?_⟩
          rw [deltasOf, List.append_nil]
          rcases captured.text with ⟨-, text, -⟩ | ⟨error, -⟩
          · exact text
          · rw [ok] at error
            cases error
      | none =>
          dsimp only at waited
          split at waited
          next after pumped =>
            obtain ⟨message, isMessage, next⟩ := captured.pump pumped
            split at waited
            next okAfter =>
              obtain ⟨laterReads, later, split, gives, ends, text⟩ :=
                ih after _ _ next okAfter waited
              refine ⟨read :: laterReads, message :: later, ?_, ?_, .inr ⟨rfl, ?_⟩, ?_⟩
              · rw [split, List.cons_append]
              · rw [Gives, List.map_cons, List.map_cons, isMessage, gives]
              · rw [completedBy, List.findSome?_cons]
                rcases ends with ⟨isEnd, -⟩ | ⟨noEnd, found⟩
                · rw [isEnd]
                · rw [noEnd]
                  exact found
              · rw [text, List.append_assoc]
                congr 2
                rw [deltasOf]
                rcases ends with ⟨isEnd, none⟩ | ⟨noEnd, -⟩
                · rw [isEnd, none, deltasOf, List.append_nil]
                  have noDelta := not_delta_of_completion
                    (by rw [completionIn_of_completionOf isEnd]; simp)
                  simp [hears, deltaOf, noDelta]
                · rw [noEnd]
                  rfl
            next => cases waited
          next => cases waited

/-! ## Before the response -/

variable {messages : List Json}

theorem heardEarly_quiet (quiet : ∀ message ∈ messages, deltaIn thread message = none) :
    heardEarly thread messages = [] := by
  rw [heardEarly, List.flatMap_eq_nil_iff]
  intro message member
  rw [quiet message member]
  rfl

theorem endedEarly_quiet {last : Option Json}
    (quiet : ∀ message ∈ messages, completionIn thread message = none) :
    endedEarly thread last messages = last := by
  induction messages with
  | nil => rfl
  | cons message messages ih =>
      obtain ⟨first, others⟩ := List.forall_mem_cons.mp quiet
      have none : ends thread none message = none := by
        rw [ends, first]
        rfl
      rw [endedEarly, List.foldl_cons, none, Option.none_or]
      exact ih others

theorem Separate.captures :
    ∀ (messages : List Json) (last : Option Json), Separate thread turnId messages →
      last.filter (fun turn => turn.getString "id" == some turnId) = none →
      heardEarly thread messages = deltasOf thread turnId messages ∧
        (endedEarly thread last messages).filter
          (fun turn => turn.getString "id" == some turnId) =
          completedBy thread turnId messages := by
  intro messages
  induction messages with
  | nil => exact fun last _ other => ⟨rfl, other⟩
  | cons message messages ih =>
      intro last separate other
      rw [Separate] at separate
      have heard : heardEarly thread (message :: messages) =
          (deltaIn thread message).toList ++ heardEarly thread messages := List.flatMap_cons
      have ended : endedEarly thread last (message :: messages) =
          endedEarly thread ((ends thread none message).or last) messages := List.foldl_cons ..
      rw [heard, ended, deltasOf, completedBy, List.findSome?_cons]
      cases found : completionOf thread turnId message with
      | some completed =>
          rw [found] at separate
          have isCompletion := completionIn_of_completionOf found
          have noDelta : deltaIn thread message = none := by
            rw [deltaIn, not_delta_of_completion (by rw [isCompletion]; simp)]
          have isEnd : ends thread none message = some completed := by
            rw [ends, isCompletion]
            rfl
          have named := completionIn_id isCompletion
          rw [noDelta, heardEarly_quiet fun later member => (separate later member).1, isEnd,
            Option.some_or, endedEarly_quiet fun later member => (separate later member).2]
          refine ⟨rfl, Option.filter_some_pos ?_⟩
          rw [named, beq_self_eq_true]
      | none =>
          rw [found] at separate
          obtain ⟨sameDelta, rest⟩ := separate
          have others : ((ends thread none message).or last).filter
              (fun turn => turn.getString "id" == some turnId) = none := by
            cases completion : completionIn thread message with
            | none =>
                rw [ends, completion]
                exact other
            | some pair =>
                obtain ⟨id, turn⟩ := pair
                have differs : id ≠ turnId := by
                  rintro rfl
                  simp [completionOf, completion] at found
                have named := completionIn_id completion
                rw [ends, completion]
                refine Option.filter_some_neg ?_
                rw [named]
                simpa using differs
          obtain ⟨texts, completions⟩ := ih _ rest others
          rw [sameDelta, texts]
          exact ⟨rfl, completions⟩

theorem Gives.unique {reads : List Read} {others : List Json} (left : Gives config reads messages)
    (right : Gives config reads others) : messages = others :=
  List.map_injective_iff.mpr (Option.some_injective _) (left.symm.trans right)

variable {early : List Json}

/-- A turn that is completed among the messages is not completed by later ones. -/
theorem deltasOf_append {later : List Json} :
    deltasOf thread turnId (early ++ later) = deltasOf thread turnId early ++
      if completedBy thread turnId early = none then deltasOf thread turnId later else [] := by
  induction early with
  | nil => simp [deltasOf, completedBy]
  | cons message messages ih =>
      rw [List.cons_append, deltasOf, deltasOf, completedBy, List.findSome?_cons]
      cases completionOf thread turnId message with
      | some completed => simp
      | none =>
          dsimp only
          rw [ih, List.append_assoc]
          rfl

/-! ## Runs -/

section Runs

variable (config) (client) (prompt : String) (options : RunOptions) (reads : List Read)

/-- A run starts a turn and reads the response that names it: the messages before the response,
and the reads after it. -/
def Exchange (thread turnId : String) (early : List Json) (later : List Read) : Prop :=
  prompt ≠ "" ∧ options.timeoutMs ≠ 0 ∧
    ∃ opened started reads' earlyReads responseRead response result,
      openThread config client options reads = (.ok thread, opened, reads') ∧
      request config (resetCapture opened thread) "turn/start" (turnParams thread prompt) reads' =
        (.ok result, started, later) ∧
      reads' = earlyReads ++ responseRead :: later ∧ Gives config earlyReads early ∧
      messageOf config responseRead = some response ∧ response.field "result" = some result ∧
      idIn result "turn" = some turnId

/-- What a run returns for a turn that is completed before the response. -/
def settled (thread turnId : String) (early : List Json) (completed : Json) :
    Except Status Outcome :=
  if config.maxMessageBytes < (textOf thread turnId early).utf8ByteSize then .error .emsgsize
  else if turnStatus completed = .ok then
    .ok ⟨thread, turnId, textOf thread turnId early, completed⟩
  else .error (turnStatus completed)

/-- A run that succeeds returns the text and the first completion of its turn, and a run that
has read a completion before the response returns with it. -/
structure Isolated : Prop where
  succeeds : ∀ outcome client' rest,
    runText config client prompt options reads = (.ok outcome, client', rest) →
    ∃ early laterReads later,
      Exchange config client prompt options reads outcome.threadId outcome.turnId early
        (laterReads ++ rest) ∧ Gives config laterReads later ∧
      outcome.text = textOf outcome.threadId outcome.turnId (early ++ later) ∧
      completedBy outcome.threadId outcome.turnId (early ++ later) = some outcome.turn
  keeps : ∀ thread turnId early later completed,
    Exchange config client prompt options reads thread turnId early later →
    completedBy thread turnId early = some completed →
    (runText config client prompt options reads).1 =
      settled config thread turnId early completed

variable {config client prompt options reads}

theorem resetCapture_captured (config : Config) (client : Client) (thread : String) :
    Captured config (resetCapture client thread) thread none [] none :=
  ⟨rfl, rfl, rfl, .inl ⟨rfl, rfl, Nat.zero_le _⟩⟩

variable {thread : String} {later : List Read}

theorem Exchange.unique {thread' turnId' : String} {early' : List Json} {later' : List Read}
    (left : Exchange config client prompt options reads thread turnId early later)
    (right : Exchange config client prompt options reads thread' turnId' early' later') :
    thread = thread' ∧ turnId = turnId' ∧ early = early' ∧ later = later' := by
  obtain ⟨-, -, opened, started, reads', earlyReads, responseRead, response, result, isOpened,
    isStarted, split, gives, -, -, isTurn⟩ := left
  obtain ⟨-, -, opened', started', reads'', earlyReads', responseRead', response', result',
    isOpened', isStarted', split', gives', -, -, isTurn'⟩ := right
  rw [isOpened] at isOpened'
  cases isOpened'
  rw [isStarted] at isStarted'
  cases isStarted'
  rw [isTurn] at isTurn'
  cases isTurn'
  rw [split] at split'
  have reading : earlyReads = earlyReads' := (List.append_inj_left' split' rfl)
  rw [← reading] at gives'
  exact ⟨rfl, rfl, gives.unique gives', rfl⟩

theorem Exchange.captured
    (exchange : Exchange config client prompt options reads thread turnId early later)
    (separate : Separate thread turnId early) :
    ∃ opened started reads' result,
      openThread config client options reads = (.ok thread, opened, reads') ∧
      request config (resetCapture opened thread) "turn/start" (turnParams thread prompt) reads' =
        (.ok result, started, later) ∧ idIn result "turn" = some turnId ∧
      Captured config (adoptTurn started turnId) thread (some turnId)
        (deltasOf thread turnId early) (completedBy thread turnId early) := by
  obtain ⟨-, -, opened, started, reads', earlyReads, responseRead, response, result, isOpened,
    isStarted, split, gives, -, -, isTurn⟩ := exchange
  obtain ⟨earlyReads', early', responseRead', response', split', gives', -, -, -, -, captured⟩ :=
    (resetCapture_captured config opened thread).request isStarted
  rw [split] at split'
  have reading : earlyReads = earlyReads' := List.append_inj_left' split' rfl
  rw [← reading] at gives'
  rw [← gives.unique gives', List.nil_append] at captured
  obtain ⟨texts, completions⟩ := Separate.captures early none separate rfl
  refine ⟨opened, started, reads', result, isOpened, isStarted, isTurn, ?_⟩
  rw [texts] at captured
  refine ⟨captured.thread, rfl, ?_, captured.text⟩
  rw [adoptTurn, captured.completed]
  exact completions

theorem runText_ok {outcome : Outcome} {client' : Client}
    (succeeded : runText config client prompt options reads = (.ok outcome, client', rest)) :
    prompt ≠ "" ∧ options.timeoutMs ≠ 0 ∧ ∃ opened started final reads' later result,
      openThread config client options reads = (.ok outcome.threadId, opened, reads') ∧
      request config (resetCapture opened outcome.threadId) "turn/start"
        (turnParams outcome.threadId prompt) reads' = (.ok result, started, later) ∧
      started.captureError = .ok ∧ idIn result "turn" = some outcome.turnId ∧
      awaitTurn config later (adoptTurn started outcome.turnId) =
        (.ok outcome.turn, final, rest) ∧ outcome.text = final.capturedText := by
  rw [runText] at succeeded
  split at succeeded
  next => cases succeeded
  next valid =>
    rw [not_or] at valid
    refine ⟨valid.1, valid.2, ?_⟩
    simp only [Prod.mk.injEq] at succeeded
    obtain ⟨isOutcome, -, isRest⟩ := succeeded
    rw [runThread] at isOutcome isRest
    split at isOutcome
    next => cases isOutcome
    next threadId opened reads' isOpened =>
      rw [isOpened] at isRest
      dsimp only at isRest
      rw [runTurn] at isOutcome isRest
      split at isOutcome
      next => cases isOutcome
      next result started later isStarted =>
        rw [isStarted] at isRest
        dsimp only at isRest
        split at isOutcome
        next => cases isOutcome
        next noError =>
          rw [if_neg noError] at isRest
          split at isOutcome
          next => cases isOutcome
          next turnId isTurn =>
            rw [isTurn] at isRest
            dsimp only at isRest
            split at isOutcome
            next => cases isOutcome
            next turn final rest' waited =>
              rw [waited] at isRest
              dsimp only at isRest
              split at isOutcome
              next completed =>
                rw [if_pos completed] at isRest
                cases isOutcome
                dsimp only at isRest
                rw [← isRest]
                exact ⟨opened, started, final, reads', later, result, isOpened, isStarted,
                  Classical.not_not.mp noError, isTurn, waited, rfl⟩
              next => cases isOutcome

theorem runText_completed {opened started : Client} {reads' : List Read} (named : prompt ≠ "")
    (timed : options.timeoutMs ≠ 0)
    (isOpened : openThread config client options reads = (.ok thread, opened, reads'))
    (isStarted : request config (resetCapture opened thread) "turn/start"
      (turnParams thread prompt) reads' = (.ok result, started, later))
    (isTurn : idIn result "turn" = some turnId)
    (isCompleted : (adoptTurn started turnId).completedTurn = some completed) :
    (runText config client prompt options reads).1 =
      if started.captureError ≠ .ok then .error started.captureError
      else if turnStatus completed = .ok then
        .ok ⟨thread, turnId, started.capturedText, completed⟩
      else .error (turnStatus completed) := by
  have waited : awaitTurn config later (adoptTurn started turnId) =
      (.ok completed, adoptTurn started turnId, later) := by
    cases later <;> simp only [awaitTurn, isCompleted]
  rw [runText, if_neg (by simp [named, timed])]
  dsimp only
  rw [runThread, isOpened]
  dsimp only
  rw [runTurn, isStarted]
  dsimp only
  split
  next => rfl
  rw [isTurn]
  dsimp only
  rw [waited]
  dsimp only
  split
  next => rfl
  next => rfl

end Runs

/-! ## Samples -/

def sampleConfig : Config where
  clientName := "turbo_agent"
  clientTitle := "TurboAgent"
  clientVersion := "1.0.0"
  experimentalApi := false
  maxMessageBytes := 4096
  serverRequest := none
  serializedLength := fun _ => 64

def sampleClient : Client where
  nextRequestId := 2
  initialized := true
  closed := false
  lastError := none
  captureThreadId := none
  captureTurnId := none
  capturedText := ""
  completedTurn := none
  captureError := .ok
  writes := []
  sent := []

def sampleRead (message : Json) : Read :=
  .frame ⟨64, false, some message⟩

def sampleResponse (id key value : String) : Json :=
  .object [("id", .string id), ("result", .object [(key, .object [("id", .string value)])])]

def sampleDelta (turn text : String) : Json :=
  .object [("method", .string "item/agentMessage/delta"), ("params", .object
    [("threadId", .string "T"), ("turnId", .string turn), ("delta", .string text)])]

def sampleTurn : Json :=
  .object [("id", .string "U"), ("status", .string "completed")]

def sampleCompletion : Json :=
  .object [("method", .string "turn/completed"), ("params", .object
    [("threadId", .string "T"), ("turn", sampleTurn)])]

/-- The reads of a run whose first delta comes before the response to `turn/start`. -/
def sampleReads (turn : String) : List Read :=
  [sampleRead (sampleResponse "turbo-2" "thread" "T"), sampleRead (sampleDelta turn "one"),
    sampleRead (sampleResponse "turbo-3" "turn" "U"), sampleRead (sampleDelta "U" "two"),
    sampleRead sampleCompletion]

def sampleOpened : Client :=
  { sampleClient with
    nextRequestId := 3
    sent := [.object [("method", .string "thread/start"), ("id", .string "turbo-2"),
      ("params", (threadRequest runOptionsInit).2)]] }

def sampleStarted : Client :=
  { resetCapture sampleOpened "T" with
    nextRequestId := 4
    capturedText := "one"
    sent := sampleOpened.sent ++ [.object [("method", .string "turn/start"),
      ("id", .string "turbo-3"), ("params", turnParams "T" "hello")]] }

theorem sample_exchange (turn : String) (known : turn = "U" ∨ turn = "V") :
    Exchange sampleConfig sampleClient "hello" runOptionsInit (sampleReads turn) "T" "U"
      [sampleDelta turn "one"]
      [sampleRead (sampleDelta "U" "two"), sampleRead sampleCompletion] := by
  refine ⟨by decide, by decide, sampleOpened, sampleStarted, (sampleReads turn).tail,
    [sampleRead (sampleDelta turn "one")], sampleRead (sampleResponse "turbo-3" "turn" "U"),
    sampleResponse "turbo-3" "turn" "U", .object [("turn", .object [("id", .string "U")])],
    ?_, ?_, rfl, rfl, by decide, by decide, by decide⟩
  · rcases known with rfl | rfl <;> decide
  · rcases known with rfl | rfl <;> decide

end TurboAgent.Codex
