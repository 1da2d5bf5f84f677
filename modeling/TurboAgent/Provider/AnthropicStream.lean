import TurboAgent.Provider.Anthropic

/-!
# Streams of Anthropic messages

A message is a list of text and tool blocks.  A stream delivers it block by block, the text
or the input of a block cut into deltas.  The stream state keeps the texts in one buffer and
the tools in slots numbered by the index of their block, so a text block before a tool block
leaves a slot without an id, and the response is refused.
-/

namespace TurboAgent.Provider.Anthropic

inductive Block where
  | text (text : String)
  | toolUse (id name : String) (input : Json)

namespace Block

def isTool : Block → Bool
  | .text _ => false
  | .toolUse _ _ _ => true

def textOf : Block → String
  | .text content => content
  | .toolUse _ _ _ => ""

/-- The call of a block, as it is recorded in a model event. -/
def call? (codec : JsonCodec) : Block → Option Json
  | .text _ => none
  | .toolUse id name input => some (toolCallRecord id name (codec.serialize input).val)

/-- The part of a rebuilt response for a tool block. -/
def part? : Block → Option Json
  | .text _ => none
  | .toolUse id name input => some (.object [("type", .string "tool_use"), ("id", .string id),
      ("name", .string name), ("input", input)])

/-- Texts have no NUL, and a tool block is complete. -/
def Valid : Block → Prop
  | .text content => noNul content = true
  | .toolUse id name input =>
      id ≠ "" ∧ noNul id = true ∧ name ≠ "" ∧ noNul name = true ∧ input.isObject = true

instance : (block : Block) → Decidable block.Valid
  | .text content => inferInstanceAs (Decidable (noNul content = true))
  | .toolUse id name input => inferInstanceAs (Decidable (id ≠ "" ∧ noNul id = true ∧
      name ≠ "" ∧ noNul name = true ∧ input.isObject = true))

def IsDocument : Block → Json → Prop
  | .text content, item =>
      item.field "type" = some (.string "text") ∧ item.field "text" = some (.string content)
  | .toolUse id name input, item =>
      item.field "type" = some (.string "tool_use") ∧ item.field "id" = some (.string id) ∧
        item.field "name" = some (.string name) ∧ item.field "input" = some input

end Block

structure Message where
  (id role : String)
  blocks : List Block

namespace Message

/-- Id and role are there, and the blocks are valid. -/
structure Valid (message : Message) : Prop where
  id_some : message.id ≠ ""
  id_plain : noNul message.id = true
  role_some : message.role ≠ ""
  role_plain : noNul message.role = true
  blocks : ∀ block ∈ message.blocks, block.Valid

structure IsDocument (message : Message) (document : Json) : Prop where
  id : document.field "id" = some (.string message.id)
  content : ∃ items, document.field "content" = some (.array items) ∧
    List.Forall₂ Block.IsDocument message.blocks items

def text (message : Message) : String :=
  message.blocks.foldl (fun buffer block => buffer ++ block.textOf) ""

def event (codec : JsonCodec) (message : Message) : Json :=
  modelEvent message.id message.text (message.blocks.filterMap (Block.call? codec))

/-- The response document that a stream of the message is put together to. -/
def rebuilt (message : Message) (stopReason : String) : Json :=
  .object [("id", .string message.id), ("role", .string message.role),
    ("content", .array (textParts (some message.text) ++ message.blocks.filterMap Block.part?)),
    ("stop_reason", .string stopReason)]

end Message

def ToolsFirst (blocks : List Block) : Prop :=
  blocks.Pairwise fun earlier later => later.isTool → earlier.isTool

/-! ## Delivery -/

def concat (chunks : List String) : String :=
  chunks.foldl (· ++ ·) ""

/-- An event that starts a block with an empty body. -/
structure StartsBlock (index : Nat) (block : Block) (event : Json) : Prop where
  type : event.field "type" = some (.string "content_block_start")
  index : event.field "index" = some (.int index)
  body : ∃ body, event.field "content_block" = some body ∧
    match block with
    | .text _ => (Block.text "").IsDocument body
    | .toolUse id name _ => (Block.toolUse id name (.object [])).IsDocument body

/-- An event that delivers a piece of a block. -/
structure DeliversChunk (kind key : String) (index : Nat) (chunk : String) (event : Json) :
    Prop where
  plain : noNul chunk = true
  type : event.field "type" = some (.string "content_block_delta")
  index : event.field "index" = some (.int index)
  delta : ∃ delta, event.field "delta" = some delta ∧
    delta.field "type" = some (.string kind) ∧ delta.field key = some (.string chunk)

/-- The pieces of a block: a text, or a text that parses to the input.  Nothing stands for the
empty input. -/
def Pieces (codec : JsonCodec) (chunks : List String) : Block → Prop
  | .text text => concat chunks = text
  | .toolUse _ _ input =>
      if concat chunks = "" then input = .object []
      else codec.parse (concat chunks) = some input

def Block.deltaKind : Block → String × String
  | .text _ => ("text_delta", "text")
  | .toolUse _ _ _ => ("input_json_delta", "partial_json")

inductive BlockEvents (codec : JsonCodec) (index : Nat) (block : Block) : List Json → Prop where
  | intro {start : Json} {chunks : List String} {deltas stops : List Json} :
      StartsBlock index block start →
      List.Forall₂ (DeliversChunk block.deltaKind.1 block.deltaKind.2 index) chunks deltas →
      Pieces codec chunks block →
      (∀ stop ∈ stops, stop.field "type" = some (.string "content_block_stop")) →
      BlockEvents codec index block (start :: (deltas ++ stops))

inductive BlocksEvents (codec : JsonCodec) : Nat → List Block → List Json → Prop where
  | nil {index : Nat} : BlocksEvents codec index [] []
  | cons {index : Nat} {block : Block} {blocks : List Block} {first rest : List Json} :
      BlockEvents codec index block first → BlocksEvents codec (index + 1) blocks rest →
      BlocksEvents codec index (block :: blocks) (first ++ rest)

/-- The reason that the last change of a message reports. -/
def stopReasonOf (change : Json) : String :=
  (setIfNonempty none (change.getString "stop_reason")).getD "end_turn"

inductive MessageEvents (codec : JsonCodec) (message : Message) : String → List Json → Prop where
  | intro {start document delta change : Json} {events : List Json} :
      start.field "type" = some (.string "message_start") →
      start.field "message" = some document →
      document.field "id" = some (.string message.id) →
      document.field "role" = some (.string message.role) →
      BlocksEvents codec 0 message.blocks events →
      delta.field "type" = some (.string "message_delta") →
      delta.field "delta" = some change → change.isObject = true →
      MessageEvents codec message (stopReasonOf change) (start :: (events ++ [delta]))

def isPing (event : Json) : Bool :=
  event.getString "type" == some "ping"

structure Carries (codec : JsonCodec) (lines : List Line) (event : Json) : Prop where
  frame : PlainFrame lines
  plain : '\x00' ∉ frameChars lines
  document : payload lines ≠ []
  going : String.ofList (payload lines) ≠ "[DONE]"
  parsed : codec.parse (String.ofList (payload lines)) = some event

/-- A stream that delivers a message: frames with its events, pings anywhere, and anything
after its last event. -/
structure Delivers (codec : JsonCodec) (message : Message) (stopReason : String)
    (bytes : List Char) : Prop where
  frames : ∃ (lines : List (List Line)) (events core : List Json) (stop : Json)
    (rest : List Char),
    bytes.filter (· ≠ '\r') = lines.flatMap frameChars ++ rest ∧
      List.Forall₂ (Carries codec) lines events ∧
      events.filter (fun event => !isPing event) = core ++ [stop] ∧
      MessageEvents codec message stopReason core ∧
      stop.field "type" = some (.string "message_stop")

/-! ## The direct path -/

theorem isObject_of_field {record value : Json} {key : String}
    (stored : record.field key = some value) : record.isObject = true := by
  cases record with
  | object fields => rfl
  | _ => cases stored

namespace Block

variable {codec : JsonCodec} {block : Block} {item : Json}

theorem IsDocument.blockText (document : block.IsDocument item) (valid : block.Valid) :
    blockText item = block.textOf := by
  cases block with
  | text content =>
      have object := isObject_of_field document.1
      have type := Json.getString_of_field document.1 (by decide)
      have text := Json.getString_of_field document.2 valid
      simp [Anthropic.blockText, object, type, text, textOf]
  | toolUse id name input =>
      have type := Json.getString_of_field document.1 (by decide)
      simp [Anthropic.blockText, type, textOf]

theorem IsDocument.blockCall (document : block.IsDocument item) (codec : JsonCodec)
    (valid : block.Valid) :
    blockCall codec item = block.call? codec := by
  cases block with
  | text content =>
      have type := Json.getString_of_field document.1 (by decide)
      simp [Anthropic.blockCall, type, call?]
  | toolUse id name input =>
      obtain ⟨isType, isId, isName, isInput⟩ := document
      obtain ⟨-, idPlain, -, namePlain, -⟩ := valid
      have object := isObject_of_field isType
      have type := Json.getString_of_field isType (by decide)
      have id' := Json.getString_of_field isId idPlain
      have name' := Json.getString_of_field isName namePlain
      simp [Anthropic.blockCall, object, type, id', name', isInput, call?]

theorem part?_isDocument {part : Json} (made : block.part? = some part) :
    block.IsDocument part := by
  cases block with
  | text content => cases made
  | toolUse id name input =>
      cases made
      exact ⟨rfl, rfl, rfl, rfl⟩

end Block

section Direct

variable {codec : JsonCodec} {blocks : List Block}

theorem foldl_blockText {items : List Json} (valid : ∀ block ∈ blocks, block.Valid)
    (documents : List.Forall₂ Block.IsDocument blocks items) (buffer : String) :
    items.foldl (fun buffer item => buffer ++ blockText item) buffer =
      blocks.foldl (fun buffer block => buffer ++ block.textOf) buffer := by
  induction documents generalizing buffer with
  | nil => rfl
  | cons document _ ih =>
      rw [List.foldl_cons, List.foldl_cons, document.blockText (valid _ List.mem_cons_self)]
      exact ih (fun block member => valid block (List.mem_cons_of_mem _ member)) _

theorem filterMap_blockCall {items : List Json} (valid : ∀ block ∈ blocks, block.Valid)
    (documents : List.Forall₂ Block.IsDocument blocks items) :
    items.filterMap (blockCall codec) = blocks.filterMap (Block.call? codec) := by
  induction documents with
  | nil => rfl
  | cons document _ ih =>
      rw [List.filterMap_cons, List.filterMap_cons,
        document.blockCall codec (valid _ List.mem_cons_self),
        ih fun block member => valid block (List.mem_cons_of_mem _ member)]

theorem toolCallValid_of_call {block : Block} {call : Json} (made : block.call? codec = some call) :
    toolCallValid call = true := by
  cases block with
  | text content => cases made
  | toolUse id name input =>
      cases made
      rfl

theorem modelEventValid_of_calls {id text : String} {calls : List Json}
    (valid : ∀ call ∈ calls, toolCallValid call = true) :
    modelEventValid (modelEvent id text calls) = true := by
  have all : calls.all toolCallValid = true := List.all_eq_true.mpr valid
  simp [modelEventValid, modelEvent, Json.isObject, Json.field, Json.findField, all]

variable {message : Message}

/-- A document with the id, the text and the calls of a message gives its event. -/
theorem responseToEvent_eq {document : Json} (valid : message.Valid)
    (id : document.field "id" = some (.string message.id))
    (text : extractText document = message.text)
    (calls : collectToolCalls codec document = message.blocks.filterMap (Block.call? codec)) :
    responseToEvent codec document = some (message.event codec) := by
  have complete : modelEventValid (message.event codec) = true := by
    apply modelEventValid_of_calls
    intro call member
    obtain ⟨block, -, made⟩ := List.mem_filterMap.mp member
    exact toolCallValid_of_call made
  rw [Message.event] at complete
  simp [responseToEvent, isObject_of_field id, Json.getString_of_field id valid.id_plain, text,
    calls, complete, Message.event]

theorem responseToEvent_document {document : Json} (valid : message.Valid)
    (isDocument : message.IsDocument document) :
    responseToEvent codec document = some (message.event codec) := by
  obtain ⟨items, content, documents⟩ := isDocument.content
  apply responseToEvent_eq valid isDocument.id
  · rw [extractText, Anthropic.content, content]
    exact foldl_blockText valid.blocks documents ""
  · rw [collectToolCalls, Anthropic.content, content]
    exact filterMap_blockCall valid.blocks documents

theorem noNul_foldl_textOf (valid : ∀ block ∈ blocks, block.Valid) {buffer : String}
    (plain : noNul buffer = true) :
    noNul (blocks.foldl (fun buffer block => buffer ++ block.textOf) buffer) = true := by
  induction blocks generalizing buffer with
  | nil => exact plain
  | cons block blocks ih =>
      have here := valid block List.mem_cons_self
      apply ih fun block member => valid block (List.mem_cons_of_mem _ member)
      refine noNul_append plain ?_
      cases block with
      | text content => exact here
      | toolUse id name input => exact (by decide : noNul "" = true)

theorem foldl_blockText_parts (valid : ∀ block ∈ blocks, block.Valid) (buffer : String) :
    (blocks.filterMap Block.part?).foldl (fun buffer item => buffer ++ blockText item) buffer =
      buffer := by
  induction blocks with
  | nil => rfl
  | cons block blocks ih =>
      have rest := ih fun block member => valid block (List.mem_cons_of_mem _ member)
      cases block with
      | text content => exact rest
      | toolUse id name input =>
          obtain ⟨part, made⟩ : ∃ part, (Block.toolUse id name input).part? = some part :=
            ⟨_, rfl⟩
          have here := (Block.part?_isDocument made).blockText (valid _ List.mem_cons_self)
          rw [List.filterMap_cons_some made, List.foldl_cons, here]
          simpa [Block.textOf] using rest

theorem filterMap_blockCall_parts (valid : ∀ block ∈ blocks, block.Valid) :
    (blocks.filterMap Block.part?).filterMap (blockCall codec) =
      blocks.filterMap (Block.call? codec) := by
  induction blocks with
  | nil => rfl
  | cons block blocks ih =>
      have rest := ih fun block member => valid block (List.mem_cons_of_mem _ member)
      cases block with
      | text content => exact rest
      | toolUse id name input =>
          obtain ⟨part, made⟩ : ∃ part, (Block.toolUse id name input).part? = some part :=
            ⟨_, rfl⟩
          have here := (Block.part?_isDocument made).blockCall codec
            (valid _ List.mem_cons_self)
          rw [List.filterMap_cons_some made, List.filterMap_cons, List.filterMap_cons, here, rest]

theorem responseToEvent_rebuilt (valid : message.Valid) (stopReason : String) :
    responseToEvent codec (message.rebuilt stopReason) = some (message.event codec) := by
  have plain : (Block.text message.text).Valid := noNul_foldl_textOf valid.blocks (by decide)
  have content : Anthropic.content (message.rebuilt stopReason) =
      textParts (some message.text) ++ message.blocks.filterMap Block.part? := rfl
  have document : (Block.text message.text).IsDocument (textPart message.text) := ⟨rfl, rfl⟩
  apply responseToEvent_eq valid rfl
  · rw [extractText, content, List.foldl_append, foldl_blockText_parts valid.blocks, textParts]
    split
    next empty => simp [empty]
    next => simp [document.blockText plain, Block.textOf]
  · rw [collectToolCalls, content, List.filterMap_append, filterMap_blockCall_parts valid.blocks,
      textParts]
    split
    next => rfl
    next => simp [document.blockCall codec plain, Block.call?]

end Direct

/-! ## The stream state -/

section Slots

variable {front : List ToolCall} {index : Nat} {change : ToolCall → ToolCall}

@[simp] theorem ToolCall.empty_arguments : ToolCall.empty.arguments = none := rfl

theorem modify_last (slot : ToolCall) (length : front.length = index) :
    (front ++ [slot]).modify index change = front ++ [change slot] := by
  subst length
  induction front with
  | nil => rfl
  | cons first front ih =>
      rw [List.cons_append, List.length_cons, List.modify_succ_cons, ih]
      rfl

theorem updateSlot_last (slot : ToolCall) (length : front.length = index) :
    updateSlot (front ++ [slot]) index change = front ++ [change slot] := by
  have room : index + 1 - (front ++ [slot]).length = 0 := by
    simp only [List.length_append, List.length_singleton]
    omega
  rw [updateSlot, ensureCapacity, room, List.replicate_zero, List.append_nil,
    modify_last slot length]

theorem updateSlot_new (short : front.length ≤ index) :
    updateSlot front index change =
      front ++ List.replicate (index - front.length) ToolCall.empty ++ [change .empty] := by
  have length : (front ++ List.replicate (index - front.length) ToolCall.empty).length =
      index := by
    simp only [List.length_append, List.length_replicate]
    omega
  have capacity : index + 1 - front.length = index - front.length + 1 := by omega
  rw [updateSlot, ensureCapacity, capacity, List.replicate_succ', ← List.append_assoc,
    modify_last ToolCall.empty length]

end Slots

theorem foldl_concat (chunks : List String) (start : String) :
    chunks.foldl (· ++ ·) start = start ++ concat chunks := by
  induction chunks generalizing start with
  | nil => exact String.append_empty.symm
  | cons chunk chunks ih =>
      have first : concat (chunk :: chunks) = chunk ++ concat chunks := by
        rw [← ih chunk, concat, List.foldl_cons, String.empty_append]
      rw [List.foldl_cons, ih, first, String.append_assoc]

theorem concat_cons (chunk : String) (chunks : List String) :
    concat (chunk :: chunks) = chunk ++ concat chunks := by
  rw [← foldl_concat, concat, List.foldl_cons, String.empty_append]

section Events

variable {codec : JsonCodec} {state : StreamState} {index : Nat} {event : Json}

theorem getInt_index (stored : event.field "index" = some (.int index)) :
    getInt event "index" 0 = index := by
  simp [getInt, stored]

variable {text : String}

theorem applyEvent_startText (starts : StartsBlock index (.text text) event) :
    applyEvent codec state event =
      some { state with content := some (state.content.getD "") } := by
  obtain ⟨type, stored, body, isBody, isType, isText⟩ := starts
  have object := isObject_of_field type
  have bodyObject := isObject_of_field isType
  have kind := Json.getString_of_field type (by decide)
  have bodyKind := Json.getString_of_field isType (by decide)
  have bodyText := Json.getString_of_field isText (by decide)
  have index' := getInt_index stored
  simp [applyEvent, object, kind, applyBlockStart, isBody, bodyObject, index', bodyKind, bodyText,
    appendIfPresent, appendText]

variable {id name : String} {input : Json}

theorem applyEvent_startTool (valid : (Block.toolUse id name input).Valid)
    (starts : StartsBlock index (.toolUse id name input) event) :
    applyEvent codec state event = some { state with
      toolCalls := updateSlot state.toolCalls index fun call =>
        ⟨some id, some "tool_use", some name, call.arguments⟩ } := by
  obtain ⟨type, stored, body, isBody, isType, isId, isName, isInput⟩ := starts
  obtain ⟨idSome, idPlain, nameSome, namePlain, -⟩ := valid
  have object := isObject_of_field type
  have bodyObject := isObject_of_field isType
  have kind := Json.getString_of_field type (by decide)
  have bodyKind := Json.getString_of_field isType (by decide)
  have bodyId := Json.getString_of_field isId idPlain
  have bodyName := Json.getString_of_field isName namePlain
  have index' := getInt_index stored
  simp [applyEvent, object, kind, applyBlockStart, isBody, bodyObject, index', bodyKind, bodyId,
    bodyName, isInput, startArguments, setIfNonempty, idSome, nameSome]

theorem applyEvent_textChunk {chunk : String}
    (delivers : DeliversChunk "text_delta" "text" index chunk event) :
    applyEvent codec state event =
      some { state with content := some (state.content.getD "" ++ chunk) } := by
  obtain ⟨plain, type, stored, delta, isDelta, isType, isText⟩ := delivers
  have object := isObject_of_field type
  have deltaObject := isObject_of_field isType
  have kind := Json.getString_of_field type (by decide)
  have deltaKind := Json.getString_of_field isType (by decide)
  have deltaText := Json.getString_of_field isText plain
  have index' := getInt_index stored
  simp [applyEvent, object, kind, applyBlockDelta, isDelta, deltaObject, index', deltaKind,
    deltaText, appendIfPresent, appendText]

theorem applyEvent_inputChunk {chunk : String}
    (delivers : DeliversChunk "input_json_delta" "partial_json" index chunk event) :
    applyEvent codec state event = some { state with
      toolCalls := updateSlot state.toolCalls index fun call => { call with
        type := some "tool_use"
        arguments := appendText call.arguments chunk } } := by
  obtain ⟨plain, type, stored, delta, isDelta, isType, isText⟩ := delivers
  have object := isObject_of_field type
  have deltaObject := isObject_of_field isType
  have kind := Json.getString_of_field type (by decide)
  have deltaKind := Json.getString_of_field isType (by decide)
  have deltaText := Json.getString_of_field isText plain
  have index' := getInt_index stored
  simp [applyEvent, object, kind, applyBlockDelta, isDelta, deltaObject, index', deltaKind,
    deltaText, appendIfPresent, setIfNonempty]

theorem applyEvent_other {type : String} (stored : event.field "type" = some (.string type))
    (other : type = "content_block_stop" ∨ type = "message_stop") :
    applyEvent codec state event = some state := by
  have object := isObject_of_field stored
  rcases other with rfl | rfl
  · have kind := Json.getString_of_field stored (by decide)
    simp [applyEvent, object, kind]
  · have kind := Json.getString_of_field stored (by decide)
    simp [applyEvent, object, kind]

theorem applyStops {stops : List Json}
    (are : ∀ stop ∈ stops, stop.field "type" = some (.string "content_block_stop")) :
    stops.foldlM (applyEvent codec) state = some state := by
  induction stops with
  | nil => rfl
  | cons stop stops ih =>
      rw [List.foldlM_cons, applyEvent_other (are stop List.mem_cons_self) (.inl rfl)]
      exact ih fun stop member => are stop (List.mem_cons_of_mem _ member)

variable {chunks : List String}

theorem applyTextChunks {deltas : List Json}
    (delivers : List.Forall₂ (DeliversChunk "text_delta" "text" index) chunks deltas) :
    deltas.foldlM (applyEvent codec) { state with content := some text } =
      some { state with content := some (text ++ concat chunks) } := by
  induction delivers generalizing text with
  | nil => simp [concat]
  | @cons chunk _ _ _ here _ ih =>
      rw [List.foldlM_cons, applyEvent_textChunk here, concat_cons, ← String.append_assoc]
      exact ih

theorem applyInputChunks {deltas : List Json} {front : List ToolCall}
    {id name arguments : Option String} (length : front.length = index)
    (delivers : List.Forall₂ (DeliversChunk "input_json_delta" "partial_json" index) chunks deltas) :
    deltas.foldlM (applyEvent codec)
        { state with toolCalls := front ++ [⟨id, some "tool_use", name, arguments⟩] } =
      some { state with
        toolCalls := front ++ [⟨id, some "tool_use", name, chunks.foldl appendText arguments⟩] } := by
  induction delivers generalizing arguments with
  | nil => rfl
  | cons here _ ih =>
      rw [List.foldlM_cons, applyEvent_inputChunk here]
      simp only [updateSlot_last _ length]
      exact ih

theorem foldl_appendText (chunks : List String) (text : String) :
    chunks.foldl appendText (some text) = some (text ++ concat chunks) := by
  induction chunks generalizing text with
  | nil => simp [concat]
  | cons chunk chunks ih =>
      rw [List.foldl_cons, appendText, Option.getD_some, ih, concat_cons, String.append_assoc]

theorem applyText {events : List Json} (delivers : BlockEvents codec index (.text text) events) :
    events.foldlM (applyEvent codec) state =
      some { state with content := some (state.content.getD "" ++ text) } := by
  cases delivers with
  | intro starts deltas pieces stops =>
      have joined : concat _ = text := pieces
      rw [List.foldlM_cons, applyEvent_startText starts]
      simp only [Option.bind_eq_bind, Option.bind_some]
      rw [List.foldlM_append, applyTextChunks deltas, joined]
      exact applyStops stops

def SlotFor (codec : JsonCodec) : Block → ToolCall → Prop
  | .text _, slot => slot = .empty
  | .toolUse id name input, slot =>
      slot.id = some id ∧ slot.name = some name ∧ inputObject codec slot = some input

theorem inputObject_pieces (pieces : Pieces codec chunks (.toolUse id name input)) (slot : ToolCall)
    (arguments : slot.arguments = chunks.foldl appendText none) :
    inputObject codec slot = some input := by
  rw [Pieces] at pieces
  cases chunks with
  | nil =>
      have empty : input = .object [] := pieces
      simp [inputObject, arguments, empty]
  | cons chunk chunks =>
      have joined : slot.arguments = some (concat (chunk :: chunks)) := by
        rw [arguments, List.foldl_cons, appendText, Option.getD_none, String.empty_append,
          foldl_appendText, concat_cons]
      simp only [inputObject, joined]
      split at pieces
      next empty => rw [if_pos empty, pieces]
      next filled => rw [if_neg filled, pieces]

theorem applyTool {events : List Json} (valid : (Block.toolUse id name input).Valid)
    (delivers : BlockEvents codec index (.toolUse id name input) events)
    (short : state.toolCalls.length ≤ index) :
    ∃ slot, SlotFor codec (.toolUse id name input) slot ∧
      events.foldlM (applyEvent codec) state = some { state with
        toolCalls := state.toolCalls ++
          List.replicate (index - state.toolCalls.length) ToolCall.empty ++ [slot] } := by
  cases delivers with
  | @intro start chunks deltas' stops' starts deltas pieces stops =>
      refine ⟨⟨some id, some "tool_use", some name, chunks.foldl appendText none⟩,
        ⟨rfl, rfl, inputObject_pieces pieces _ rfl⟩, ?_⟩
      have length : (state.toolCalls ++
          List.replicate (index - state.toolCalls.length) ToolCall.empty).length = index := by
        simp only [List.length_append, List.length_replicate]
        omega
      rw [List.foldlM_cons, applyEvent_startTool valid starts, updateSlot_new short]
      simp only [Option.bind_eq_bind, Option.bind_some]
      rw [List.foldlM_append]
      simp only [ToolCall.empty_arguments]
      rw [applyInputChunks length deltas]
      exact applyStops stops

end Events

/-- What the blocks so far have left in the state.  Text blocks after the last tool block have
no slot yet. -/
structure Progress (codec : JsonCodec) (done : List Block) (state : StreamState) : Prop where
  content : state.content.getD "" = done.foldl (fun buffer block => buffer ++ block.textOf) ""
  toolCalls : List.Forall₂ (SlotFor codec) (done.rdropWhile fun block => !block.isTool)
    state.toolCalls

section Blocks

variable {codec : JsonCodec} {state : StreamState} {done : List Block}

theorem forall₂_replicate_empty {blocks : List Block}
    (texts : ∀ block ∈ blocks, block.isTool = false) :
    List.Forall₂ (SlotFor codec) blocks (List.replicate blocks.length ToolCall.empty) := by
  induction blocks with
  | nil => exact .nil
  | cons block blocks ih =>
      refine .cons ?_ (ih fun block member => texts block (List.mem_cons_of_mem _ member))
      have text := texts block List.mem_cons_self
      cases block with
      | text content => rfl
      | toolUse id name input => cases text

/-- The slots of the blocks so far, when the ones at the end are filled up. -/
theorem Progress.filled (progress : Progress codec done state) :
    state.toolCalls.length ≤ done.length ∧
      List.Forall₂ (SlotFor codec) done (state.toolCalls ++
        List.replicate (done.length - state.toolCalls.length) ToolCall.empty) := by
  have whole : (done.rdropWhile fun block => !block.isTool) ++
      (done.rtakeWhile fun block => !block.isTool) = done := List.rdropWhile_append_rtakeWhile
  have lengths := congrArg List.length whole
  rw [List.length_append, progress.toolCalls.length_eq] at lengths
  have texts : ∀ block ∈ done.rtakeWhile fun block => !block.isTool, block.isTool = false := by
    intro block member
    simpa using List.mem_rtakeWhile_imp member
  have ending : done.length - state.toolCalls.length =
      (done.rtakeWhile fun block => !block.isTool).length := by omega
  refine ⟨by omega, ?_⟩
  rw [ending]
  nth_rewrite 1 [← whole]
  exact List.rel_append progress.toolCalls (forall₂_replicate_empty texts)

theorem Progress.block (progress : Progress codec done state) {block : Block}
    {events : List Json} (valid : block.Valid)
    (delivers : BlockEvents codec done.length block events) :
    ∃ content toolCalls,
      events.foldlM (applyEvent codec) state =
          some { state with content, toolCalls } ∧
        Progress codec (done ++ [block])
          { state with content, toolCalls } := by
  cases block with
  | text text =>
      refine ⟨_, state.toolCalls, applyText delivers, ?_, ?_⟩
      · simp [List.foldl_append, progress.content, Block.textOf]
      · rw [List.rdropWhile_concat_pos _ _ _ rfl]
        exact progress.toolCalls
  | toolUse id name input =>
      obtain ⟨short, filled⟩ := progress.filled
      obtain ⟨slot, isSlot, applied⟩ := applyTool valid delivers short
      refine ⟨state.content, _, applied, ?_, ?_⟩
      · simp [List.foldl_append, progress.content, Block.textOf]
      · rw [List.rdropWhile_concat_neg _ _ _ (by simp [Block.isTool])]
        exact List.rel_append filled (.cons isSlot .nil)

theorem Progress.blocks {blocks : List Block} {events : List Json}
    (valid : ∀ block ∈ blocks, block.Valid)
    (delivers : BlocksEvents codec done.length blocks events)
    (progress : Progress codec done state) :
    ∃ content toolCalls,
      events.foldlM (applyEvent codec) state =
          some { state with content, toolCalls } ∧
        Progress codec (done ++ blocks)
          { state with content, toolCalls } := by
  induction blocks generalizing done state events with
  | nil =>
      cases delivers
      exact ⟨state.content, state.toolCalls, rfl, by simpa using progress⟩
  | cons block blocks ih =>
      cases delivers with
      | @cons _ _ _ first rest here there =>
          obtain ⟨content, toolCalls, applied, next⟩ :=
            progress.block (valid block List.mem_cons_self) here
          have index : (done ++ [block]).length = done.length + 1 := by simp
          rw [← index] at there
          obtain ⟨content', toolCalls', applied', last⟩ :=
            ih (fun block member => valid block (List.mem_cons_of_mem _ member)) there next
          refine ⟨content', toolCalls', ?_, ?_⟩
          · rw [List.foldlM_append, applied]
            exact applied'
          · simpa using last

end Blocks

section Message

variable {codec : JsonCodec} {state : StreamState} {message : Message}

theorem applyEvent_messageStart {event document : Json} (valid : message.Valid)
    (type : event.field "type" = some (.string "message_start"))
    (isDocument : event.field "message" = some document)
    (id : document.field "id" = some (.string message.id))
    (role : document.field "role" = some (.string message.role)) :
    applyEvent codec state event =
      some { state with id := some message.id, role := some message.role } := by
  have kind := Json.getString_of_field type (by decide)
  have id' := Json.getString_of_field id valid.id_plain
  have role' := Json.getString_of_field role valid.role_plain
  simp [applyEvent, isObject_of_field type, kind, isDocument, isObject_of_field id, id', role',
    setIfNonempty, valid.id_some, valid.role_some]

theorem applyEvent_messageDelta {event change : Json}
    (type : event.field "type" = some (.string "message_delta"))
    (isChange : event.field "delta" = some change) (object : change.isObject = true) :
    applyEvent codec state event = some { state with
      stopReason := setIfNonempty state.stopReason (change.getString "stop_reason") } := by
  have kind := Json.getString_of_field type (by decide)
  simp [applyEvent, isObject_of_field type, kind, isChange, object]

variable {events : List Json}

theorem applyMessage {stopReason : String} (valid : message.Valid)
    (delivers : MessageEvents codec message stopReason events) :
    ∃ state, events.foldlM (applyEvent codec) .initial = some state ∧
      state.id = some message.id ∧ state.role = some message.role ∧
      state.stopReason.getD "end_turn" = stopReason ∧ Progress codec message.blocks state := by
  cases delivers with
  | @intro start document delta change events type isDocument id role blocks deltaType isChange
      object =>
      have empty : Progress codec []
          { StreamState.initial with id := some message.id, role := some message.role } :=
        ⟨rfl, .nil⟩
      obtain ⟨content, toolCalls, applied, progress⟩ := empty.blocks valid.blocks blocks
      rw [List.foldlM_cons, applyEvent_messageStart valid type isDocument id role]
      simp only [Option.bind_eq_bind, Option.bind_some]
      rw [List.foldlM_append, applied]
      simp only [Option.bind_eq_bind, Option.bind_some]
      rw [List.foldlM_cons, applyEvent_messageDelta deltaType isChange object]
      exact ⟨_, rfl, rfl, rfl, rfl, ⟨progress.content, progress.toolCalls⟩⟩

theorem DeliversChunk.types {kind key : String} {index : Nat} {chunks : List String}
    {deltas : List Json} (delivers : List.Forall₂ (DeliversChunk kind key index) chunks deltas) :
    ∀ delta ∈ deltas, delta.field "type" = some (.string "content_block_delta") := by
  induction delivers with
  | nil => simp
  | cons here _ ih =>
      exact List.forall_mem_cons.mpr ⟨here.type, ih⟩

theorem BlocksEvents.types {index : Nat} {blocks : List Block}
    (delivers : BlocksEvents codec index blocks events) :
    ∀ event ∈ events, ∃ type, event.getString "type" = some type ∧ type ≠ "message_stop" := by
  induction delivers with
  | nil => simp
  | cons here _ ih =>
      intro event member
      rcases List.mem_append.mp member with first | rest
      · cases here with
        | intro starts deltas _ stops =>
            rcases List.mem_cons.mp first with rfl | later
            · exact ⟨_, Json.getString_of_field starts.type (by decide), by decide⟩
            · rcases List.mem_append.mp later with isDelta | isStop
              · have type := DeliversChunk.types deltas event isDelta
                exact ⟨_, Json.getString_of_field type (by decide), by decide⟩
              · exact ⟨_, Json.getString_of_field (stops event isStop) (by decide), by decide⟩
      · exact ih event rest

theorem MessageEvents.types {stopReason : String}
    (delivers : MessageEvents codec message stopReason events) :
    ∀ event ∈ events, ∃ type, event.getString "type" = some type ∧ type ≠ "message_stop" := by
  cases delivers with
  | intro type _ _ _ blocks deltaType =>
      intro event member
      rcases List.mem_cons.mp member with rfl | later
      · exact ⟨_, Json.getString_of_field type (by decide), by decide⟩
      · rcases List.mem_append.mp later with inner | last
        · exact blocks.types event inner
        · cases List.mem_singleton.mp last
          exact ⟨_, Json.getString_of_field deltaType (by decide), by decide⟩

end Message

/-! ## Frames -/

section Frames

variable {codec : JsonCodec} {lines : List (List Line)} {events : List Json}

theorem framesOf_frames (frames : ∀ frame ∈ lines, PlainFrame frame) (rest : List Char) :
    framesOf (lines.flatMap frameChars ++ rest) =
      lines.map (fun frame => List.intercalate ['\n'] (frame.map Line.chars)) ++
        framesOf rest := by
  induction lines with
  | nil => rfl
  | cons frame lines ih =>
      rw [List.flatMap_cons, List.append_assoc, framesOf_frame (frames frame List.mem_cons_self),
        ih fun frame member => frames frame (List.mem_cons_of_mem _ member)]
      rfl

theorem Carries.all (carries : List.Forall₂ (Carries codec) lines events) :
    ∀ frame ∈ lines, PlainFrame frame ∧ '\x00' ∉ frameChars frame := by
  induction carries with
  | nil => simp
  | cons here _ ih =>
      exact List.forall_mem_cons.mpr ⟨⟨here.frame, here.plain⟩, ih⟩

theorem framesOf_carried (carries : List.Forall₂ (Carries codec) lines events)
    {bytes rest : List Char} (stream : bytes.filter (· ≠ '\r') = lines.flatMap frameChars ++ rest) :
    ∃ others, framesOf (normalizeNewlines bytes) =
      lines.map (fun frame => List.intercalate ['\n'] (frame.map Line.chars)) ++ others := by
  have plain : ∀ ch ∈ lines.flatMap frameChars, decide (ch ≠ '\x00') = true := by
    intro ch member
    obtain ⟨frame, known, inside⟩ := List.mem_flatMap.mp member
    have absent := (Carries.all carries frame known).2
    apply decide_eq_true
    rintro rfl
    exact absent inside
  rw [normalizeNewlines, stream, List.takeWhile_append_of_pos plain]
  exact ⟨_, framesOf_frames (fun frame known => (Carries.all carries frame known).1) _⟩

/-- The frames of a message are applied in order, up to the event that ends it. -/
theorem applyFrames_carried {core : List Json} {stop : Json} {state last : StreamState}
    {saw : Bool} (carries : List.Forall₂ (Carries codec) lines events)
    (kept : events.filter (fun event => !isPing event) = core ++ [stop])
    (types : ∀ event ∈ core, ∃ type, event.getString "type" = some type ∧ type ≠ "message_stop")
    (isStop : stop.field "type" = some (.string "message_stop"))
    (applied : core.foldlM (applyEvent codec) state = some last) (others : List (List Char)) :
    applyFrames codec
        (lines.map (fun frame => List.intercalate ['\n'] (frame.map Line.chars)) ++ others)
        state saw = some (last, true) := by
  induction carries generalizing core state saw with
  | nil => simp at kept
  | @cons frame event lines events here _ ih =>
      have filled : String.ofList (payload frame) ≠ "" := by
        simpa using here.document
      rw [List.map_cons, List.cons_append, applyFrames]
      simp only [collectEventData_frame here.frame, if_neg here.going, if_neg filled, here.parsed]
      cases ping : isPing event with
      | true =>
          have type : event.getString "type" = some "ping" := by simpa [isPing] using ping
          simp only [List.filter_cons, ping] at kept
          simp only [type, if_true]
          exact ih kept types applied
      | false =>
          have other : event.getString "type" ≠ some "ping" := by simpa [isPing] using ping
          simp only [List.filter_cons, ping] at kept
          cases core with
          | nil =>
              simp only [Bool.not_false, if_true, List.nil_append, List.cons.injEq] at kept
              obtain ⟨rfl, -⟩ := kept
              have type := Json.getString_of_field isStop (by decide)
              have same : state = last := by simpa using applied
              simp [type, applyEvent_other isStop (.inr rfl), same]
          | cons first core =>
              simp only [Bool.not_false, if_true, List.cons_append, List.cons.injEq] at kept
              obtain ⟨rfl, kept⟩ := kept
              obtain ⟨type, isType, going⟩ := types event List.mem_cons_self
              have noPing : type ≠ "ping" := by
                rintro rfl
                exact other isType
              rw [List.foldlM_cons] at applied
              obtain ⟨next, applied', rest⟩ := Option.bind_eq_some_iff.mp applied
              simp only [isType, if_neg noPing, applied', if_neg going]
              exact ih kept (fun event member => types event (List.mem_cons_of_mem _ member)) rest

end Frames

/-! ## The response -/

section Response

variable {codec : JsonCodec} {blocks : List Block} {slots : List ToolCall}

theorem toolsFirst_iff :
    ToolsFirst blocks ↔ ∀ block ∈ blocks.rdropWhile fun block => !block.isTool,
      block.isTool = true := by
  induction blocks using List.reverseRecOn with
  | nil => simp [ToolsFirst]
  | append_singleton blocks block ih =>
      rw [ToolsFirst, List.pairwise_append]
      cases block with
      | text content =>
          rw [List.rdropWhile_concat_pos _ _ _ rfl, ← ih]
          simp [ToolsFirst, Block.isTool]
      | toolUse id name input =>
          rw [List.rdropWhile_concat_neg _ _ _ (by simp [Block.isTool])]
          constructor
          · rintro ⟨-, -, earlier⟩ block member
            rcases List.mem_append.mp member with before | here
            · exact earlier block before _ List.mem_cons_self rfl
            · rw [List.mem_singleton.mp here]
              rfl
          · intro tools
            refine ⟨?_, by simp, fun block member _ _ _ => tools block (by simp [member])⟩
            apply List.pairwise_of_forall_mem_list
            intro earlier member _ _ _
            exact tools earlier (by simp [member])

theorem mapM_toolUsePart (slotted : List.Forall₂ (SlotFor codec) blocks slots)
    (tools : ∀ block ∈ blocks, block.isTool = true) :
    slots.mapM (toolUsePart codec) = some (blocks.filterMap Block.part?) := by
  induction slotted with
  | nil => rfl
  | @cons block slot _ _ here _ ih =>
      have rest := ih fun block member => tools block (List.mem_cons_of_mem _ member)
      have tool := tools block List.mem_cons_self
      cases block with
      | text content => cases tool
      | toolUse id name input =>
          obtain ⟨isId, isName, isInput⟩ := here
          simp [List.mapM_cons, toolUsePart, isId, isName, isInput, rest, Block.part?]

theorem mapM_toolUsePart_none (slotted : List.Forall₂ (SlotFor codec) blocks slots)
    (text : ∃ block ∈ blocks, block.isTool = false) :
    slots.mapM (toolUsePart codec) = none := by
  induction slotted with
  | nil => simp at text
  | @cons block slot _ _ here _ ih =>
      cases block with
      | text content =>
          have empty : slot = ToolCall.empty := here
          simp [List.mapM_cons, empty, toolUsePart, ToolCall.empty]
      | toolUse id name input =>
          have rest := ih (by simpa [Block.isTool] using text)
          rw [List.mapM_cons, rest]
          cases toolUsePart codec slot <;> rfl

theorem filterMap_part?_rdropWhile :
    (blocks.rdropWhile fun block => !block.isTool).filterMap Block.part? =
      blocks.filterMap Block.part? := by
  induction blocks using List.reverseRecOn with
  | nil => rfl
  | append_singleton blocks block ih =>
      cases block with
      | text content =>
          rw [List.rdropWhile_concat_pos _ _ _ rfl, ih, List.filterMap_append]
          simp [Block.part?]
      | toolUse id name input =>
          rw [List.rdropWhile_concat_neg _ _ _ (by simp [Block.isTool])]

theorem textParts_getD (content : Option String) :
    textParts (some (content.getD "")) = textParts content := by
  cases content with
  | none => rfl
  | some text => rfl

variable {message : Message} {state : StreamState}

theorem buildResponse_tools (valid : message.Valid) (id : state.id = some message.id)
    (role : state.role = some message.role) (progress : Progress codec message.blocks state)
    (first : ToolsFirst message.blocks) :
    buildResponse codec state = some (message.rebuilt (state.stopReason.getD "end_turn")) := by
  have parts := mapM_toolUsePart progress.toolCalls (toolsFirst_iff.mp first)
  rw [filterMap_part?_rdropWhile] at parts
  have text : textParts state.content = textParts (some message.text) := by
    rw [← textParts_getD, progress.content, Message.text]
  simp [buildResponse, id, role, valid.role_some, parts, text, Message.rebuilt]

theorem buildResponse_text (progress : Progress codec message.blocks state)
    (mixed : ¬ToolsFirst message.blocks) : buildResponse codec state = none := by
  rw [toolsFirst_iff] at mixed
  have refused := mapM_toolUsePart_none progress.toolCalls (by simpa using mixed)
  rw [buildResponse]
  split
  next => simp [refused]
  next => rfl

/-- A stream of a message is put together exactly when no text block stands before a tool
block. -/
theorem sseToEvent_delivers {stopReason : String} {bytes : List Char} (valid : message.Valid)
    (delivers : Delivers codec message stopReason bytes)
    (faithful : codec.parse (codec.serialize (message.rebuilt stopReason)).val =
      some (message.rebuilt stopReason)) :
    (ToolsFirst message.blocks → sseToEvent codec bytes = some (message.event codec)) ∧
      (¬ToolsFirst message.blocks → sseToEvent codec bytes = none) := by
  obtain ⟨lines, events, core, stop, rest, stream, carries, kept, isCore, isStop⟩ :=
    delivers.frames
  obtain ⟨state, applied, id, role, reason, progress⟩ := applyMessage valid isCore
  obtain ⟨others, framed⟩ := framesOf_carried carries stream
  have read : applyFrames codec (framesOf (normalizeNewlines bytes)) .initial false =
      some (state, true) := by
    rw [framed]
    exact applyFrames_carried carries kept isCore.types isStop applied others
  constructor
  · intro first
    have built := buildResponse_tools valid id role progress first
    rw [reason] at built
    simp [sseToEvent, sseToJson, read, built, faithful, responseToEvent_rebuilt valid]
  · intro mixed
    simp [sseToEvent, sseToJson, read, buildResponse_text progress mixed]

/-- A stream gives the event of the plain response exactly when no text block of the message
stands before a tool block. -/
theorem sseToEvent_eq_iff {document : Json} {stopReason : String} {bytes : List Char}
    (valid : message.Valid) (isDocument : message.IsDocument document)
    (delivers : Delivers codec message stopReason bytes)
    (faithful : codec.parse (codec.serialize (message.rebuilt stopReason)).val =
      some (message.rebuilt stopReason)) :
    (∃ event, sseToEvent codec bytes = some event ∧
        responseToEvent codec document = some event) ↔ ToolsFirst message.blocks := by
  obtain ⟨built, refused⟩ := sseToEvent_delivers valid delivers faithful
  constructor
  · rintro ⟨event, streamed, -⟩
    by_contra mixed
    rw [refused mixed] at streamed
    cases streamed
  · intro first
    exact ⟨_, built first, responseToEvent_document valid isDocument⟩

end Response

/-! ## A message with text and a tool -/

section Sample

def sampleFrame (value : Json) : List Line :=
  [.data true (render value)]

/-- The document of a frame can be read back from a list of known ones. -/
def readBack (known : List Json) (value : Json) : Bool :=
  render value ≠ [] && render value ≠ "[DONE]".toList &&
    !(render value).contains '\n' && !(frameChars (sampleFrame value)).contains '\x00' &&
    (known.find? fun other => render other == render value) == some value

theorem carries_of_readBack {known : List Json} {value : Json}
    (read : readBack known value = true) : Carries (knownCodec known) (sampleFrame value) value := by
  simp only [readBack, ne_eq, decide_not, List.contains_eq_mem, Bool.and_eq_true,
    Bool.not_eq_true', decide_eq_false_iff_not, beq_iff_eq] at read
  obtain ⟨⟨⟨⟨filled, going⟩, newline⟩, plain⟩, found⟩ := read
  have chars : payload (sampleFrame value) = render value := by
    simp [payload, sampleFrame, Line.data?]
  refine ⟨⟨?_, by simp [sampleFrame]⟩, plain, by rwa [chars], ?_, ?_⟩
  · intro line member
    rw [List.mem_singleton.mp member]
    exact ⟨filled, newline, .inl rfl⟩
  · rw [chars]
    intro same
    exact going (by simpa using congrArg String.toList same)
  · rwa [chars, knownCodec_parse]

theorem carries_sample {known values : List Json} (read : values.all (readBack known) = true) :
    List.Forall₂ (Carries (knownCodec known)) (values.map sampleFrame) values := by
  rw [List.forall₂_map_left_iff, List.forall₂_same]
  intro value member
  exact carries_of_readBack (List.all_eq_true.mp read value member)

def blockStart (index : Nat) (body : Json) : Json :=
  .object [("type", .string "content_block_start"), ("index", .int index), ("content_block", body)]

def blockDelta (index : Nat) (kind key chunk : String) : Json :=
  .object [("type", .string "content_block_delta"), ("index", .int index),
    ("delta", .object [("type", .string kind), (key, .string chunk)])]

def blockStop (index : Nat) : Json :=
  .object [("type", .string "content_block_stop"), ("index", .int index)]

def textEvents (index : Nat) : List Json :=
  [blockStart index (textPart ""), blockDelta index "text_delta" "text" "Look",
    blockDelta index "text_delta" "text" "ing", blockStop index]

def sampleInput : Json := .object [("q", .int 1)]

def toolPart (input : Json) : Json :=
  .object [("type", .string "tool_use"), ("id", .string "t"), ("name", .string "find"),
    ("input", input)]

def toolEvents (index : Nat) : List Json :=
  [blockStart index (toolPart (.object [])),
    blockDelta index "input_json_delta" "partial_json" "\x7b\"q\"",
    blockDelta index "input_json_delta" "partial_json" ":1\x7d", blockStop index]

def sampleOpen : Json :=
  .object [("type", .string "message_start"),
    ("message", .object [("id", .string "m"), ("role", .string "assistant")])]

def sampleChange : Json :=
  .object [("type", .string "message_delta"),
    ("delta", .object [("stop_reason", .string "tool_use")])]

def sampleStop : Json := .object [("type", .string "message_stop")]

def samplePing : Json := .object [("type", .string "ping")]

def sampleText : Block := .text "Looking"

def sampleTool : Block := .toolUse "t" "find" sampleInput

def sampleMessage (blocks : List Block) : Message := ⟨"m", "assistant", blocks⟩

def sampleDocument (parts : List Json) : Json :=
  .object [("id", .string "m"), ("role", .string "assistant"), ("content", .array parts)]

def sampleEvents (events : List Json) : List Json :=
  sampleOpen :: samplePing :: (events ++ [sampleChange, sampleStop])

def sampleKnown (blocks : List Block) (events : List Json) : List Json :=
  sampleInput :: (sampleMessage blocks).rebuilt "tool_use" :: sampleEvents events

def codecOf (blocks : List Block) (events : List Json) : JsonCodec :=
  knownCodec (sampleKnown blocks events)

def bytesOf (events : List Json) : List Char :=
  ((sampleEvents events).map sampleFrame).flatMap frameChars

theorem textEvents_block (codec : JsonCodec) (index : Nat) :
    BlockEvents codec index sampleText (textEvents index) := by
  have starts : StartsBlock index sampleText (blockStart index (textPart "")) :=
    ⟨rfl, rfl, _, rfl, rfl, rfl⟩
  have first : DeliversChunk "text_delta" "text" index "Look"
      (blockDelta index "text_delta" "text" "Look") :=
    ⟨by decide, rfl, rfl, _, rfl, rfl, rfl⟩
  have second : DeliversChunk "text_delta" "text" index "ing"
      (blockDelta index "text_delta" "text" "ing") :=
    ⟨by decide, rfl, rfl, _, rfl, rfl, rfl⟩
  have stops : ∀ stop ∈ [blockStop index],
      stop.field "type" = some (.string "content_block_stop") := by
    simp [blockStop, Json.field, Json.findField]
  have pieces : concat ["Look", "ing"] = "Looking" := rfl
  exact .intro starts (.cons first (.cons second .nil)) pieces stops

theorem toolEvents_block {codec : JsonCodec} (index : Nat)
    (parsed : codec.parse "\x7b\"q\":1\x7d" = some sampleInput) :
    BlockEvents codec index sampleTool (toolEvents index) := by
  have starts : StartsBlock index sampleTool (blockStart index (toolPart (.object []))) :=
    ⟨rfl, rfl, _, rfl, rfl, rfl, rfl, rfl⟩
  have first : DeliversChunk "input_json_delta" "partial_json" index "\x7b\"q\""
      (blockDelta index "input_json_delta" "partial_json" "\x7b\"q\"") :=
    ⟨by decide, rfl, rfl, _, rfl, rfl, rfl⟩
  have second : DeliversChunk "input_json_delta" "partial_json" index ":1\x7d"
      (blockDelta index "input_json_delta" "partial_json" ":1\x7d") :=
    ⟨by decide, rfl, rfl, _, rfl, rfl, rfl⟩
  have stops : ∀ stop ∈ [blockStop index],
      stop.field "type" = some (.string "content_block_stop") := by
    simp [blockStop, Json.field, Json.findField]
  have pieces : Pieces codec ["\x7b\"q\"", ":1\x7d"] sampleTool := by
    have joined : concat ["\x7b\"q\"", ":1\x7d"] = "\x7b\"q\":1\x7d" := rfl
    rw [sampleTool, Pieces, joined, if_neg (by decide)]
    exact parsed
  exact .intro starts (.cons first (.cons second .nil)) pieces stops

variable {blocks : List Block}

theorem sample_delivers {events : List Json}
    (isBlocks : BlocksEvents (codecOf blocks events) 0 blocks events)
    (read : (sampleEvents events).all (readBack (sampleKnown blocks events)) = true)
    (kept : events.filter (fun event => !isPing event) = events)
    (stream : (bytesOf events).filter (· ≠ '\r') = bytesOf events) :
    Delivers (codecOf blocks events) (sampleMessage blocks) "tool_use" (bytesOf events) := by
  have reason : stopReasonOf (.object [("stop_reason", .string "tool_use")]) = "tool_use" := by
    decide +kernel
  have core : MessageEvents (codecOf blocks events) (sampleMessage blocks) "tool_use"
      (sampleOpen :: (events ++ [sampleChange])) := by
    rw [← reason]
    exact .intro rfl rfl rfl rfl isBlocks rfl rfl rfl
  refine ⟨_, sampleEvents events, _, sampleStop, [], ?_, carries_sample read, ?_, core, rfl⟩
  · rw [stream, List.append_nil, bytesOf]
  · have others : [sampleChange, sampleStop].filter (fun event => !isPing event) =
        [sampleChange, sampleStop] := by decide +kernel
    have opens : isPing sampleOpen = false := rfl
    have ping : isPing samplePing = true := rfl
    simp [sampleEvents, opens, ping, kept, List.filter_append, others]

theorem sampleMessage_valid (valid : ∀ block ∈ blocks, block.Valid) :
    (sampleMessage blocks).Valid where
  id_some := show "m" ≠ "" by decide
  id_plain := show noNul "m" = true by decide
  role_some := show "assistant" ≠ "" by decide
  role_plain := show noNul "assistant" = true by decide
  blocks := valid

theorem sample_input {events : List Json} :
    (codecOf blocks events).parse "\x7b\"q\":1\x7d" = some sampleInput := by
  have text : "\x7b\"q\":1\x7d" = String.ofList (render sampleInput) := by decide +kernel
  rw [text, codecOf, knownCodec_parse, sampleKnown]
  exact List.find?_cons_of_pos (by simp)

/-- A text block before a tool block: the plain response has an event and the stream has
none. -/
theorem sseToEvent_text_tool :
    ∃ (codec : JsonCodec) (message : Message) (document : Json) (bytes : List Char),
      message.Valid ∧ message.IsDocument document ∧ Delivers codec message "tool_use" bytes ∧
        codec.parse (codec.serialize (message.rebuilt "tool_use")).val =
          some (message.rebuilt "tool_use") ∧
        (responseToEvent codec document).isSome = true ∧ sseToEvent codec bytes = none := by
  let blocks := [sampleText, sampleTool]
  let events := textEvents 0 ++ (toolEvents 1 ++ [])
  have isBlocks : BlocksEvents (codecOf blocks events) 0 blocks events :=
    .cons (textEvents_block _ 0) (.cons (toolEvents_block 1 sample_input) .nil)
  have delivers := sample_delivers isBlocks (by decide +kernel) (by decide +kernel)
    (by decide +kernel)
  have valid : (sampleMessage blocks).Valid := sampleMessage_valid (by decide +kernel)
  have isDocument : (sampleMessage blocks).IsDocument
      (sampleDocument [textPart "Looking", toolPart sampleInput]) :=
    ⟨rfl, _, rfl, .cons ⟨rfl, rfl⟩ (.cons ⟨rfl, rfl, rfl, rfl⟩ .nil)⟩
  have faithful := knownCodec_faithful (sampleKnown blocks events)
    ((sampleMessage blocks).rebuilt "tool_use") (by decide +kernel) (by decide +kernel)
  have mixed : ¬ToolsFirst (sampleMessage blocks).blocks := by
    intro first
    exact absurd ((List.pairwise_cons.mp first).1 sampleTool List.mem_cons_self rfl) (by decide)
  refine ⟨codecOf blocks events, _, _, _, valid, isDocument, delivers, faithful, ?_,
    (sseToEvent_delivers valid delivers faithful).2 mixed⟩
  rw [responseToEvent_document valid isDocument]
  rfl

/-- A tool block before a text block: both give the event. -/
theorem sseToEvent_tool_text :
    ∃ (codec : JsonCodec) (message : Message) (document : Json) (bytes : List Char),
      message.Valid ∧ message.IsDocument document ∧ Delivers codec message "tool_use" bytes ∧
        ToolsFirst message.blocks ∧
        ∃ event, sseToEvent codec bytes = some event ∧
          responseToEvent codec document = some event := by
  let blocks := [sampleTool, sampleText]
  let events := toolEvents 0 ++ (textEvents 1 ++ [])
  have isBlocks : BlocksEvents (codecOf blocks events) 0 blocks events :=
    .cons (toolEvents_block 0 sample_input) (.cons (textEvents_block _ 1) .nil)
  have delivers := sample_delivers isBlocks (by decide +kernel) (by decide +kernel)
    (by decide +kernel)
  have valid : (sampleMessage blocks).Valid := sampleMessage_valid (by decide +kernel)
  have isDocument : (sampleMessage blocks).IsDocument
      (sampleDocument [toolPart sampleInput, textPart "Looking"]) :=
    ⟨rfl, _, rfl, .cons ⟨rfl, rfl, rfl, rfl⟩ (.cons ⟨rfl, rfl⟩ .nil)⟩
  have first : ToolsFirst (sampleMessage blocks).blocks :=
    .cons (by simp [sampleText, sampleTool, Block.isTool]) (.cons (by simp) .nil)
  have faithful := knownCodec_faithful (sampleKnown blocks events)
    ((sampleMessage blocks).rebuilt "tool_use") (by decide +kernel) (by decide +kernel)
  exact ⟨codecOf blocks events, _, _, _, valid, isDocument, delivers, first,
    (sseToEvent_eq_iff valid isDocument delivers faithful).mpr first⟩

end Sample

end TurboAgent.Provider.Anthropic
