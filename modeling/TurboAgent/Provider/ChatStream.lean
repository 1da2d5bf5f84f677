import TurboAgent.Provider.AnthropicStream
import TurboAgent.Provider.Chat
import TurboAgent.Provider.Framing

/-!
# Streams of chat completions

A stream delivers a completion in chunks: the content and the arguments of each call are cut into
pieces, and the pieces of different calls may come in any order.  A slot sees the pieces of its own
index only, so that the response that is put together is the completion.
-/

namespace TurboAgent.Provider.Chat

open Anthropic (ToolCall setIfNonempty appendText appendIfPresent concat concat_cons
  foldl_concat isObject_of_field)
open Logic

/-! ## Completions -/

/-- A string as the accessors read it, up to its first NUL. -/
def cText (text : String) : String :=
  String.ofList (text.toList.takeWhile (· ≠ '\x00'))

structure Call where
  (id name arguments : String)

structure Completion where
  (id content : String)
  calls : List Call

/-- A call has an id and a name, and its arguments have no NUL. -/
structure Call.Valid (call : Call) : Prop where
  id : cText call.id ≠ ""
  name : cText call.name ≠ ""
  arguments : noNul call.arguments = true

structure Completion.Named (completion : Completion) : Prop where
  id : cText completion.id ≠ ""
  calls : ∀ call ∈ completion.calls, call.Valid

structure Completion.Valid (completion : Completion) : Prop extends completion.Named where
  content : noNul completion.content = true

structure Call.IsEntry (call : Call) (entry : Json) : Prop where
  id : entry.field "id" = some (.string call.id)
  function : ∃ function, entry.field "function" = some function ∧
    function.field "name" = some (.string call.name) ∧
    function.field "arguments" = some (.string call.arguments)

structure Completion.IsDocument (completion : Completion) (document : Json) : Prop where
  id : document.field "id" = some (.string completion.id)
  content : (messageOf document).field "content" = some (.string completion.content)
  calls : List.Forall₂ Call.IsEntry completion.calls (toolCallsOf (messageOf document))

/-- The call as it is recorded in a model event. -/
def Call.record (call : Call) : Json :=
  toolCallRecord (cText call.id) (cText call.name) call.arguments

def Completion.event (completion : Completion) : Json :=
  modelEvent (cText completion.id) completion.content (completion.calls.map Call.record)

/-! ## Delivery -/

def deltaOf (chunk : Json) : Json :=
  ((firstChoice chunk).bind (·.field "delta")).getD .null

def piecesOf (chunk : Json) : List Json :=
  toolCallsOf (deltaOf chunk)

def indexOf (piece : Json) : Nat :=
  (getInt piece "index" 0).toNat

def functionOf (piece : Json) : Json :=
  (piece.field "function").getD .null

def textOf (record : Json) (key : String) : String :=
  match record.field key with
  | some (.string text) => text
  | _ => ""

structure IsPiece (count : Nat) (piece : Json) : Prop where
  object : piece.isObject = true
  index : ∃ index < count, piece.field "index" = some (.int index)

/-- A chunk of a completion with so many calls. -/
structure IsChunk (count : Nat) (chunk : Json) : Prop where
  object : chunk.isObject = true
  choice : ∃ choice, firstChoice chunk = some choice ∧ choice.isObject = true
  pieces : ∀ piece ∈ piecesOf chunk, IsPiece count piece

/-- A text that is sent once or more often, and is missing or empty elsewhere. -/
structure Identifies (value : String) (texts : List (Option String)) : Prop where
  others : ∀ text ∈ texts, text = none ∨ text = some "" ∨ text = some value
  sent : some value ∈ texts

structure Call.Pieces (call : Call) (pieces : List Json) : Prop where
  id : Identifies (cText call.id) (pieces.map (·.getString "id"))
  name : Identifies (cText call.name) (pieces.map fun piece => (functionOf piece).getString "name")
  arguments : concat (pieces.map fun piece => textOf (functionOf piece) "arguments") =
    call.arguments

structure Completion.Chunks (completion : Completion) (chunks : List Json) : Prop where
  each : ∀ chunk ∈ chunks, IsChunk completion.calls.length chunk
  id : Identifies (cText completion.id) (chunks.map (·.getString "id"))
  content : concat (chunks.map fun chunk => textOf (deltaOf chunk) "content") = completion.content
  calls : ∀ (index : Nat) (call : Call), completion.calls[index]? = some call →
    call.Pieces ((chunks.flatMap piecesOf).filter fun piece => indexOf piece = index)

structure Carries (codec : JsonCodec) (event : List (List Char)) (chunk : Json) : Prop where
  filled : ∃ first rest, event = first :: rest ∧ first ≠ []
  going : String.ofList (joined event) ≠ "[DONE]"
  parsed : codec.parse (String.ofList (joined event)) = some chunk

/-- A stream of chunks: events with their texts, up to the end or the mark of it. -/
structure Sends (codec : JsonCodec) (chunks : List Json) (bytes : List Char) : Prop where
  stream : ∃ (stream : List (Bool × Option Line)) (events rest : List (List (List Char))),
    bytes = streamText stream ∧ Written (events ++ rest) (stream.map Prod.snd) ∧
    (rest = [] ∨ rest.head? = some ["[DONE]".toList]) ∧ List.Forall₂ (Carries codec) events chunks

structure Delivers (codec : JsonCodec) (completion : Completion) (bytes : List Char) : Prop where
  chunks : ∃ chunks, Sends codec chunks bytes ∧ completion.Chunks chunks

/-! ## The direct path -/

theorem getString_of_string {record : Json} {key text : String}
    (stored : record.field key = some (.string text)) :
    record.getString key = some (cText text) := by
  rw [Json.getString, stored]
  rfl

theorem cText_of_noNul {text : String} (plain : noNul text = true) : cText text = text := by
  have read := @getString_of_string (.object [("", .string text)]) "" text rfl
  exact Option.some.inj (read.symm.trans (Json.getString_of_field rfl plain))

variable {call : Call}

theorem callOf_entry {entry : Json} (valid : call.Valid) (isEntry : call.IsEntry entry) :
    callOf entry = some call.record := by
  obtain ⟨isId, function, isFunction, isName, isArguments⟩ := isEntry
  cases function with
  | object fields =>
      rw [callOf, isFunction]
      simp only [getString_of_string isId, getString_of_string isName,
        getString_of_string isArguments, cText_of_noNul valid.arguments, Call.record]
  | _ => cases isName

theorem filterMap_callOf {calls : List Call} {entries : List Json}
    (valid : ∀ call ∈ calls, call.Valid) (isEntries : List.Forall₂ Call.IsEntry calls entries) :
    entries.filterMap callOf = calls.map Call.record := by
  induction isEntries with
  | nil => rfl
  | @cons call entry _ _ here _ ih =>
      rw [List.filterMap_cons_some (callOf_entry (valid call List.mem_cons_self) here),
        ih fun call member => valid call (List.mem_cons_of_mem _ member), List.map_cons]

theorem event_valid (completion : Completion) : modelEventValid completion.event = true := by
  apply Anthropic.modelEventValid_of_calls
  intro record member
  obtain ⟨call, -, rfl⟩ := List.mem_map.mp member
  rfl

variable {completion : Completion}

theorem responseToEvent_document {document : Json} (valid : completion.Valid)
    (isDocument : completion.IsDocument document) :
    responseToEvent document = some completion.event := by
  have complete := event_valid completion
  have text : extractText (messageOf document) = completion.content := by
    rw [extractText, getString_of_string isDocument.content, cText_of_noNul valid.content]
  rw [Completion.event] at complete
  rw [responseToEvent, isObject_of_field isDocument.id, if_neg (by decide)]
  simp only [getString_of_string isDocument.id, Option.getD_some, text, collectToolCalls,
    filterMap_callOf valid.calls isDocument.calls, complete, if_true, Completion.event]

/-! ## Pieces of calls -/

/-- A text that is set from time to time, and to one value only, is set in the end. -/
theorem foldl_identifies {value : String} {texts : List (Option String)} (filled : value ≠ "")
    (identifies : Identifies value texts) : texts.foldl setIfNonempty none = some value := by
  obtain ⟨others, sent⟩ := identifies
  have kept : ∀ (texts : List (Option String)), (∀ text ∈ texts, text = none ∨ text = some "" ∨
      text = some value) → texts.foldl setIfNonempty (some value) = some value := by
    intro texts
    induction texts with
    | nil => intro _; rfl
    | cons text texts ih =>
        intro others
        have rest := ih fun text member => others text (List.mem_cons_of_mem _ member)
        rw [List.foldl_cons]
        rcases others text List.mem_cons_self with rfl | rfl | rfl
        · exact rest
        · exact rest
        · rw [setIfNonempty, if_neg filled]
          exact rest
  induction texts with
  | nil => cases sent
  | cons text texts ih =>
      have rest := fun text member => others text (List.mem_cons_of_mem _ member)
      rw [List.foldl_cons]
      rcases others text List.mem_cons_self with rfl | rfl | rfl
      · exact ih rest ((List.mem_cons.mp sent).resolve_left (Option.some_ne_none _))
      · refine ih rest ((List.mem_cons.mp sent).resolve_left fun same => ?_)
        exact filled (Option.some.inj same)
      · rw [setIfNonempty, if_neg filled]
        exact kept texts rest

section Pieces

variable {piece : Json} {call : ToolCall}

theorem changeCall_id : (changeCall piece call).id =
    setIfNonempty call.id (piece.getString "id") := by
  unfold changeCall
  split <;> rfl

theorem changeCall_name : (changeCall piece call).name =
    setIfNonempty call.name ((functionOf piece).getString "name") := by
  unfold changeCall functionOf
  split
  next fields stored => rw [stored, Option.getD_some]
  next other =>
    cases stored : piece.field "function" with
    | none => rfl
    | some function =>
        cases function with
        | object fields => exact absurd stored (other fields)
        | _ => rfl

/-- The arguments after a piece; a piece without a function leaves them. -/
def addArguments (piece : Json) (arguments : Option String) : Option String :=
  if (functionOf piece).isObject then
    appendText arguments (((functionOf piece).getString "arguments").getD "")
  else arguments

theorem changeCall_arguments : (changeCall piece call).arguments =
    addArguments piece call.arguments := by
  unfold changeCall addArguments functionOf
  split
  next fields stored => rw [stored, Option.getD_some]; rfl
  next other =>
    cases stored : piece.field "function" with
    | none => rfl
    | some function =>
        cases function with
        | object fields => exact absurd stored (other fields)
        | _ => rfl

end Pieces

@[simp] theorem textOf_null (key : String) : textOf .null key = "" := rfl

variable {record : Json}

theorem textOf_of_not_object (other : record.isObject = false) (key : String) :
    textOf record key = "" := by
  cases record with
  | object fields => cases other
  | _ => rfl

theorem getString_getD_textOf {key : String} (plain : noNul (textOf record key) = true) :
    (record.getString key).getD "" = textOf record key := by
  unfold textOf at plain ⊢
  unfold Json.getString
  cases stored : record.field key with
  | none => rfl
  | some value =>
      cases value with
      | string text =>
          rw [stored] at plain
          exact cText_of_noNul plain
      | _ => rfl

theorem noNul_concat {texts : List String} (plain : noNul (concat texts) = true) :
    ∀ text ∈ texts, noNul text = true := by
  induction texts with
  | nil => simp
  | cons first texts ih =>
      rw [concat_cons] at plain
      have parts : noNul first = true ∧ noNul (concat texts) = true := by
        simpa [noNul, String.toList_append] using plain
      exact List.forall_mem_cons.mpr ⟨parts.1, ih parts.2⟩

variable {pieces : List Json}

theorem foldl_addArguments {start : String}
    (plain : ∀ piece ∈ pieces, noNul (textOf (functionOf piece) "arguments") = true) :
    pieces.foldl (fun arguments piece => addArguments piece arguments) (some start) =
      some (start ++ concat (pieces.map fun piece => textOf (functionOf piece) "arguments")) := by
  induction pieces generalizing start with
  | nil => exact congrArg some String.append_empty.symm
  | cons piece pieces ih =>
      have rest := fun piece member => plain piece (List.mem_cons_of_mem _ member)
      have here := plain piece List.mem_cons_self
      rw [List.foldl_cons, List.map_cons, concat_cons, ← String.append_assoc, ← ih rest,
        addArguments]
      split
      next =>
        rw [appendText, Option.getD_some, getString_getD_textOf here]
      next other =>
        rw [textOf_of_not_object (by simpa using other), String.append_empty]

theorem foldl_addArguments_none
    (plain : ∀ piece ∈ pieces, noNul (textOf (functionOf piece) "arguments") = true)
    (some_function : ∃ piece ∈ pieces, (functionOf piece).isObject = true) :
    pieces.foldl (fun arguments piece => addArguments piece arguments) none =
      some (concat (pieces.map fun piece => textOf (functionOf piece) "arguments")) := by
  induction pieces with
  | nil => simp at some_function
  | cons piece pieces ih =>
      have rest := fun piece member => plain piece (List.mem_cons_of_mem _ member)
      have here := plain piece List.mem_cons_self
      rw [List.foldl_cons, List.map_cons, concat_cons, addArguments]
      split
      next =>
        rw [appendText, Option.getD_none, String.empty_append, getString_getD_textOf here,
          foldl_addArguments rest]
      next other =>
        rw [textOf_of_not_object (by simpa using other), String.empty_append]
        refine ih rest ?_
        obtain ⟨found, member, object⟩ := some_function
        rcases List.mem_cons.mp member with rfl | later
        · exact absurd object other
        · exact ⟨found, later, object⟩

def Holds (call : Call) (slot : ToolCall) : Prop :=
  slot.id = some (cText call.id) ∧ slot.name = some (cText call.name) ∧
    slot.arguments = some call.arguments

theorem isObject_of_getString {key text : String} (read : record.getString key = some text) :
    record.isObject = true := by
  unfold Json.getString at read
  split at read
  next stored => exact isObject_of_field stored
  next => cases read

theorem foldl_field {β : Type} (field : ToolCall → β) (step : β → Json → β)
    (each : ∀ piece slot, field (changeCall piece slot) = step (field slot) piece)
    (pieces : List Json) (slot : ToolCall) :
    field (pieces.foldl (fun slot piece => changeCall piece slot) slot) =
      pieces.foldl step (field slot) :=
  (List.foldl_hom field fun slot piece => (each piece slot).symm).symm

theorem Call.Pieces.holds (isPieces : call.Pieces pieces) (valid : call.Valid) :
    Holds call (pieces.foldl (fun slot piece => changeCall piece slot) .empty) := by
  refine ⟨?_, ?_, ?_⟩
  · rw [foldl_field ToolCall.id (fun id piece => setIfNonempty id (piece.getString "id"))
      (fun _ _ => changeCall_id), ← foldl_identifies valid.id isPieces.id, List.foldl_map]
    rfl
  · rw [foldl_field ToolCall.name
      (fun name piece => setIfNonempty name ((functionOf piece).getString "name"))
      (fun _ _ => changeCall_name), ← foldl_identifies valid.name isPieces.name, List.foldl_map]
    rfl
  · have whole := valid.arguments
    rw [← isPieces.arguments] at whole
    have plain : ∀ piece ∈ pieces, noNul (textOf (functionOf piece) "arguments") = true :=
      fun piece member => noNul_concat whole _ (List.mem_map.mpr ⟨piece, member, rfl⟩)
    obtain ⟨named, member, read⟩ := List.mem_map.mp isPieces.name.sent
    rw [foldl_field ToolCall.arguments (fun arguments piece => addArguments piece arguments)
      (fun _ _ => changeCall_arguments), ← isPieces.arguments]
    exact foldl_addArguments_none plain ⟨named, member, isObject_of_getString read⟩

/-! ## Chunks -/

variable {index : Nat}

theorem getInt_indexOf {piece : Json} (stored : piece.field "index" = some (.int index))
    (default : Int) : getInt piece "index" default = index := by
  simp [getInt, stored]

theorem indexOf_eq {piece : Json} (stored : piece.field "index" = some (.int index)) :
    indexOf piece = index := by
  rw [indexOf, getInt_indexOf stored, Int.toNat_natCast]

variable {count : Nat}

theorem foldlM_applyPiece (isPieces : ∀ piece ∈ pieces, IsPiece count piece) (position : Nat)
    (slots : List ToolCall) :
    (pieces.zipIdx position).foldlM applyPiece slots =
      some (Slots.run .empty indexOf changeCall slots pieces) := by
  induction pieces generalizing position slots with
  | nil => rfl
  | cons piece pieces ih =>
      obtain ⟨object, index, -, stored⟩ := isPieces piece List.mem_cons_self
      have here : applyPiece slots (piece, position) =
          some (Slots.update .empty slots (indexOf piece) (changeCall piece)) := by
        rw [applyPiece]
        simp only [object, getInt_indexOf stored, indexOf_eq stored, Int.toNat_natCast]
        rw [if_neg (by decide), if_neg (by omega)]
        rfl
      rw [List.zipIdx_cons, List.foldlM_cons, here]
      exact ih (fun piece member => isPieces piece (List.mem_cons_of_mem _ member)) _ _

def afterChunk (state : StreamState) (chunk : Json) : StreamState where
  id := setIfNonempty state.id (chunk.getString "id")
  role := setIfNonempty state.role ((deltaOf chunk).getString "role")
  content := appendIfPresent state.content ((deltaOf chunk).getString "content")
  finishReason := setIfNonempty state.finishReason
    (((firstChoice chunk).getD .null).getString "finish_reason")
  toolCalls := Slots.run .empty indexOf changeCall state.toolCalls (piecesOf chunk)

theorem getString_of_not_object (other : record.isObject = false) (key : String) :
    record.getString key = none := by
  cases record with
  | object fields => cases other
  | _ => rfl

theorem toolCallsOf_of_not_object (other : record.isObject = false) : toolCallsOf record = [] := by
  cases record with
  | object fields => cases other
  | _ => rfl

theorem applyChunk_eq {chunk : Json} (isChunk : IsChunk count chunk) (state : StreamState) :
    applyChunk state chunk = some (afterChunk state chunk) := by
  obtain ⟨object, ⟨choice, first, isChoice⟩, isPieces⟩ := isChunk
  cases choice with
  | object fields =>
      have delta : (Json.field (.object fields) "delta").getD .null = deltaOf chunk := by
        rw [deltaOf, first]
        rfl
      rw [applyChunk, if_neg (by simp [object]), first]
      simp only [delta, applyDelta, afterChunk, piecesOf, first, Option.getD_some]
      split
      next other =>
        rw [getString_of_not_object other, getString_of_not_object other,
          toolCallsOf_of_not_object other]
        rfl
      next =>
        rw [← piecesOf, foldlM_applyPiece isPieces]
        rfl
  | _ => cases isChoice

structure Complete (completion : Completion) (state : StreamState) : Prop where
  id : state.id = some (cText completion.id)
  content : state.content.getD "" = completion.content
  calls : List.Forall₂ Holds completion.calls state.toolCalls

section Complete

variable {completion : Completion} {chunks : List Json}

theorem Completion.Chunks.state_id (isChunks : completion.Chunks chunks)
    (valid : completion.Valid) :
    (chunks.foldl afterChunk .initial).id = some (cText completion.id) := by
  have read : chunks.foldl (fun id chunk => setIfNonempty id (chunk.getString "id"))
      StreamState.initial.id = (chunks.foldl afterChunk .initial).id :=
    List.foldl_hom StreamState.id fun _ _ => rfl
  rw [← read, ← foldl_identifies valid.id isChunks.id, List.foldl_map]
  rfl

theorem appendIfPresent_getD (buffer text : Option String) :
    (appendIfPresent buffer text).getD "" = buffer.getD "" ++ text.getD "" := by
  cases text with
  | none => exact String.append_empty.symm
  | some text => rfl

theorem Completion.Chunks.state_content (isChunks : completion.Chunks chunks)
    (valid : completion.Valid) :
    (chunks.foldl afterChunk .initial).content.getD "" = completion.content := by
  have whole := valid.content
  rw [← isChunks.content] at whole
  have read : chunks.foldl
      (fun buffer chunk => buffer ++ ((deltaOf chunk).getString "content").getD "")
        (StreamState.initial.content.getD "") = (chunks.foldl afterChunk .initial).content.getD "" :=
    List.foldl_hom (fun state : StreamState => state.content.getD "")
      fun _ _ => (appendIfPresent_getD _ _).symm
  have same : chunks.map (fun chunk => ((deltaOf chunk).getString "content").getD "") =
      chunks.map fun chunk => textOf (deltaOf chunk) "content" :=
    List.map_congr_left fun chunk member =>
      getString_getD_textOf (noNul_concat whole _ (List.mem_map.mpr ⟨chunk, member, rfl⟩))
  rw [← read, ← isChunks.content, ← same, concat, List.foldl_map]
  rfl

theorem foldl_afterChunk_toolCalls (chunks : List Json) (state : StreamState) :
    (chunks.foldl afterChunk state).toolCalls =
      Slots.run .empty indexOf changeCall state.toolCalls (chunks.flatMap piecesOf) := by
  induction chunks generalizing state with
  | nil => rfl
  | cons chunk chunks ih =>
      rw [List.foldl_cons, ih, List.flatMap_cons, Slots.run_append]
      rfl

theorem Completion.Chunks.slots (isChunks : completion.Chunks chunks) :
    (chunks.foldl afterChunk .initial).toolCalls.length = completion.calls.length := by
  rw [foldl_afterChunk_toolCalls]
  apply Slots.length_run
  · intro piece member
    obtain ⟨chunk, among, inside⟩ := List.mem_flatMap.mp member
    obtain ⟨index, below, stored⟩ := ((isChunks.each chunk among).pieces piece inside).index
    rw [indexOf_eq stored]
    exact below
  · intro index below
    have isPieces := isChunks.calls index _ (List.getElem?_eq_getElem below)
    obtain ⟨piece, member, -⟩ := List.mem_map.mp isPieces.id.sent
    obtain ⟨among, same⟩ := List.mem_filter.mp member
    exact ⟨piece, among, of_decide_eq_true same⟩

theorem Completion.Chunks.complete (isChunks : completion.Chunks chunks)
    (valid : completion.Valid) : Complete completion (chunks.foldl afterChunk .initial) := by
  refine ⟨isChunks.state_id valid, isChunks.state_content valid,
    List.forall₂_iff_get.mpr ⟨isChunks.slots.symm, fun index inside there => ?_⟩⟩
  have held := @Slots.getElem?_of_look _ ToolCall.empty _ _ there
  rw [foldl_afterChunk_toolCalls, Slots.look_run] at held
  have call := List.getElem?_eq_getElem inside
  have holds := (isChunks.calls index _ call).holds
    (valid.calls _ (List.getElem_mem inside))
  rw [List.get_eq_getElem, List.get_eq_getElem]
  rw [← foldl_afterChunk_toolCalls, List.getElem?_eq_getElem there] at held
  rw [Option.some.inj held]
  exact holds

end Complete

/-! ## The response -/

def Call.read (call : Call) : Call :=
  ⟨cText call.id, cText call.name, call.arguments⟩

def Completion.read (completion : Completion) : Completion :=
  ⟨cText completion.id, completion.content, completion.calls.map Call.read⟩

theorem noNul_cText (text : String) : noNul (cText text) = true := by
  simp only [noNul, cText, String.toList_ofList, Bool.not_eq_true', List.contains_eq_mem,
    decide_eq_false_iff_not]
  intro member
  have other := List.mem_takeWhile_imp member
  simp at other

theorem cText_cText (text : String) : cText (cText text) = cText text :=
  cText_of_noNul (noNul_cText text)

theorem Call.Valid.read (valid : call.Valid) : call.read.Valid where
  id := by rw [Call.read, cText_cText]; exact valid.id
  name := by rw [Call.read, cText_cText]; exact valid.name
  arguments := valid.arguments

theorem Call.record_read (call : Call) : call.read.record = call.record := by
  rw [Call.record, Call.record, Call.read, cText_cText, cText_cText]

section Response

variable {completion : Completion} {state : StreamState}

theorem Completion.Valid.read (valid : completion.Valid) : completion.read.Valid where
  id := by rw [Completion.read, cText_cText]; exact valid.id
  content := valid.content
  calls := by
    intro call member
    obtain ⟨call, known, rfl⟩ := List.mem_map.mp member
    exact (valid.calls call known).read

theorem Completion.event_read (completion : Completion) :
    completion.read.event = completion.event := by
  rw [Completion.event, Completion.event, Completion.read, cText_cText, List.map_map]
  exact congrArg (modelEvent (cText completion.id) completion.content)
    (List.map_congr_left fun call _ => call.record_read)

theorem mapM_slotEntry {calls : List Call} {slots : List ToolCall}
    (holds : List.Forall₂ Holds calls slots) :
    ∃ entries, slots.mapM slotEntry = some entries ∧
      List.Forall₂ Call.IsEntry (calls.map Call.read) entries := by
  induction holds with
  | nil => exact ⟨[], rfl, .nil⟩
  | @cons call slot calls slots here _ ih =>
      obtain ⟨entries, mapped, isEntries⟩ := ih
      obtain ⟨id, name, arguments⟩ := here
      obtain ⟨entry, made, isEntry⟩ : ∃ entry, slotEntry slot = some entry ∧
          call.read.IsEntry entry := by
        rw [slotEntry, id, name, arguments]
        exact ⟨_, rfl, rfl, _, rfl, rfl, rfl⟩
      refine ⟨entry :: entries, ?_, .cons isEntry isEntries⟩
      rw [List.mapM_cons, made, mapped]
      rfl

theorem buildResponse_complete (complete : Complete completion state) :
    ∃ response, buildResponse state = some response ∧ completion.read.IsDocument response := by
  obtain ⟨entries, mapped, isEntries⟩ := mapM_slotEntry complete.calls
  rw [buildResponse, complete.id, mapped]
  refine ⟨_, rfl, ⟨rfl, ?_, ?_⟩⟩
  · rw [complete.content]
    split <;> rfl
  · split
    next empty =>
      rw [empty] at mapped
      cases mapped
      exact isEntries
    next => exact isEntries

end Response

/-! ## Frames -/

section Frames

variable {codec : JsonCodec}

theorem applyData_filled (texts : List (List Char)) (state : StreamState) (saw : Bool) :
    applyData codec texts state saw = applyData codec (texts.filter (· ≠ [])) state saw := by
  induction texts generalizing state saw with
  | nil => rfl
  | cons text texts ih =>
      by_cases empty : text = []
      · subst empty
        rw [List.filter_cons_of_neg (by simp), ← ih, applyData, if_neg (by decide), if_pos rfl]
      · rw [List.filter_cons_of_pos (by simpa using empty), applyData, applyData, if_neg empty]
        split
        next => rfl
        next => simp only [ih]

theorem collectEventData_of_no_data {frame : List Char} (none : frameData frame = []) :
    collectEventData frame = [] := by
  rw [collectEventData_eq, none]
  rfl

theorem filled_data (text : List Char) :
    ((framesOf (normalizeNewlines text)).map collectEventData).filter (· ≠ []) =
      (recovered text).filter (· ≠ []) := by
  rw [recovered, List.filter_map, List.filter_map, List.filter_filter]
  refine congrArg (List.map collectEventData) (List.filter_congr fun frame _ => ?_)
  by_cases none : frameData frame = []
  · simp [collectEventData_of_no_data none]
  · simp [none]

variable {chunks : List Json}

theorem applyData_carried {events rest : List (List (List Char))}
    (carries : List.Forall₂ (Carries codec) events chunks)
    (isChunks : ∀ chunk ∈ chunks, IsChunk count chunk)
    (ending : rest = [] ∨ rest.head? = some ["[DONE]".toList]) (state : StreamState) (saw : Bool) :
    applyData codec (((events ++ rest).map fun event => event.foldl gather []).filter (· ≠ []))
        state saw =
      some (chunks.foldl afterChunk state, saw || !chunks.isEmpty) := by
  induction carries generalizing state saw with
  | nil =>
      rw [List.nil_append, List.isEmpty_nil, Bool.not_true, Bool.or_false]
      rcases ending with rfl | done
      · rfl
      · cases rest with
        | nil => cases done
        | cons first rest =>
            obtain rfl := Option.some.inj done
            rw [List.map_cons, List.filter_cons_of_pos (by decide), applyData, if_pos (by decide)]
            rfl
  | @cons event chunk events chunks here _ ih =>
      obtain ⟨⟨first, others, rfl, filled⟩, going, parsed⟩ := here
      have gathered : (first :: others).foldl gather [] = joined (first :: others) :=
        (foldl_gather_iff _).mpr (.inr (by simpa using filled))
      have some_text : joined (first :: others) ≠ [] := by
        rw [← gathered, List.foldl_cons, gather, if_pos rfl, List.nil_append,
          foldl_gather filled]
        intro empty
        cases others with
        | nil =>
            rw [joined, List.intercalate_singleton] at empty
            exact filled empty
        | cons second others =>
            have lengths := joined_length_cons first (List.cons_ne_nil second others)
            rw [empty, List.length_nil] at lengths
            omega
      rw [List.cons_append, List.map_cons, gathered,
        List.filter_cons_of_pos (by simpa using some_text), applyData, if_neg going,
        if_neg some_text, parsed]
      simp only [applyChunk_eq (isChunks chunk List.mem_cons_self)]
      rw [ih fun chunk member => isChunks chunk (List.mem_cons_of_mem _ member)]
      simp

theorem sseToResponse_sends {bytes : List Char} (sends : Sends codec chunks bytes)
    (isChunks : ∀ chunk ∈ chunks, IsChunk count chunk) (some_chunk : chunks ≠ []) :
    sseToResponse codec bytes = buildResponse (chunks.foldl afterChunk .initial) := by
  obtain ⟨stream, events, rest, rfl, written, ending, carries⟩ := sends.stream
  have applied := applyData_carried carries isChunks ending .initial false
  rw [← recovered_streamText written, ← filled_data, ← applyData_filled,
    List.isEmpty_eq_false_iff.mpr some_chunk] at applied
  rw [sseToResponse, applied]
  rfl

theorem Completion.Chunks.some_chunk (isChunks : completion.Chunks chunks) : chunks ≠ [] := by
  rintro rfl
  cases isChunks.id.sent

theorem sseToResponse_delivers {bytes : List Char} (valid : completion.Valid)
    (delivers : Delivers codec completion bytes) :
    ∃ response, sseToResponse codec bytes = some response ∧
      completion.read.IsDocument response := by
  obtain ⟨chunks, sends, isChunks⟩ := delivers.chunks
  rw [sseToResponse_sends sends isChunks.each isChunks.some_chunk]
  exact buildResponse_complete (isChunks.complete valid)

end Frames

/-! ## Completions in chunks -/

section Sample

/-- A codec that knows a table of texts and documents. -/
def tableCodec (table : List (List Char × Json)) : JsonCodec where
  serialize value :=
    let text := String.ofList (((table.find? fun entry => entry.2 == value).map Prod.fst).getD [])
    if plain : noNul text = true then ⟨text, plain⟩ else ⟨"", noNul_empty⟩
  parse text := (table.find? fun entry => entry.1 == text.toList).map Prod.snd

theorem tableCodec_parse (table : List (List Char × Json)) (chars : List Char) :
    (tableCodec table).parse (String.ofList chars) =
      (table.find? fun entry => entry.1 == chars).map Prod.snd := by
  simp only [tableCodec, String.toList_ofList]

variable {table : List (List Char × Json)}

theorem tableCodec_faithful {value : Json} (text : List Char)
    (found : table.find? (fun entry => entry.2 == value) = some (text, value))
    (back : table.find? (fun entry => entry.1 == text) = some (text, value))
    (plain : text.contains '\x00' = false) :
    (tableCodec table).parse ((tableCodec table).serialize value).val = some value := by
  have text' : noNul (String.ofList text) = true := by simpa [noNul] using plain
  have written : ((tableCodec table).serialize value).val = String.ofList text := by
    simp [tableCodec, found, text']
  rw [written, tableCodec_parse, back]
  rfl

def textStream (texts : List (List Char)) : List (Bool × Option Line) :=
  texts.flatMap fun text => [(false, some (.data true text)), (true, none)]

/-- The text of a chunk that can stand in an event of one line. -/
def plainChunk (text : List Char) : Bool :=
  text ≠ [] && text ≠ "[DONE]".toList && text.head? ≠ some ' ' &&
    text.all fun ch => ch ≠ '\n' && ch ≠ '\r' && ch ≠ '\x00'

variable {texts : List (List Char)}

theorem textStream_written (plain : texts.all plainChunk = true) :
    Written (texts.map fun text => [text]) ((textStream texts).map Prod.snd) := by
  induction texts with
  | nil => exact .nil
  | cons text texts ih =>
      simp only [List.all_cons, Bool.and_eq_true] at plain
      obtain ⟨here, rest⟩ := plain
      simp only [plainChunk, Bool.and_eq_true, decide_eq_true_eq, List.all_eq_true, ne_eq] at here
      obtain ⟨⟨-, head⟩, chars⟩ := here
      have line : (Line.data true text).Writable :=
        ⟨fun ch member => and_assoc.mp (chars ch member), head⟩
      exact @Written.event _ _ [.data true text] (List.forall_mem_singleton.mpr line)
        (List.cons_ne_nil _ _) (by simp) (.blank (ih rest))

theorem textStream_carries {chunks : List Json} (plain : texts.all plainChunk = true)
    (parsed : texts.map (fun text => (table.find? fun entry => entry.1 == text).map Prod.snd) =
      chunks.map some) :
    List.Forall₂ (Carries (tableCodec table)) (texts.map fun text => [text]) chunks := by
  induction texts generalizing chunks with
  | nil =>
      cases chunks with
      | nil => exact .nil
      | cons chunk chunks => cases parsed
  | cons text texts ih =>
      cases chunks with
      | nil => cases parsed
      | cons chunk chunks =>
          simp only [List.all_cons, Bool.and_eq_true] at plain
          obtain ⟨here, rest⟩ := plain
          rw [List.map_cons, List.map_cons, List.cons.injEq] at parsed
          simp only [plainChunk, Bool.and_eq_true, decide_eq_true_eq, ne_eq] at here
          have text' : joined [text] = text := List.intercalate_singleton ..
          refine .cons ⟨⟨text, [], rfl, here.1.1.1⟩, ?_, ?_⟩ (ih rest parsed.2)
          · rw [text']
            intro done
            exact here.1.1.2 (by rw [← done, String.toList_ofList])
          · rw [text', tableCodec_parse]
            exact parsed.1

theorem textStream_sends {chunks : List Json} (plain : texts.all plainChunk = true)
    (parsed : texts.map (fun text => (table.find? fun entry => entry.1 == text).map Prod.snd) =
      chunks.map some) : Sends (tableCodec table) chunks (streamText (textStream texts)) :=
  ⟨_, _, [], rfl, by rw [List.append_nil]; exact textStream_written plain, .inl rfl,
    textStream_carries plain parsed⟩

def chunkOf (id content : String) (pieces : List Json) : Json :=
  .object [("id", .string id), ("choices", .array [.object [("delta", .object
    [("content", .string content), ("tool_calls", .array pieces)])]])]

def pieceOf (index : Nat) (id name arguments : String) : Json :=
  .object [("index", .int index), ("id", .string id), ("function", .object
    [("name", .string name), ("arguments", .string arguments)])]

def sampleCompletion : Completion :=
  ⟨"c", "hi", [⟨"a", "f", "xy"⟩, ⟨"b", "g", ""⟩]⟩

def sampleChunks : List Json :=
  [chunkOf "c" "h" [pieceOf 1 "b" "g" ""], chunkOf "" "" [pieceOf 0 "a" "f" "x"],
    chunkOf "c" "i" [pieceOf 0 "" "" "y"]]

theorem isChunk_chunkOf {id content : String} (isPieces : ∀ piece ∈ pieces, IsPiece count piece) :
    IsChunk count (chunkOf id content pieces) :=
  ⟨rfl, ⟨_, rfl, rfl⟩, isPieces⟩

theorem isPiece_pieceOf {id name arguments : String} (below : index < count) :
    IsPiece count (pieceOf index id name arguments) :=
  ⟨rfl, index, below, rfl⟩

theorem sampleChunks_chunks : sampleCompletion.Chunks sampleChunks where
  each := by
    simp only [sampleChunks, List.forall_mem_cons]
    exact ⟨isChunk_chunkOf (List.forall_mem_singleton.mpr (isPiece_pieceOf (by decide))),
      isChunk_chunkOf (List.forall_mem_singleton.mpr (isPiece_pieceOf (by decide))),
      isChunk_chunkOf (List.forall_mem_singleton.mpr (isPiece_pieceOf (by decide))),
      List.forall_mem_nil _⟩
  id := ⟨by decide, by decide⟩
  content := by decide
  calls := by
    intro index call found
    rcases index with _ | _ | index
    · cases found
      exact ⟨⟨by decide, by decide⟩, ⟨by decide, by decide⟩, by decide⟩
    · cases found
      exact ⟨⟨by decide, by decide⟩, ⟨by decide, by decide⟩, by decide⟩
    · cases found

def Completion.document (completion : Completion) : Json :=
  .object [("id", .string completion.id), ("choices", .array [.object [("message", .object
    [("content", .string completion.content), ("tool_calls", .array (completion.calls.map
      fun call => .object [("id", .string call.id), ("type", .string "function"),
        ("function", .object [("name", .string call.name),
          ("arguments", .string call.arguments)])]))])]])]

theorem Completion.document_isDocument (completion : Completion) :
    completion.IsDocument completion.document where
  id := rfl
  content := rfl
  calls := by
    refine List.forall₂_map_right_iff.mpr (List.forall₂_same.mpr fun call _ => ?_)
    exact ⟨rfl, _, rfl, rfl, rfl⟩

/-- The response that is put together from chunks. -/
def rebuiltFrom (chunks : List Json) : Json :=
  (buildResponse (chunks.foldl afterChunk .initial)).getD .null

end Sample

/-- A stream of a completion gives the event of the plain response. -/
theorem sseToEvent_reassembles {codec : JsonCodec} {completion : Completion} {document : Json}
    {bytes : List Char} (valid : completion.Valid) (isDocument : completion.IsDocument document)
    (delivers : Delivers codec completion bytes)
    (faithful : ∀ response, sseToResponse codec bytes = some response →
      codec.parse (codec.serialize response).val = some response) :
    sseToEvent codec bytes = some completion.event ∧
      responseToEvent document = some completion.event := by
  refine ⟨?_, responseToEvent_document valid isDocument⟩
  obtain ⟨response, built, isResponse⟩ := sseToResponse_delivers valid delivers
  rw [sseToEvent, sseToJson, built, Option.map_some]
  simp only [faithful response built]
  rw [responseToEvent_document valid.read isResponse, completion.event_read]

/-- The table of the chunks of the sample, and of the response that they are put together to. -/
def sampleTable : List (List Char × Json) :=
  (rebuiltFrom sampleChunks :: sampleChunks).map fun value => (render value, value)

theorem sample_sends :
    Sends (tableCodec sampleTable) sampleChunks (streamText (textStream (sampleChunks.map render))) :=
  textStream_sends (by decide +kernel) (by decide +kernel)

theorem sample_faithful (response : Json) (built : sseToResponse (tableCodec sampleTable)
      (streamText (textStream (sampleChunks.map render))) = some response) :
    (tableCodec sampleTable).parse ((tableCodec sampleTable).serialize response).val =
      some response := by
  rw [sseToResponse_sends sample_sends sampleChunks_chunks.each sampleChunks_chunks.some_chunk]
    at built
  have known : buildResponse (sampleChunks.foldl afterChunk .initial) =
      some (rebuiltFrom sampleChunks) := by
    decide
  obtain rfl := Option.some.inj (known.symm.trans built)
  exact tableCodec_faithful (render (rebuiltFrom sampleChunks)) (by decide +kernel)
    (by decide +kernel) (by decide +kernel)

theorem sampleCompletion_valid : sampleCompletion.Valid where
  id := by decide
  calls := by
    simp only [sampleCompletion, List.forall_mem_cons]
    exact ⟨⟨by decide, by decide, by decide⟩, ⟨by decide, by decide, by decide⟩,
      List.forall_mem_nil _⟩
  content := by decide

theorem sseToEvent_reassembles_sample :
    sseToEvent (tableCodec sampleTable) (streamText (textStream (sampleChunks.map render))) =
        some sampleCompletion.event ∧
      responseToEvent sampleCompletion.document = some sampleCompletion.event :=
  sseToEvent_reassembles sampleCompletion_valid sampleCompletion.document_isDocument
    ⟨sampleChunks, sample_sends, sampleChunks_chunks⟩ sample_faithful

def nulCompletion : Completion :=
  ⟨"c", "a\x00b", []⟩

/-- Its chunks; the content is cut behind the NUL. -/
def nulChunks : List Json :=
  [chunkOf "c" "a\x00" [], chunkOf "c" "b" []]

def nulText : List Char :=
  (render (chunkOf "c" "a\x00" [])).flatMap fun ch =>
    if ch = '\x00' then ['\\', 'u', '0', '0', '0', '0'] else [ch]

def nulTexts : List (List Char) :=
  [nulText, render (chunkOf "c" "b" [])]

/-- The table of the chunks and of the response that they are put together to. -/
def nulTable : List (List Char × Json) :=
  (render (rebuiltFrom nulChunks), rebuiltFrom nulChunks) :: nulTexts.zip nulChunks

theorem nulChunks_chunks : nulCompletion.Chunks nulChunks where
  each := by
    simp only [nulChunks, List.forall_mem_cons]
    exact ⟨isChunk_chunkOf (List.forall_mem_nil _), isChunk_chunkOf (List.forall_mem_nil _),
      List.forall_mem_nil _⟩
  id := ⟨by decide, by decide⟩
  content := by decide
  calls := by
    intro index call found
    cases found

theorem nul_sends : Sends (tableCodec nulTable) nulChunks (streamText (textStream nulTexts)) :=
  textStream_sends (by decide +kernel) (by decide +kernel)

theorem nul_response : sseToResponse (tableCodec nulTable) (streamText (textStream nulTexts)) =
    some (rebuiltFrom nulChunks) := by
  rw [sseToResponse_sends nul_sends nulChunks_chunks.each nulChunks_chunks.some_chunk]
  decide

theorem nul_faithful : (tableCodec nulTable).parse
    ((tableCodec nulTable).serialize (rebuiltFrom nulChunks)).val =
      some (rebuiltFrom nulChunks) :=
  tableCodec_faithful (render (rebuiltFrom nulChunks)) (by decide +kernel)
    (by decide +kernel) (by decide +kernel)

/-- What stands behind a NUL is lost in the plain response, and not in the stream. -/
theorem sseToEvent_nul : ¬ ∀ (codec : JsonCodec) (completion : Completion) (document : Json)
    (bytes : List Char), completion.Named → completion.IsDocument document →
    Delivers codec completion bytes →
    (∀ response, sseToResponse codec bytes = some response →
      codec.parse (codec.serialize response).val = some response) →
    sseToEvent codec bytes = responseToEvent document := by
  intro all
  have same := all (tableCodec nulTable) nulCompletion nulCompletion.document
    (streamText (textStream nulTexts)) ⟨by decide, List.forall_mem_nil _⟩
    nulCompletion.document_isDocument ⟨nulChunks, nul_sends, nulChunks_chunks⟩ (by
      intro response built
      obtain rfl := Option.some.inj (nul_response.symm.trans built)
      exact nul_faithful)
  rw [sseToEvent, sseToJson, nul_response, Option.map_some] at same
  simp only [nul_faithful] at same
  exact absurd same (by decide)

end TurboAgent.Provider.Chat
