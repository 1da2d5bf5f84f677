import TurboAgent.Chain.Agreement

/-!
# Whole runs of a chain

A tool step runs the request whose number is the number of results, and one more result is kept
if it succeeds, so a run on a plain state enters the callbacks of consecutive requests.  A run on
a bound state that stays clear of the differences between the branches enters the same ones.
-/

namespace TurboAgent.Chain

/-! ## Requests in order -/

/-- The request that a callback was entered for. -/
def Invocation.request : Invocation → Option Nat
  | .model _ _ => none
  | .textTool request _ _ => some request
  | .jsonValueTool request _ _ => some request

/-- The requests that callbacks were entered for. -/
def requests (calls : List Invocation) : List Nat :=
  calls.filterMap Invocation.request

theorem requests_append (before after : List Invocation) :
    requests (before ++ after) = requests before ++ requests after :=
  List.filterMap_append

structure KeepsResults (state next : Json) : Prop where
  object : next.isObject = true
  results : elements next "tool_results" = elements state "tool_results"

namespace KeepsResults

variable {state next : Json}

theorem refl (object : state.isObject = true) : KeepsResults state state :=
  ⟨object, rfl⟩

theorem require (keeps : KeepsResults state next) (key : String) :
    KeepsResults state (stateRequireArray next key) where
  object := (isObject_require next key).trans keeps.object
  results := (elements_require keeps.object key _).trans keeps.results

theorem add (keeps : KeepsResults state next) {key : String} (other : key ≠ "tool_results")
    (element : Json) : KeepsResults state (addElement next key element) where
  object := (isObject_addElement next key element).trans keeps.object
  results := by rw [elements_add keeps.object, if_neg other, keeps.results]

theorem appendMessage (keeps : KeepsResults state next) (role content : String) :
    KeepsResults state (appendMessage next role content) :=
  (keeps.require "messages").add (by decide) _

theorem requireInput (keeps : KeepsResults state next) :
    KeepsResults state (stateRequireObject next "input") := by
  obtain ⟨object, _, others⟩ := stateRequireObject_input keeps.object
  exact ⟨object, (others _ (by decide)).trans keeps.results⟩

theorem storeOutput (keeps : KeepsResults state next) (outputText : Option CString) :
    KeepsResults state (storeOutput next outputText) := by
  cases outputText with
  | none => exact keeps
  | some text =>
      exact ((keeps.appendMessage "assistant" text.val).require "model_outputs").add (by decide) _

end KeepsResults

/-- A step enters a callback at most for the next request, and has a result for it if it
succeeds. -/
structure Counted (state : Json) (ran : Ran) : Prop where
  calls : requests ran.calls = [] ∨ requests ran.calls = [(elements state "tool_results").length]
  object : ran.status = .ok → ran.state.isObject = true
  results : ran.status = .ok → (elements ran.state "tool_results").length =
    (elements state "tool_results").length + (requests ran.calls).length

section

variable {library : Library} {state next : Json}

theorem Counted.of_keeps {ran : Ran} (none : requests ran.calls = [])
    (keeps : ran.status = .ok → KeepsResults state ran.state) : Counted state ran where
  calls := .inl none
  object := fun ok => (keeps ok).object
  results := fun ok => by rw [(keeps ok).results, none, List.length_nil, Nat.add_zero]

theorem Counted.of_result {calls : List Invocation} {record : Json}
    (one : requests calls = [(elements state "tool_results").length])
    (keeps : KeepsResults state next) :
    Counted state ⟨.ok, addElement (stateRequireArray next "tool_results") "tool_results" record,
      calls⟩ where
  calls := .inr one
  object := fun _ => (isObject_addElement _ _ _).trans (keeps.require "tool_results").object
  results := fun _ => by
    have required := keeps.require "tool_results"
    rw [elements_add required.object, if_pos rfl, required.results, List.length_append, one]
    rfl

theorem promptStep_counted (object : state.isObject = true) (role templateText : String) :
    Counted state (promptStepRun library role templateText state) := by
  have required := (KeepsResults.refl object).requireInput
  unfold promptStepRun
  dsimp only
  split
  next => exact .of_keeps rfl (by simp)
  next rendered _ => exact .of_keeps rfl fun _ => required.appendMessage role rendered

theorem modelStep_counted (object : state.isObject = true) (index : Nat) (model : Model) :
    Counted state (modelStepRun library index model state) := by
  have required := (KeepsResults.refl object).require "messages"
  unfold modelStepRun
  split
  next invoke _ =>
    dsimp only
    split
    next => exact .of_keeps rfl (by simp)
    next result _ =>
      have stored := required.storeOutput result.outputText
      split
      next => exact .of_keeps rfl fun _ => stored
      next => exact .of_keeps rfl fun _ => (stored.require _).add (by decide) _
  next invoke _ _ =>
    dsimp only
    split
    next => exact .of_keeps rfl (by simp)
    next result _ =>
      have stored := required.storeOutput result.outputText
      split
      next => exact .of_keeps rfl fun _ => stored
      next => exact .of_keeps rfl fun _ => (stored.require _).add (by decide) _
  next => exact .of_keeps rfl (by simp)

theorem runText_counted (keeps : KeepsResults state next) (tools : List Tool) (name : String)
    (argumentsJson : Option String) :
    Counted state (runTextRequest tools (elements state "tool_results").length name argumentsJson
      next) := by
  unfold runTextRequest execute
  cases textCallback tools name with
  | none => exact .of_keeps rfl (by simp)
  | some callback =>
      dsimp only
      cases callback (argumentsJson.getD noArguments) with
      | none => exact ⟨.inr rfl, by simp, by simp⟩
      | some output => exact .of_result rfl (keeps.appendMessage "tool" (output.getD ""))

theorem runValue_counted (keeps : KeepsResults state next) (tools : List Tool) (name : String)
    (arguments : Json) :
    Counted state (runValueRequest library tools (elements state "tool_results").length name
      arguments next) := by
  unfold runValueRequest executeJsonValue
  cases jsonValueCallback tools name with
  | none => exact .of_keeps rfl (by simp)
  | some callback =>
      dsimp only
      cases callback arguments with
      | none => exact ⟨.inr rfl, by simp, by simp⟩
      | some output =>
          cases output with
          | none => exact ⟨.inr rfl, by simp, by simp⟩
          | some output => exact .of_result rfl (keeps.appendMessage "tool" _)

theorem toolStep_counted (object : state.isObject = true) (tools : List Tool) :
    Counted state (toolStepRun library tools state) := by
  have required := ((KeepsResults.refl object).require "tool_requests").require "tool_results"
  unfold toolStepRun
  dsimp only
  rw [required.results]
  split
  next => exact .of_keeps rfl fun _ => required
  next request _ =>
    split
    next => exact .of_keeps rfl (by simp)
    split
    next => exact .of_keeps rfl (by simp)
    next name _ =>
      unfold runRequest
      split
      next arguments _ => exact runValue_counted required tools name arguments
      next => exact runText_counted required tools name _

theorem runStep_counted (object : state.isObject = true) (index : Nat) (step : Step) :
    Counted state (runStep library index state step) := by
  cases step with
  | prompt role templateText => exact promptStep_counted object role templateText
  | model model => exact modelStep_counted object index model
  | tool tools => exact toolStep_counted object tools

/-- A run on a plain state enters the callbacks of consecutive requests, starting after the
results of its state. -/
theorem runSteps_requests (library : Library) (chain : List Step) (index : Nat) {state : Json}
    (object : state.isObject = true) :
    ∃ count, requests (runSteps (runStep library) index chain state).calls =
      List.range' (elements state "tool_results").length count := by
  induction chain generalizing index state with
  | nil => exact ⟨0, rfl⟩
  | cons step steps ih =>
      have counted : Counted state (runStep library index state step) :=
        runStep_counted object index step
      rw [runSteps]
      dsimp only
      split
      next ok =>
        obtain ⟨count, rest⟩ := ih (index + 1) (counted.object ok)
        rw [counted.results ok] at rest
        rw [requests_append, rest]
        rcases counted.calls with none | one
        · rw [none]
          exact ⟨count, rfl⟩
        · rw [one]
          exact ⟨count + 1, by rw [List.range'_succ]; rfl⟩
      next =>
        rcases counted.calls with none | one
        · exact ⟨0, none⟩
        · exact ⟨1, one⟩

/-! ## Both runs -/

variable {plain bound : Json}

theorem runStep_agrees (related : Related library.codec plain bound) (index : Nat) {step : Step}
    (valid : ValidTexts library [step]) (safe : StepSafe library plain bound step) :
    StepAgrees library (runStep library index plain step)
      (runStepJsonValue library index bound step) := by
  cases step with
  | prompt role templateText => exact promptStep_agrees related role templateText
  | model model =>
      exact modelStep_agrees related index model fun invoke => valid model invoke (by simp)
  | tool tools => exact toolStep_agrees related tools safe

/-- The steps that a run reaches in both states stay clear of the differences. -/
def Safe (library : Library) : Nat → List Step → Json → Json → Prop
  | _, [], _, _ => True
  | index, step :: steps, plain, bound =>
      StepSafe library plain bound step ∧
        ((runStep library index plain step).status = .ok →
          Safe library (index + 1) steps (runStep library index plain step).state
            (runStepJsonValue library index bound step).state)

theorem runSteps_agree (chain : List Step) (index : Nat)
    (related : Related library.codec plain bound) (valid : ValidTexts library chain)
    (safe : Safe library index chain plain bound) :
    StepAgrees library (runSteps (runStep library) index chain plain)
      (runSteps (runStepJsonValue library) index chain bound) := by
  induction chain generalizing index plain bound with
  | nil => exact ⟨rfl, rfl, fun _ => related⟩
  | cons step steps ih =>
      obtain ⟨stepSafe, restSafe⟩ := safe
      have agrees := runStep_agrees related index
        (fun model invoke member => valid model invoke (by simp_all)) stepSafe
      rw [runSteps, runSteps]
      dsimp only
      rw [← agrees.status]
      split
      next ok =>
        have rest := ih (index + 1) (agrees.related ok)
          (fun model invoke member => valid model invoke (List.mem_cons_of_mem _ member))
          (restSafe ok)
        exact ⟨rest.status, by rw [agrees.calls, rest.calls], rest.related⟩
      next => exact agrees

theorem requestOf_matching {left right : Json} (matching : Matching library.codec left right) :
    requestOf library.codec left = requestOf library.codec right := by
  cases matching with
  | same => rfl
  | parsed name text value parsed =>
      have plainText : (requestWithText name (some text)).getString "arguments_json" =
          some text.val :=
        Json.getString_of_field (by simp [requestWithText, Json.field, Json.findField])
          text.property
      have plainField : (requestWithText name (some text)).field "arguments" = none := by
        simp [requestWithText, Json.field, Json.findField]
      rw [requestOf, argumentsOf, plainField]
      dsimp only
      rw [plainText, Option.bind_some, parsed]
      simp [requestOf, argumentsOf, requestWithText, requestWithValue, Json.field, Json.findField]

theorem map_requestOf {left right : List Json}
    (matched : List.Forall₂ (Matching library.codec) left right) :
    left.map (requestOf library.codec) = right.map (requestOf library.codec) := by
  induction matched with
  | nil => rfl
  | cons matching _ ih => rw [List.map_cons, List.map_cons, requestOf_matching matching, ih]

theorem observed_related (related : Related library.codec plain bound) :
    observed library.codec plain = observed library.codec bound := by
  rw [observed, related.messages, related.modelOutputs, map_requestOf related.toolRequests,
    related.toolResults, observed]

/-- Both executors enter the same callbacks, those of each tool request at most once, and return
the same status, with the same records if they succeed. -/
structure Agree (library : Library) (plain bound : Ran) : Prop where
  calls : plain.calls = bound.calls
  plainOnce : (requests plain.calls).Nodup
  boundOnce : (requests bound.calls).Nodup
  status : plain.status = bound.status
  records : plain.status = .ok → observed library.codec plain.state =
    observed library.codec bound.state

/-- The executors agree on every run whose tool steps stay clear of the differences. -/
theorem chainRun_agree (library : Library) (chain : List Step) (valid : ValidTexts library chain)
    (state : Json) (object : state.isObject = true) (safe : Safe library 0 chain state state) :
    Agree library (chainRun library chain state) (chainRunJsonValue library chain state) := by
  have agrees := runSteps_agree chain 0 (Related.refl library.codec object) valid safe
  obtain ⟨count, ordered⟩ := runSteps_requests library chain 0 object
  have once : (requests (runSteps (runStep library) 0 chain state).calls).Nodup := by
    rw [ordered]
    exact List.nodup_range' ..
  rw [chainRun, chainRunJsonValue, if_pos object, if_pos object]
  exact {
    calls := agrees.calls
    plainOnce := once
    boundOnce := agrees.calls ▸ once
    status := agrees.status
    records := fun ok => observed_related (agrees.related ok) }

end

/-! ## Runs with a tool -/

def sampleArguments : Json := .object [("q", .int 1)]

def sampleLibrary : Library where
  codec := Provider.knownCodec [sampleArguments, .object []]
  mustache := fun templateText _ => some templateText

def sampleTool (jsonValueHandler : Json → Option (Option Json)) : Tool where
  name := "echo"
  handler := some fun text => some (some text)
  contextHandler := none
  jsonValueHandler := some jsonValueHandler
  jsonValueContextHandler := none

/-- A model that requests the tool with a value. -/
def sampleModel : Model where
  invoke := none
  invokeJsonValue := some fun _ =>
    some ⟨some ⟨"let me see", by decide⟩, some ⟨"echo", by decide⟩, some sampleArguments⟩

def sampleChain (jsonValueHandler : Json → Option (Option Json)) : List Step :=
  [.prompt "user" "echo one", .model sampleModel, .tool [sampleTool jsonValueHandler]]

theorem sampleChain_valid (jsonValueHandler : Json → Option (Option Json)) :
    ValidTexts sampleLibrary (sampleChain jsonValueHandler) := by
  intro model invoke member native
  have known : model = sampleModel := by simpa [sampleChain] using member
  rw [known] at native
  exact absurd native (by simp [sampleModel])

theorem sampleChain_safe :
    Safe sampleLibrary 0 (sampleChain fun value => some (some value)) (.object []) (.object []) := by
  refine ⟨trivial, fun _ => ⟨trivial, fun _ => ⟨?_, fun _ => trivial⟩⟩⟩
  intro left right pending pendingBound name named
  cases pending
  cases pendingBound
  cases named
  refine ⟨fun value _ _ => .inr ⟨_, rfl, by simp⟩, fun value _ absent => ?_, fun absent => ?_⟩
  · exact absurd absent (by decide)
  · exact absurd absent (by decide)

/-- A run in which the tool succeeds. -/
theorem chainRun_agree_sample :
    Agree sampleLibrary
      (chainRun sampleLibrary (sampleChain fun value => some (some value)) (.object []))
      (chainRunJsonValue sampleLibrary (sampleChain fun value => some (some value)) (.object [])) :=
  chainRun_agree sampleLibrary _ (sampleChain_valid _) (.object []) rfl sampleChain_safe

/-- If the callback for values fails, then the bound executor also enters the one for texts, and
only the bound run succeeds. -/
theorem chainRun_fallback_differs :
    ValidTexts sampleLibrary (sampleChain fun _ => none) ∧
      requests (chainRunJsonValue sampleLibrary (sampleChain fun _ => none) (.object [])).calls =
        [0, 0] ∧
      ¬ Agree sampleLibrary (chainRun sampleLibrary (sampleChain fun _ => none) (.object []))
        (chainRunJsonValue sampleLibrary (sampleChain fun _ => none) (.object [])) := by
  refine ⟨sampleChain_valid _, by decide +kernel, fun agree => ?_⟩
  have failed : (chainRun sampleLibrary (sampleChain fun _ => none) (.object [])).status =
      .error := by decide +kernel
  have succeeded : (chainRunJsonValue sampleLibrary (sampleChain fun _ => none)
      (.object [])).status = .ok := by decide +kernel
  exact absurd (failed.symm.trans (agree.status.trans succeeded)) (by decide)

end TurboAgent.Chain
