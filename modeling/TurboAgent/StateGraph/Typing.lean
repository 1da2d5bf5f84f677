import TurboAgent.StateGraph.Steps

/-!
# Kinds of channel values

A channel declares the kind of its values; one that declares null takes every value.  The values of
an appending channel are arrays of such values.  States stay so as long as channels are declared
with reducers that fit their kinds, and as long as no update appends an array in place of an
element: the code checks an element as it checks a whole update, which may be an array.
-/

namespace TurboAgent.StateGraph

open Logic Relation

def OfKind (channel : Channel) (value : Json) : Prop :=
  channel.valueKind = .null ∨ jsonType value = channel.valueKind

def Holds (channel : Channel) (value : Json) : Prop :=
  jsonType value = .null ∨
    match channel.reducer with
    | .append => ∃ known, value = .array known ∧
        ∀ element ∈ known, jsonType element = .null ∨ OfKind channel element
    | _ => OfKind channel value

def Fits : Reducer → Kind → Prop
  | .append, kind => kind ≠ .array
  | .mergeObject, kind => kind = .object
  | .add, kind => kind = .number
  | _, _ => True

/-- The channel can hold its default value and its updates. -/
structure Channel.Sound (channel : Channel) : Prop where
  fits : Fits channel.reducer channel.valueKind
  default : Holds channel channel.defaultValue

structure ChannelConfig.Sound (config : ChannelConfig) : Prop where
  fits : Fits config.reducer config.valueKind
  default : config.reducer = .append → ∀ value, config.defaultValue = some value →
    jsonType value = .null ∨ jsonType value = .array

/-- The values of a state are those of channels, and what these may hold. -/
structure StateTyped (channels : List Channel) (state : Json) : Prop where
  object : state.isObject = true
  values : ∀ key value, state.field key = some value →
    ∃ channel, findChannel channels key = some channel ∧ Holds channel value

/-- No update of an appending channel has an array in place of an element that would pass the
check of a whole update. -/
def Flat (channels : List Channel) (update : Json) : Prop :=
  ∀ key channel value, findChannel channels key = some channel → channel.reducer = .append →
    channel.valueKind ≠ .null → update.field key = some value →
      ∀ nested, Json.array nested ∈ children value →
        validateChannelValue channel (.array nested) ≠ .ok

section

variable {World : Type} (library : JsonLibrary) (graph : Graph World)

/-- What channels hold in the runs and the history of a graph, and what they take. -/
structure WellTyped : Prop where
  runs : ∀ run ∈ graph.runs, ∀ channel ∈ graph.channels, ∀ value,
    run.state.field channel.name = some value → Holds channel value
  entries : ∀ entry ∈ graph.ledger.entries, ∀ channel ∈ graph.channels, ∀ value,
    entry.state.field channel.name = some value → Holds channel value
  updates : ∀ run ∈ graph.runs, ∀ channel ∈ graph.channels, ∀ value, OfKind channel value →
    (applyUpdate library graph.channels run.state (.object [(channel.name, value)])).1 = .ok

/-- No node leaves or sends an update with an array in place of an element. -/
def NodesFlat : Prop := ∀ update, Leaves graph update → Flat graph.channels update

structure DocumentTyped (channels : List Channel) (runtime : Json) : Prop where
  runs : ∀ records runs, runtime.field "runs" = some records →
    importRecords importRun records = .ok runs → ∀ run ∈ runs, StateTyped channels run.state
  entries : ∀ records entries, runtime.field "history" = some records →
    importRecords importHistoryEntry records = .ok entries →
      ∀ entry ∈ entries, StateTyped channels entry.state

/-- A channel is accepted only if it is sound, updates have no array in place of an element, and
documents that are loaded have states of the channels. -/
def CallTyped : Call World → Prop
  | .addChannel name config => (addChannel graph name config).1 = .ok → config.Sound
  | .addNode _ | .addEdge _ _ _ | .setEntry _ => True
  | .start _ update _ | .resumeFromHistory _ update _ _ | .forkFromHistory _ update _ _ =>
      Flat graph.channels (update.getD (.object [])) ∧ NodesFlat graph
  | .resume _ _ => NodesFlat graph
  | .updateState _ update _ => Flat graph.channels update
  | .loadSnapshot document => ∀ root runtime, document = some root →
      root.field "runtime" = some runtime → DocumentTyped graph.channels runtime

/-- The channels of a graph are sound and have names of their own, and its states are typed. -/
structure Typed : Prop where
  distinct : (graph.channels.map Channel.name).Nodup
  channels : ∀ channel ∈ graph.channels, channel.Sound
  runs : ∀ run ∈ graph.runs, StateTyped graph.channels run.state
  entries : ∀ entry ∈ graph.ledger.entries, StateTyped graph.channels entry.state

end

/-! ## Channels -/

section

variable {library : JsonLibrary} {channel : Channel} {channels : List Channel} {value : Json}
  {state update : Json} {key : String}

theorem validateChannelValue_eq_ok (plain : channel.reducer = .append → channel.valueKind ≠ .null →
      ∀ nested, value ≠ .array nested) :
    validateChannelValue channel value = .ok ↔ jsonType value = .null ∨ OfKind channel value := by
  unfold validateChannelValue OfKind
  split
  next passes => exact iff_of_true rfl (or_assoc.mp (.inl passes))
  next checked =>
    rw [not_or] at checked
    split
    next nested appends => exact absurd rfl (plain appends checked.2 nested)
    next => simp [checked.1, checked.2]

theorem holds_array {known : List Json} (reducer : channel.reducer = .append)
    (checked : validateChannelValue channel (.array known) = .ok) : Holds channel (.array known) := by
  have elements : channel.valueKind = .null ∨ ∀ element ∈ known,
      jsonType element = channel.valueKind ∨ jsonType element = .null := by
    unfold validateChannelValue at checked
    split at checked
    next anything =>
      rcases anything with null | anything
      · cases null
      · exact .inl anything
    rw [reducer] at checked
    dsimp only at checked
    split at checked
    next each => exact .inr (by simpa using each)
    next => cases checked
  rw [Holds, reducer]
  refine .inr ⟨known, rfl, fun element member => ?_⟩
  rcases elements with anything | each
  · exact .inr (.inl anything)
  · exact (each element member).symm.imp_right .inr

theorem ChannelConfig.Sound.declared {config : ChannelConfig} (sound : config.Sound) (name : String)
    (checked : validateChannelValue (config.channel name) (config.channel name).defaultValue =
      .ok) : (config.channel name).Sound := by
  refine ⟨sound.fits, ?_⟩
  by_cases reducer : config.reducer = .append
  · have fits : jsonType (config.channel name).defaultValue = .null ∨
        jsonType (config.channel name).defaultValue = .array := by
      cases given : config.defaultValue with
      | none => exact .inl (by rw [ChannelConfig.channel, given]; rfl)
      | some value =>
          have isDefault : (config.channel name).defaultValue = value := by
            rw [ChannelConfig.channel, given]
            rfl
          rw [isDefault]
          exact sound.default reducer value given
    rcases fits with null | array
    · exact .inl null
    · cases stored : (config.channel name).defaultValue with
      | array known =>
          rw [stored] at checked
          exact holds_array reducer checked
      | _ => simp [stored, jsonType] at array
  · rw [validateChannelValue_eq_ok fun appends => absurd appends reducer] at checked
    unfold Holds
    split
    next appends => exact absurd appends reducer
    next => exact checked

theorem holds_reduced {current : Option Json} (sound : channel.Sound)
    (holds : ∀ known, current = some known → Holds channel known)
    (flat : channel.reducer = .append → channel.valueKind ≠ .null →
      ∀ nested, Json.array nested ∈ children value →
        validateChannelValue channel (.array nested) ≠ .ok)
    (admits : Admits channel current value) : Holds channel (reduced library channel current value) := by
  have fits := sound.fits
  unfold Holds
  cases reducer : channel.reducer with
  | replace =>
      simp only [Admits, reducer] at admits
      simp only [reduced, reducer]
      exact (validateChannelValue_eq_ok (by simp [reducer])).mp admits
  | lastNonNull =>
      simp only [Admits, reducer] at admits
      simp only [reduced, reducer]
      split
      next =>
        have base : Holds channel (channelBaseValue channel current) := by
          cases current with
          | none => exact sound.default
          | some known => exact holds known rfl
        simpa only [Holds, reducer] using base
      next => exact (validateChannelValue_eq_ok (by simp [reducer])).mp admits
  | append =>
      simp only [Admits, reducer] at admits
      simp only [reduced, reducer]
      refine .inr ⟨_, rfl, ?_⟩
      intro element member
      rcases List.mem_append.mp member with old | new
      · cases current with
        | none => exact nomatch old
        | some known =>
            cases known with
            | array known =>
                have typed := holds (.array known) rfl
                rw [Holds, reducer] at typed
                rcases typed with null | ⟨_, same, each⟩
                · cases null
                · cases same
                  exact each element old
            | _ => exact nomatch old
      · have plain : channel.reducer = .append → channel.valueKind ≠ .null →
            ∀ nested, element ≠ .array nested := by
          rintro _ kind nested rfl
          exact flat reducer kind nested new (admits.2 _ new)
        exact (validateChannelValue_eq_ok plain).mp (admits.2 element new)
  | mergeObject =>
      simp only [Fits, reducer] at fits
      simp only [reduced, reducer]
      exact .inr (.inr (by rw [fits]; rfl))
  | add =>
      simp only [Fits, reducer] at fits
      simp only [reduced, reducer]
      exact .inr (.inr (by rw [fits]; rfl))

/-! ## States -/

theorem StateTyped.more (typed : StateTyped channels state) (more : List Channel) :
    StateTyped (channels ++ more) state where
  object := typed.object
  values key value stored := by
    obtain ⟨channel, found, holds⟩ := typed.values key value stored
    exact ⟨channel, findChannel_more more found, holds⟩

theorem StateTyped.set (typed : StateTyped channels state)
    (found : findChannel channels key = some channel) (holds : Holds channel value) :
    StateTyped channels (state.set key value) where
  object := (Json.isObject_set _ _ _).trans typed.object
  values other stored isStored := by
    by_cases same : key = other
    · subst same
      rw [Json.field_set_same typed.object] at isStored
      cases isStored
      exact ⟨channel, found, holds⟩
    · rw [Json.field_set_other state _ same] at isStored
      exact typed.values other stored isStored

/-- The keys that are merged leave a typed state typed, also where a later key is refused. -/
theorem applyKeys_typed {keys : List String} (sound : ∀ channel ∈ channels, channel.Sound)
    (flat : Flat channels update) (typed : StateTyped channels state) :
    StateTyped channels (applyKeys library channels update keys state).2 := by
  induction keys generalizing state with
  | nil => exact typed
  | cons key keys ih =>
      by_cases takes : TakesKey channels state update key
      · obtain ⟨channel, value, found, stored, admits, step⟩ := applyKeys_cons library keys takes
        rw [step]
        have holds : ∀ known, state.field key = some known → Holds channel known := by
          intro known isKnown
          obtain ⟨other, isFound, holds⟩ := typed.values key known isKnown
          cases found.symm.trans isFound
          exact holds
        have isSound := sound channel (List.mem_of_find?_eq_some found)
        exact ih (typed.set found (holds_reduced isSound holds
          (fun appends kind => flat key channel value found appends kind stored) admits))
      · rw [(applyKeys_refused library keys takes).2]
        exact typed

theorem applyUpdate_typed (sound : ∀ channel ∈ channels, channel.Sound)
    (flat : Flat channels update) (typed : StateTyped channels state) :
    StateTyped channels (applyUpdate library channels state update).2 := by
  unfold applyUpdate
  split
  next => exact applyKeys_typed sound flat typed
  next => exact typed

theorem findChannel_mem (distinct : (channels.map Channel.name).Nodup)
    (member : channel ∈ channels) : findChannel channels channel.name = some channel := by
  induction channels with
  | nil => exact nomatch member
  | cons first channels ih =>
      rw [List.map_cons, List.nodup_cons] at distinct
      rcases List.mem_cons.mp member with rfl | later
      · exact List.find?_cons_of_pos (beq_self_eq_true _)
      · have other : first.name ≠ channel.name := by
          intro same
          exact distinct.1 (same ▸ List.mem_map_of_mem later)
        rw [findChannel, List.find?_cons_of_neg (by simpa using other)]
        exact ih distinct.2 later

theorem seedDefaults_typed (distinct : (channels.map Channel.name).Nodup)
    (sound : ∀ channel ∈ channels, channel.Sound) :
    StateTyped channels (seedDefaults channels) := by
  have all : ∀ (rest : List Channel) (state : Json), (∀ channel ∈ rest, channel ∈ channels) →
      StateTyped channels state → StateTyped channels (rest.foldl (fun state channel =>
        state.set channel.name (channelBaseValue channel none)) state) := by
    intro rest
    induction rest with
    | nil => exact fun _ _ typed => typed
    | cons channel rest ih =>
        intro state members typed
        obtain ⟨member, members⟩ := List.forall_mem_cons.mp members
        exact ih _ members (typed.set (findChannel_mem distinct member) (sound channel member).default)
  exact all channels (.object []) (fun _ => id) ⟨rfl, fun _ _ stored => by cases stored⟩

theorem StateTyped.takes (typed : StateTyped channels state) (sound : channel.Sound)
    (found : findChannel channels channel.name = some channel) (ofKind : OfKind channel value) :
    (applyUpdate library channels state (.object [(channel.name, value)])).1 = .ok := by
  have holds : ∀ known, state.field channel.name = some known → Holds channel known := by
    intro known isKnown
    obtain ⟨other, isFound, holds⟩ := typed.values _ known isKnown
    cases found.symm.trans isFound
    exact holds
  have admits : Admits channel (state.field channel.name) value := by
    have fits := sound.fits
    unfold Admits
    cases reducer : channel.reducer with
    | replace => exact (validateChannelValue_eq_ok (by simp [reducer])).mpr (.inr ofKind)
    | lastNonNull => exact (validateChannelValue_eq_ok (by simp [reducer])).mpr (.inr ofKind)
    | append =>
        simp only [Fits, reducer] at fits
        constructor
        · intro known isKnown
          have typed := holds known isKnown
          rw [Holds, reducer] at typed
          rcases typed with null | ⟨elements, rfl, _⟩
          · exact .inl null
          · exact .inr rfl
        · intro child member
          rcases ofKind with anything | ofKind
          · simp [validateChannelValue, anything]
          · have noArray : ∀ nested, value ≠ .array nested := by
              rintro nested rfl
              exact fits ofKind.symm
            have single : children value = [value] := by
              cases value with
              | array nested => exact absurd rfl (noArray nested)
              | _ => rfl
            rw [single] at member
            rw [List.mem_singleton.mp member]
            exact (validateChannelValue_eq_ok fun _ _ => noArray).mpr (.inr (.inr ofKind))
    | mergeObject =>
        simp only [Fits, reducer] at fits
        refine ⟨fun known isKnown => ?_, by simpa [OfKind, fits] using ofKind⟩
        simpa [Holds, reducer, OfKind, fits] using holds known isKnown
    | add =>
        simp only [Fits, reducer] at fits
        refine ⟨fun known isKnown => ?_, by simpa [OfKind, fits] using ofKind⟩
        simpa [Holds, reducer, OfKind, fits] using holds known isKnown
  rw [applyUpdate_eq_ok]
  refine ⟨typed.object, rfl, ?_⟩
  intro key member
  have named : key = channel.name := by simpa [Json.keys] using member
  subst named
  exact ⟨channel, value, found, by simp [Json.field, Json.findField], admits⟩

end

/-! ## Executions -/

section

variable {World : Type} {library : JsonLibrary} {graph : Graph World} {run : Run}
  {before after : Execution World}

structure Execution.Typed (channels : List Channel) (execution : Execution World) : Prop where
  state : StateTyped channels execution.run.state
  entries : ∀ entry ∈ execution.ledger.entries, StateTyped channels entry.state

theorem addHistoryRecord_typed {channels : List Channel} {ledger : Ledger}
    (sourceKind : SourceKind) (sourceName reason lastNode nextNode : Option String) (step : Nat)
    (update : Json) (entries : ∀ entry ∈ ledger.entries, StateTyped channels entry.state)
    (state : StateTyped channels run.state) :
    ∀ entry ∈ (addHistoryRecord ledger run sourceKind sourceName reason lastNode nextNode step
      update).1.entries, StateTyped channels entry.state := by
  exact Lists.forall_mem_snoc entries state

theorem Execution.Typed.act (sound : ∀ channel ∈ graph.channels, channel.Sound)
    (nodes : NodesFlat graph) (typed : before.Typed graph.channels)
    (act : Act library graph before after) : after.Typed graph.channels := by
  cases act with
  | world => exact ⟨typed.state, typed.entries⟩
  | skip => exact ⟨typed.state, typed.entries⟩
  | merge update leaves =>
      exact ⟨applyUpdate_typed sound (nodes update leaves) typed.state, typed.entries⟩
  | note => exact ⟨typed.state, typed.entries⟩
  | record => exact ⟨typed.state, addHistoryRecord_typed _ _ _ _ _ _ _ typed.entries typed.state⟩
  | move _ moves =>
      obtain ⟨_, _, _, _, _, _, isRun⟩ := moves.run
      refine ⟨?_, moves.ledger ▸ typed.entries⟩
      rw [isRun]
      exact typed.state

theorem Execution.Typed.acts (sound : ∀ channel ∈ graph.channels, channel.Sound)
    (nodes : NodesFlat graph) (typed : before.Typed graph.channels)
    (acts : Acts library graph before after) : after.Typed graph.channels := by
  induction acts with
  | refl => exact typed
  | tail _ act ih => exact ih.act sound nodes act

/-! ## Calls -/

theorem Typed.of_same {other : Graph World} (typed : Typed graph)
    (channels : other.channels = graph.channels) (runs : other.runs = graph.runs)
    (ledger : other.ledger = graph.ledger) : Typed other := by
  obtain ⟨distinct, sound, states, entries⟩ := typed
  constructor <;> simp only [channels, runs, ledger] <;> assumption

theorem Typed.addChannel {channel : Channel} (typed : Typed graph)
    (isNew : findChannel graph.channels channel.name = none) (sound : channel.Sound) :
    Typed { graph with channels := graph.channels ++ [channel] } where
  distinct := by
    rw [List.map_append]
    refine Lists.nodup_snoc typed.distinct ?_
    intro member
    obtain ⟨other, among, same⟩ := List.mem_map.mp member
    exact List.find?_eq_none.mp isNew other among (beq_iff_eq.mpr same)
  channels other member := by
    rcases List.mem_append.mp member with old | new
    · exact typed.channels other old
    · rw [List.mem_singleton.mp new]
      exact sound
  runs run member := (typed.runs run member).more _
  entries entry member := (typed.entries entry member).more _

theorem Typed.admitSeeded (typed : Typed graph) {sourceKind : SourceKind} {sourceName : String}
    {reason : Option String} {update : Option Json} {nextNode : Option String} {step : Nat}
    (state : StateTyped graph.channels run.state)
    (flat : Flat graph.channels (update.getD (.object []))) :
    Typed (admitSeeded library graph run sourceKind sourceName reason update nextNode step) := by
  have admits : ∀ (later : Run) (ledger : Ledger), StateTyped graph.channels later.state →
      (∀ entry ∈ ledger.entries, StateTyped graph.channels entry.state) →
        Typed (admitRun graph later ledger) := by
    intro later ledger isTyped entries
    refine ⟨typed.distinct, typed.channels, ?_, entries⟩
    exact Lists.forall_mem_snoc typed.runs isTyped
  have applied : StateTyped graph.channels
      (applyUpdate library graph.channels run.state (update.getD (.object []))).2 :=
    applyUpdate_typed typed.channels flat state
  unfold StateGraph.admitSeeded
  dsimp only
  by_cases accepted : Accepted graph.channels run.state (update.getD (.object []))
  · rw [seedRun_accepted accepted]
    exact admits _ _ applied (addHistoryRecord_typed _ _ _ _ _ _ _ typed.entries applied)
  · rw [seedRun_refused accepted]
    exact admits _ _ applied typed.entries

theorem Typed.put {index : Nat} {ledger : Ledger} (typed : Typed graph)
    (state : StateTyped graph.channels run.state)
    (entries : ∀ entry ∈ ledger.entries, StateTyped graph.channels entry.state) :
    Typed (putRun graph index run ledger) where
  distinct := typed.distinct
  channels := typed.channels
  runs other member := by
    rcases List.mem_or_eq_of_mem_set member with old | rfl
    · exact typed.runs other old
    · exact state
  entries

theorem Typed.load {document : Option Json} (typed : Typed graph)
    (documented : CallTyped graph (.loadSnapshot document)) :
    Typed (loadSnapshot library graph document).2 := by
  refine loadSnapshot_keeps Typed typed
    ⟨typed.distinct, typed.channels, List.forall_mem_nil _, List.forall_mem_nil _⟩ ?_
  intro root runtime _ _ _ _ _ _ isRoot isRuntime _ _ isRuns readRuns isHistory readHistory
  have loaded := documented root runtime isRoot isRuntime
  exact ⟨typed.distinct, typed.channels, loaded.runs _ _ isRuns readRuns,
    loaded.entries _ _ isHistory readHistory⟩

variable {call : Call World} {first : Graph World}

theorem Typed.opens (typed : Typed graph) (isTyped : CallTyped graph call)
    (opens : Opens library graph call first) : Typed first := by
  cases opens with
  | unchanged => exact typed
  | addChannel name config isNew valid =>
      have accepted : (StateGraph.addChannel graph name config).1 = .ok := by
        rw [StateGraph.addChannel, isNew]
        dsimp only
        rw [if_pos valid]
      exact typed.addChannel isNew ((isTyped accepted).declared name valid)
  | addNode => exact typed.of_same rfl rfl rfl
  | addEdge => exact typed.of_same rfl rfl rfl
  | setEntry => exact typed.of_same rfl rfl rfl
  | start threadId input options startNode chosen =>
      obtain ⟨_, channels, _, runs, ledger, _, _⟩ := addThreadRecord_same graph threadId
      have added := typed.of_same channels runs ledger
      exact added.admitSeeded (seedDefaults_typed added.distinct added.channels)
        (channels ▸ isTyped.1)
  | branch _ entryId update historyOptions sourceKind entry branches found =>
      have state := typed.entries entry (List.mem_of_find?_eq_some found)
      cases branches with
      | resume => exact typed.admitSeeded state isTyped.1
      | fork => exact typed.admitSeeded state isTyped.1
  | hostUpdate runId update options run index found accepted =>
      have state := typed.runs run (List.mem_of_getElem? (findRun_place found).1)
      have applied : StateTyped graph.channels
          (applyUpdate library graph.channels run.state update).2 :=
        applyUpdate_typed typed.channels isTyped state
      exact typed.put applied (addHistoryRecord_typed _ _ _ _ _ _ _ typed.entries applied)
  | hostRefused runId update options run index found object refused =>
      have state := typed.runs run (List.mem_of_getElem? (findRun_place found).1)
      exact typed.put (applyUpdate_typed typed.channels isTyped state) typed.entries
  | loadSnapshot document => exact typed.load isTyped

theorem Typed.rest {later : Graph World} (typed : Typed graph) (rest : Rest graph later) :
    Typed later := by
  cases rest with
  | current => exact typed.of_same rfl rfl rfl
  | complete index run place =>
      exact typed.put (typed.runs run (List.mem_of_getElem? place)) typed.entries

theorem CallTyped.nodes {options : RunOptions} (isTyped : CallTyped graph call)
    (given : call.runOptions = some options) : NodesFlat graph := by
  cases call with
  | start => exact isTyped.2
  | resume => exact isTyped
  | resumeFromHistory => exact isTyped.2
  | forkFromHistory => exact isTyped.2
  | _ => cases given

/-- A call that executes a run does so with the nodes and the channels of the graph. -/
theorem Opens.topology {options : RunOptions} (opens : Opens library graph call first)
    (given : call.runOptions = some options) :
    first.nodes = graph.nodes ∧ first.channels = graph.channels := by
  cases opens with
  | unchanged => exact ⟨rfl, rfl⟩
  | start threadId =>
      obtain ⟨_, channels, nodes, _⟩ := addThreadRecord_same graph threadId
      exact ⟨nodes, channels⟩
  | branch => exact ⟨rfl, rfl⟩
  | _ => cases given

theorem Rest.topology {later : Graph World} (rests : ReflTransGen Rest first later) :
    later.nodes = first.nodes ∧ later.channels = first.channels := by
  induction rests with
  | refl => exact ⟨rfl, rfl⟩
  | tail _ rest ih => cases rest <;> exact ih

theorem Reached.typed (reached : Reached library CallTyped graph) : Typed graph := by
  apply reached.invariant Typed
  · intro world
    exact ⟨List.nodup_nil, (fun _ member => nomatch member), (fun _ member => nomatch member),
      (fun _ member => nomatch member)⟩
  · intro graph call first typed isTyped opens
    exact typed.opens isTyped opens
  · intro graph later typed rest
    exact typed.rest rest
  · intro graph call started index options run node last outcome typed isTyped opened place _ ends
    have opens : OpensTo library graph call (openCall library graph call) := openCall_opens call
    rw [opened] at opens
    obtain ⟨⟨first, opens, rests⟩, given, _⟩ := opens
    obtain ⟨nodes, channels⟩ := Rest.topology rests
    obtain ⟨sameNodes, sameChannels⟩ := opens.topology given
    have flat : NodesFlat started := by
      intro update leaves
      rw [channels, sameChannels]
      rw [Leaves, nodes, sameNodes] at leaves
      exact isTyped.nodes given update leaves
    have begins : (executionFrom started run options node).Typed started.channels :=
      ⟨typed.runs run (List.mem_of_getElem? place), typed.entries⟩
    have ended := begins.acts typed.channels flat (ends_acts ends)
    have put : Typed (putRun started index last.run last.ledger) :=
      typed.put ended.state ended.entries
    exact put.of_same rfl rfl rfl

end

end TurboAgent.StateGraph
