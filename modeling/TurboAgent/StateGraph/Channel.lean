import TurboAgent.Data.Fields

/-!
# Channels of a state graph

The state of a run is an object with a value for each channel.  A channel declares the kind of
its values and a reducer, which puts an update of the channel and its current value together.
An update of the state is an object of channel updates: its keys are reduced one after the other
into the state, up to the first key that fails.

What the JSON library decides is a parameter, and allocations succeed.
-/

namespace TurboAgent

/-- The keys of an object in their order: `json_object_key`. -/
def Json.keys : Json → List String
  | .object fields => fields.map Prod.fst
  | _ => []

namespace StateGraph

/-- `turbo_state_graph_status_t`, without failed allocations. -/
inductive Status where
  | ok
  | stop
  | interrupted
  | error
  | invalidArgument
  | duplicateChannel
  | duplicateNode
  | channelNotFound
  | nodeNotFound
  | routeNotFound
  | stepLimit
  | typeMismatch
  | runNotFound
  | threadNotFound
  | historyNotFound
  | runCompleted
  | invalidUpdate
  deriving DecidableEq

/-- `json_type_t`. -/
inductive Kind where
  | null
  | bool
  | number
  | string
  | array
  | object
  deriving DecidableEq

/-- `json_type`. -/
def jsonType : Json → Kind
  | .null => .null
  | .bool _ => .bool
  | .number _ _ => .number
  | .string _ => .string
  | .array _ => .array
  | .object _ => .object

/-- What the JSON library decides: the sum of two doubles as a number of a document, and the
numbers of the types. -/
structure JsonLibrary where
  plus : Int × Nat → Int × Nat → Int × Nat
  typeCode : Kind → Int

/-- `turbo_state_graph_reducer_kind_t`. -/
inductive Reducer where
  | replace
  | append
  | mergeObject
  | add
  | lastNonNull
  deriving DecidableEq

/-- `turbo_state_graph_channel_entry_t`. -/
structure Channel where
  name : String
  reducer : Reducer
  valueKind : Kind
  defaultValue : Json

/-- `turbo_state_graph_find_channel_index`, with the channel. -/
def findChannel (channels : List Channel) (name : String) : Option Channel :=
  channels.find? fun channel => channel.name == name

/-- `turbo_state_graph_validate_channel_value`. -/
def validateChannelValue (channel : Channel) (value : Json) : Status :=
  if jsonType value = .null ∨ channel.valueKind = .null then .ok
  else
    match channel.reducer, value with
    | .append, .array children =>
        if children.all fun child =>
            jsonType child == channel.valueKind || jsonType child == .null then .ok
        else .typeMismatch
    | _, _ => if jsonType value = channel.valueKind then .ok else .typeMismatch

/-- `turbo_state_graph_channel_base_value`. -/
def channelBaseValue (channel : Channel) (current : Option Json) : Json :=
  current.getD channel.defaultValue

/-- The loop of `turbo_state_graph_merge_object_values` over the keys of an update, whose children
are looked up by key.  The recursion is on two objects, so that it passes the checks of their
types. -/
def mergeKeys (update : List (String × Json)) :
    List String → List (String × Json) → List (String × Json)
  | [], result => result
  | key :: keys, result =>
      match _found : Json.findField update key, Json.findField result key with
      -- a key of an object is found in it
      | none, _ => result
      | some (.object inner), some (.object known) =>
          mergeKeys update keys
            (Json.putField result key (.object (mergeKeys inner (inner.map Prod.fst) known)))
      | some child, _ => mergeKeys update keys (Json.putField result key child)
termination_by keys => (sizeOf update, keys.length)
decreasing_by
  · have smaller := Json.sizeOf_findField _found
    simp only [Json.object.sizeOf_spec] at smaller
    exact Prod.Lex.left _ _ (by omega)
  · exact Prod.Lex.right _ (Nat.lt_succ_self _)
  · exact Prod.Lex.right _ (Nat.lt_succ_self _)

def mergeFields (update known : List (String × Json)) : List (String × Json) :=
  mergeKeys update (update.map Prod.fst) known

/-- `turbo_state_graph_merge_object_values`. -/
def mergeObjectValues (current : Option Json) : Json → Except Status Json
  | .object fields =>
      match current with
      | some (.object known) => .ok (.object (mergeFields fields known))
      | none | some .null => .ok (.object (mergeFields fields []))
      | some _ => .error .typeMismatch
  | _ => .error .typeMismatch

/-- Append the children of an update, as far as they are valid for the channel. -/
def appendChildren (channel : Channel) : List Json → List Json → Except Status Json
  | [], result => .ok (.array result)
  | child :: children, result =>
      if validateChannelValue channel child = .ok then
        appendChildren channel children (result ++ [child])
      else .error (validateChannelValue channel child)

/-- The children that an update of an appending channel stands for. -/
def children : Json → List Json
  | .array elements => elements
  | value => [value]

/-- The appending branch of `turbo_state_graph_reduce_channel`. -/
def appendValues (channel : Channel) (current : Option Json) (update : Json) :
    Except Status Json :=
  match current with
  | some (.array known) => appendChildren channel (children update) known
  | none | some .null => appendChildren channel (children update) []
  | some _ => .error .typeMismatch

section

variable (library : JsonLibrary)

/-- The adding branch of `turbo_state_graph_reduce_channel`: whatever the kind of the channel
is, one of the summands is a double, and so is the sum. -/
def addValues (current : Option Json) : Json → Except Status Json
  | .number mantissa exponent =>
      match current with
      | some (.number known scale) =>
          let sum := library.plus (known, scale) (mantissa, exponent)
          .ok (.number sum.1 sum.2)
      | none | some .null =>
          let sum := library.plus (0, 0) (mantissa, exponent)
          .ok (.number sum.1 sum.2)
      | some _ => .error .typeMismatch
  | _ => .error .typeMismatch

/-- `turbo_state_graph_reduce_channel`. -/
def reduceChannel (channel : Channel) (current : Option Json) (update : Json) :
    Except Status Json :=
  match channel.reducer with
  | .replace =>
      if validateChannelValue channel update = .ok then .ok update
      else .error (validateChannelValue channel update)
  | .lastNonNull =>
      if validateChannelValue channel update = .ok then
        if jsonType update = .null then .ok (channelBaseValue channel current) else .ok update
      else .error (validateChannelValue channel update)
  -- the check of the whole update does not count for the other reducers
  | .append => appendValues channel current update
  | .mergeObject => mergeObjectValues current update
  | .add => addValues library current update

variable (channels : List Channel)

/-- The loop of `turbo_state_graph_apply_update`, which leaves the keys before a failing one in
the state. -/
def applyKeys (update : Json) : List String → Json → Status × Json
  | [], state => (.ok, state)
  | key :: keys, state =>
      match update.field key with
      | none => (.invalidUpdate, state)
      | some value =>
          match findChannel channels key with
          | none => (.channelNotFound, state)
          | some channel =>
              match reduceChannel library channel (state.field key) value with
              | .error status => (status, state)
              | .ok merged => applyKeys update keys (state.set key merged)

/-- `turbo_state_graph_apply_update`. -/
def applyUpdate (state update : Json) : Status × Json :=
  if state.isObject && update.isObject then applyKeys library channels update update.keys state
  else (.typeMismatch, state)

end

/-- `turbo_state_graph_seed_defaults` on an empty object. -/
def seedDefaults (channels : List Channel) : Json :=
  channels.foldl (fun state channel => state.set channel.name (channelBaseValue channel none))
    (.object [])

end StateGraph

end TurboAgent
