import TurboAgent.ToolRegistry.Projection

/-!
# Tool runtimes in a registry

`turbo_tool_runtime.c`: the tools of a runtime are added to a registry, each with a bridge entry
that holds a reference of the runtime and that is released with the tool.  What was added is taken
back when one of the tools cannot be added.

The catalog of a runtime does not change during the call, as its header demands.  Every allocation
may fail.
-/

namespace TurboAgent.ToolRegistry

open Logic
open AgentCompiler (EffectFlags)
open ToolExecutor (ExecutionPolicy)

/-! ## Catalogs -/

/-- `turbo_tool_runtime_tool_t`. -/
structure BaseTool where
  (name description : Option CString)
  definition : ToolSchema.Definition

/-- `turbo_tool_runtime_tool_v2_t`; `current` says whether its size and its version are accepted. -/
structure ContractTool where
  current : Bool
  base : BaseTool
  resultSchemaJson : Option (Option Json)
  strictResult : Int

/-- `turbo_tool_runtime_tool_v3_t`. -/
structure RuntimeTool where
  current : Bool
  base : ContractTool
  effectFlags : EffectFlags

/-- How a runtime is asked for its tools, by the version of its vtable. -/
inductive Catalog where
  | getTool (answer : Nat → Except ToolStatus BaseTool)
  | getToolV2 (answer : Nat → Except ToolStatus ContractTool)
  | getToolV3 (answer : Nat → Except ToolStatus RuntimeTool)

/-- `turbo_tool_runtime_get_tool_v2`, for vtables that cannot give effects. -/
def Catalog.contractTool (answer : Nat → Except ToolStatus ContractTool) (index : Nat) :
    Except ToolStatus ContractTool := do
  let tool ← answer index
  if tool.current then return tool else .error .error

/-- `turbo_tool_runtime_get_tool_v3`. -/
def Catalog.tool (catalog : Catalog) (index : Nat) : Except ToolStatus RuntimeTool :=
  match catalog with
  | .getToolV3 answer => do
      let tool ← answer index
      if tool.current ∧ tool.effectFlags.Valid then
        return { tool with effectFlags := tool.effectFlags.normalize }
      else .error .error
  | .getToolV2 answer => do
      let tool ← contractTool answer index
      return ⟨true, tool, EffectFlags.unknown⟩
  | .getTool answer => do
      let tool ← answer index
      return ⟨true, ⟨true, tool, none, 0⟩, EffectFlags.unknown⟩

variable {cmeta : CMeta}

/-- `turbo_tool_runtime_t`; a native runtime has a registry of its own. -/
structure ToolRuntime (cmeta : CMeta) where
  toolCount : Nat
  catalog : Catalog
  native : Option (NativeRegistry cmeta)

structure BridgeFunctions where
  (handler jsonValueHandler contextHandler jsonValueContextHandler destroy : Pointer)

/-- Which allocations for the tool at an index succeed.  A bridge entry is not allocated where one
is alive. -/
structure Allocations where
  bridgeEntry : Nat → List Pointer → Option Pointer
  fresh : ∀ index alive pointer, bridgeEntry index alive = some pointer → pointer ∉ alive
  (bridgeName registration : Nat → Bool)

/-! ## The bridge -/

/-- A registry beside the references of a runtime: their number, and the bridge entries that hold
one each. -/
structure Bridged (cmeta : CMeta) where
  registry : NativeRegistry cmeta
  refCount : Nat
  bridges : List Pointer

namespace Bridged

/-- `turbo_tool_runtime_retain` for a new bridge entry. -/
def retain (state : Bridged cmeta) (entry : Pointer) : Bridged cmeta :=
  { state with refCount := state.refCount + 1, bridges := state.bridges ++ [entry] }

/-- `turbo_tool_runtime_bridge_entry_destroy`.  The entry of another runtime does not count
here. -/
def destroyEntry (state : Bridged cmeta) (entry : Pointer) : Bridged cmeta :=
  if entry ∈ state.bridges then
    { state with refCount := state.refCount - 1, bridges := state.bridges.erase entry }
  else state

def freeUserData (functions : BridgeFunctions) (state : Bridged cmeta) (callbacks : Callbacks) :
    Bridged cmeta :=
  match callbacks.userData with
  | none => state
  | some entry =>
      if callbacks.userDataFree = some functions.destroy then state.destroyEntry entry else state

/-- `turbo_tool_registry_remove`, whose status is not looked at. -/
def removeTool (functions : BridgeFunctions) (state : Bridged cmeta) (name : CString) :
    Bridged cmeta :=
  match state.registry.findExact name, state.registry.remove name with
  | some entry, .ok registry =>
      { state.freeUserData functions entry.tool.definition.callbacks with registry }
  | _, _ => state

end Bridged

/-- A registration for which memory may be missing. -/
def NativeRegistry.addAvailable (registry : NativeRegistry cmeta) (definition : Definition)
    (available : Bool) : Except ToolStatus (NativeRegistry cmeta) := do
  let next ← registry.add definition
  if available then return next else .error .outOfMemory

theorem runtimeTools_plain : noNul "runtime_tools" = true := by decide

/-- `turbo_tool_runtime_required_capabilities`. -/
def runtimeRequiredCapabilities : List CString := [⟨"runtime_tools", runtimeTools_plain⟩]

def bridgeDefinition (functions : BridgeFunctions) (policy : ExecutionPolicy) (tool : RuntimeTool)
    (name description : CString) (entry : Pointer) : Definition where
  registration :=
    { name := name
      definition := tool.base.base.definition
      policy
      requiredCapabilities := runtimeRequiredCapabilities
      effects := tool.effectFlags }
  description
  callbacks :=
    { handler := some functions.handler
      jsonValueHandler := some functions.jsonValueHandler
      contextHandler := some functions.contextHandler
      jsonValueContextHandler := some functions.jsonValueContextHandler
      userData := some entry
      userDataFree := some functions.destroy }
  resultSchemaJson := tool.base.resultSchemaJson
  strictResult := tool.base.strictResult

namespace ToolRuntime

variable (runtime : ToolRuntime cmeta)

/-- The checks of the first loop for the tool at an index. -/
def checkTool (registry : NativeRegistry cmeta) (index : Nat) : Except ToolStatus Unit := do
  let tool ← runtime.catalog.tool index
  match tool.base.base.name, tool.base.base.description with
  | some name, some _ =>
      if tool.base.base.definition.parametersJson.isNone ∧
          tool.base.base.definition.parametersSchema.isNone then .error .error
      else if (registry.find name).isSome then .error .duplicate
      else return
  | _, _ => .error .error

/-- The native projection of a tool of a native runtime, published for the bridge.  That there is
none is no failure. -/
def publishNative (registry : NativeRegistry cmeta) (name : CString) :
    Except ToolStatus (NativeRegistry cmeta) :=
  match runtime.native with
  | none => .ok registry
  | some own =>
      match own.getNativeProjection name >>= registry.publishNativeProjection name with
      | .error .notFound => .ok registry
      | result => result

variable (functions : BridgeFunctions) (allocations : Allocations) (policy : ExecutionPolicy)

/-- The second loop for the tool at an index: the status of a failure, behind which nothing of this
tool is left. -/
def addTool (index : Nat) (state : Bridged cmeta) : Option ToolStatus × Bridged cmeta :=
  match runtime.catalog.tool index with
  | .error status => (some status, state)
  | .ok tool =>
      match allocations.bridgeEntry index state.bridges with
      | none => (some .outOfMemory, state)
      | some entry =>
          let retained := state.retain entry
          match tool.base.base.name, tool.base.base.description with
          | none, _ => (some .outOfMemory, retained.destroyEntry entry)
          | some name, description =>
              if !allocations.bridgeName index then
                (some .outOfMemory, retained.destroyEntry entry)
              else
                match description with
                | none => (some .invalidArgument, retained.destroyEntry entry)
                | some description =>
                    match retained.registry.addAvailable
                        (bridgeDefinition functions policy tool name description entry)
                        (allocations.registration index) with
                    | .error status => (some status, retained.destroyEntry entry)
                    | .ok added =>
                        match runtime.publishNative added name with
                        | .ok published => (none, { retained with registry := published })
                        | .error status =>
                            (some status,
                              { retained with registry := added }.removeTool functions name)

/-- One index of `turbo_tool_runtime_rollback_registry`. -/
def rollbackTool (state : Bridged cmeta) (index : Nat) : Bridged cmeta :=
  match runtime.catalog.tool index with
  | .error _ => state
  | .ok tool => tool.base.base.name.elim state (state.removeTool functions)

/-- `turbo_tool_runtime_rollback_registry`. -/
def rollbackRegistry (state : Bridged cmeta) (addedCount : Nat) : Bridged cmeta :=
  (List.range addedCount).foldl (runtime.rollbackTool functions) state

def addTools : Nat → Nat → Bridged cmeta → Option ToolStatus × Bridged cmeta
  | 0, _, state => (none, state)
  | remaining + 1, index, state =>
      match runtime.addTool functions allocations policy index state with
      | (none, next) => addTools remaining (index + 1) next
      | (some status, next) => (some status, runtime.rollbackRegistry functions next index)

/-- `turbo_tool_runtime_add_to_registry`: the status of a failure, and what the call leaves. -/
def addToRegistry (state : Bridged cmeta) : Option ToolStatus × Bridged cmeta :=
  match (List.range runtime.toolCount).forM (runtime.checkTool state.registry) with
  | .error status => (some status, state)
  | .ok () => runtime.addTools functions allocations policy runtime.toolCount 0 state

end ToolRuntime

/-! ## What a call has added -/

/-- A state with some more tools than another one, each with a bridge entry of its own. -/
structure Extended (functions : BridgeFunctions) (base : Bridged cmeta)
    (added : List (NativeTool cmeta × Pointer)) (state : Bridged cmeta) : Prop where
  entries : state.registry.entries = base.registry.entries ++ added.map Prod.fst
  bridges : state.bridges = base.bridges ++ added.map Prod.snd
  refCount : state.refCount = base.refCount + added.length
  fresh : ∀ pair ∈ added, pair.2 ∉ base.bridges
  distinct : (added.map Prod.snd).Nodup
  owned : ∀ pair ∈ added, pair.1.tool.definition.callbacks.userData = some pair.2 ∧
    pair.1.tool.definition.callbacks.userDataFree = some functions.destroy

section Extension

variable {functions : BridgeFunctions} {base state : Bridged cmeta}
  {added : List (NativeTool cmeta × Pointer)}

theorem NativeRegistry.eq_of_entries {left right : NativeRegistry cmeta}
    (same : left.entries = right.entries) : left = right := by
  cases left
  cases right
  cases same
  rfl

theorem Extended.refl (base : Bridged cmeta) : Extended functions base [] base where
  entries := (List.append_nil _).symm
  bridges := (List.append_nil _).symm
  refCount := rfl
  fresh := List.forall_mem_nil _
  distinct := List.nodup_nil
  owned := List.forall_mem_nil _

theorem Extended.eq_base (extended : Extended functions base [] state) : state = base := by
  have registry := NativeRegistry.eq_of_entries (extended.entries.trans (List.append_nil _))
  have bridges := extended.bridges.trans (List.append_nil _)
  have refCount := extended.refCount
  cases state
  cases base
  cases registry
  cases bridges
  cases refCount
  rfl

variable {pointer : Pointer}

theorem Extended.snoc (extended : Extended functions base added state)
    {registry : NativeRegistry cmeta} {entry : NativeTool cmeta} (fresh : pointer ∉ state.bridges)
    (shape : registry.entries = state.registry.entries ++ [entry])
    (owned : entry.tool.definition.callbacks.userData = some pointer ∧
      entry.tool.definition.callbacks.userDataFree = some functions.destroy) :
    Extended functions base (added ++ [(entry, pointer)])
      { state.retain pointer with registry } := by
  rw [extended.bridges, List.mem_append, not_or] at fresh
  refine ⟨?_, ?_, ?_, ?_, ?_, ?_⟩
  · rw [List.map_append, ← List.append_assoc, ← extended.entries]
    exact shape
  · rw [List.map_append, ← List.append_assoc, ← extended.bridges]
    rfl
  · rw [List.length_append, ← Nat.add_assoc, ← extended.refCount]
    rfl
  · exact List.forall_mem_append.mpr
      ⟨extended.fresh, List.forall_mem_singleton.mpr fresh.1⟩
  · rw [List.map_append]
    exact Lists.nodup_snoc extended.distinct fresh.2
  · exact List.forall_mem_append.mpr ⟨extended.owned, List.forall_mem_singleton.mpr owned⟩

theorem destroyEntry_retain (fresh : pointer ∉ state.bridges) :
    (state.retain pointer).destroyEntry pointer = state := by
  have listed : pointer ∈ (state.retain pointer).bridges :=
    List.mem_append_right _ (List.mem_singleton_self _)
  rw [Bridged.destroyEntry, if_pos listed]
  simp only [Bridged.retain, List.erase_append_right _ fresh, List.erase_cons_head,
    List.append_nil, Nat.add_sub_cancel]

theorem Extended.removeTool {front rest : List (NativeTool cmeta × Pointer)}
    {entry : NativeTool cmeta}
    (extended : Extended functions base (front ++ (entry, pointer) :: rest) state) :
    Extended functions base (front ++ rest) (state.removeTool functions entry.name) := by
  have entries : state.registry.entries =
      (base.registry.entries ++ front.map Prod.fst) ++ entry :: rest.map Prod.fst := by
    rw [extended.entries, List.map_append, List.map_cons, List.append_assoc]
  have bridges : state.bridges =
      (base.bridges ++ front.map Prod.snd) ++ pointer :: rest.map Prod.snd := by
    rw [extended.bridges, List.map_append, List.map_cons, List.append_assoc]
  have member : entry ∈ state.registry.entries :=
    entries ▸ List.mem_append_right _ List.mem_cons_self
  have others : ∀ other ∈ base.registry.entries ++ front.map Prod.fst,
      ¬ decide (other.name = entry.name) = true := by
    have distinct := state.registry.distinct
    rw [entries, List.map_append, List.nodup_append] at distinct
    intro other listed same
    exact distinct.2.2 _ (List.mem_map_of_mem listed) _ List.mem_cons_self (of_decide_eq_true same)
  have found : (state.registry.entries.any fun other => other.name = entry.name) = true :=
    List.any_eq_true.mpr ⟨entry, member, decide_eq_true rfl⟩
  have alive : pointer ∈ state.bridges :=
    bridges ▸ List.mem_append_right _ List.mem_cons_self
  have distinct := extended.distinct
  rw [List.map_append, List.map_cons, List.nodup_middle, List.nodup_cons, List.mem_append,
    not_or] at distinct
  have middle : (entry, pointer) ∈ front ++ (entry, pointer) :: rest :=
    List.mem_append_right _ List.mem_cons_self
  obtain ⟨userData, userDataFree⟩ := extended.owned _ middle
  have apart : pointer ∉ base.bridges ++ front.map Prod.snd := by
    rw [List.mem_append, not_or]
    exact ⟨extended.fresh _ middle, distinct.1.1⟩
  have erased : (entry :: rest.map Prod.fst).eraseP (fun other => other.name = entry.name) =
      rest.map Prod.fst := List.eraseP_cons_of_pos (decide_eq_true rfl)
  have kept : ∀ pair ∈ front ++ rest, pair ∈ front ++ (entry, pointer) :: rest := by
    intro pair listed
    rcases List.mem_append.mp listed with before | after
    · exact List.mem_append_left _ before
    · exact List.mem_append_right _ (List.mem_cons_of_mem _ after)
  rw [Bridged.removeTool, NativeRegistry.findExact_own member, NativeRegistry.remove,
    if_pos found]
  dsimp only
  rw [Bridged.freeUserData, userData]
  dsimp only
  rw [if_pos userDataFree, Bridged.destroyEntry, if_pos alive]
  refine ⟨?_, ?_, ?_, fun pair listed => extended.fresh pair (kept pair listed), ?_,
    fun pair listed => extended.owned pair (kept pair listed)⟩
  · dsimp only
    rw [entries, List.eraseP_append_right _ others, erased, List.map_append, List.append_assoc]
  · dsimp only
    rw [bridges, List.erase_append_right _ apart, List.erase_cons_head, List.map_append,
      List.append_assoc]
  · dsimp only
    rw [extended.refCount, List.length_append, List.length_append, List.length_cons]
    omega
  · rw [List.map_append]
    exact distinct.2

end Extension

/-- A tool that was registered for the runtime's tool at an index, with its bridge entry. -/
def IsBridge (functions : BridgeFunctions) (policy : ExecutionPolicy) (runtime : ToolRuntime cmeta)
    (index : Nat) (pair : NativeTool cmeta × Pointer) : Prop :=
  ∃ tool name description, runtime.catalog.tool index = .ok tool ∧
    tool.base.base.name = some name ∧ tool.base.base.description = some description ∧
    pair.1.tool.definition = bridgeDefinition functions policy tool name description pair.2

section Calls

variable {functions : BridgeFunctions} {allocations : Allocations} {policy : ExecutionPolicy}
  {runtime : ToolRuntime cmeta} {base state : Bridged cmeta}
  {added : List (NativeTool cmeta × Pointer)}

theorem addAvailable_last {registry next : NativeRegistry cmeta} {definition : Definition}
    {available : Bool} (added : registry.addAvailable definition available = .ok next) :
    ∃ entry, entry.tool.definition = definition ∧ next.entries = registry.entries ++ [entry] := by
  obtain ⟨between, accepted, rest⟩ := Outcome.bind_eq_ok.mp added
  split at rest
  next =>
    cases rest
    unfold NativeRegistry.add at accepted
    split at accepted
    next valid =>
      split at accepted
      next => cases accepted
      cases accepted
      exact ⟨_, rfl, rfl⟩
    next => cases accepted
  next => cases rest

/-- Publishing a projection changes nothing but the projection of the tool. -/
theorem publishNative_last {registry next : NativeRegistry cmeta}
    {entries : List (NativeTool cmeta)} {last : NativeTool cmeta}
    (shape : registry.entries = entries ++ [last])
    (published : runtime.publishNative registry last.name = .ok next) :
    ∃ entry, entry.tool = last.tool ∧ next.entries = entries ++ [entry] := by
  have publishes : ∀ projection, registry.publishNativeProjection last.name projection = .ok next →
      ∃ entry, entry.tool = last.tool ∧ next.entries = entries ++ [entry] := by
    intro projection accepted
    unfold NativeRegistry.publishNativeProjection at accepted
    rw [NativeRegistry.find_last shape] at accepted
    split at accepted
    next => cases accepted
    dsimp only at accepted
    split at accepted
    next => cases accepted
    split at accepted
    next => cases accepted
    split at accepted
    next =>
      cases accepted
      refine ⟨_, ?_, NativeRegistry.replace_last shape rfl⟩
      rfl
    next => cases accepted
  unfold ToolRuntime.publishNative at published
  split at published
  next =>
    cases published
    exact ⟨last, rfl, shape⟩
  next own _ =>
    split at published
    next =>
      cases published
      exact ⟨last, rfl, shape⟩
    next =>
      obtain ⟨projection, -, accepted⟩ := Outcome.bind_eq_ok.mp published
      exact publishes projection accepted

variable (allocations policy runtime) in
/-- The tool at an index is added with one reference, or nothing is left of it. -/
theorem addTool_spec (extended : Extended functions base added state) (index : Nat) :
    match runtime.addTool functions allocations policy index state with
    | (some _, next) => Extended functions base added next
    | (none, next) => ∃ pair, IsBridge functions policy runtime index pair ∧
        Extended functions base (added ++ [pair]) next := by
  unfold ToolRuntime.addTool
  cases asked : runtime.catalog.tool index with
  | error status => exact extended
  | ok tool =>
      dsimp only
      cases allocated : allocations.bridgeEntry index state.bridges with
      | none => exact extended
      | some pointer =>
          have fresh := allocations.fresh _ _ _ allocated
          have givenUp : Extended functions base added
              ((state.retain pointer).destroyEntry pointer) := by
            rwa [destroyEntry_retain fresh]
          dsimp only
          cases named : tool.base.base.name with
          | none => exact givenUp
          | some name =>
              dsimp only
              cases available : allocations.bridgeName index with
              | false => exact givenUp
              | true =>
                  simp only [Bool.not_true, Bool.false_eq_true, if_false]
                  cases described : tool.base.base.description with
                  | none => exact givenUp
                  | some description =>
                      dsimp only
                      cases registered : (state.retain pointer).registry.addAvailable
                          (bridgeDefinition functions policy tool name description pointer)
                          (allocations.registration index) with
                      | error status => exact givenUp
                      | ok registry =>
                          obtain ⟨entry, isDefinition, shape⟩ := addAvailable_last registered
                          have owned : entry.tool.definition.callbacks.userData = some pointer ∧
                              entry.tool.definition.callbacks.userDataFree =
                                some functions.destroy := by
                            rw [isDefinition]
                            exact ⟨rfl, rfl⟩
                          obtain rfl : entry.name = name := by
                            rw [NativeTool.name, Tool.name, isDefinition]
                            rfl
                          dsimp only
                          cases published : runtime.publishNative registry entry.name with
                          | error status =>
                              have removed := (extended.snoc fresh shape owned).removeTool
                              rwa [List.append_nil] at removed
                          | ok next =>
                              obtain ⟨final, same, finalShape⟩ := publishNative_last shape published
                              exact ⟨(final, pointer),
                                ⟨tool, _, description, asked, named, described,
                                  same ▸ isDefinition⟩,
                                extended.snoc fresh finalShape (same ▸ owned)⟩

theorem rollback_base {indexes : List Nat}
    (bridged : List.Forall₂ (IsBridge functions policy runtime) indexes added)
    (extended : Extended functions base added state) :
    indexes.foldl (runtime.rollbackTool functions) state = base := by
  induction bridged generalizing state with
  | nil => exact extended.eq_base
  | @cons index pair indexes rest here _ ih =>
      obtain ⟨tool, name, description, asked, named, -, isDefinition⟩ := here
      obtain rfl : pair.1.name = name := by
        rw [NativeTool.name, Tool.name, isDefinition]
        rfl
      have step : runtime.rollbackTool functions state index =
          state.removeTool functions pair.1.name := by
        simp only [ToolRuntime.rollbackTool, asked, named, Option.elim]
      rw [List.foldl_cons, step]
      have whole : Extended functions base ([] ++ (pair.1, pair.2) :: rest) state := extended
      exact ih whole.removeTool

variable (allocations) in
theorem addTools_spec (remaining : Nat) {index : Nat}
    (bridged : List.Forall₂ (IsBridge functions policy runtime) (List.range index) added)
    (extended : Extended functions base added state) :
    match runtime.addTools functions allocations policy remaining index state with
    | (some _, next) => next = base
    | (none, next) => ∃ all,
        List.Forall₂ (IsBridge functions policy runtime) (List.range (index + remaining)) all ∧
        Extended functions base all next := by
  induction remaining generalizing index added state with
  | zero => exact ⟨added, bridged, extended⟩
  | succ remaining ih =>
      have one := addTool_spec allocations policy runtime extended index
      rw [ToolRuntime.addTools]
      split at one
      next status next result =>
        rw [result]
        exact rollback_base bridged one
      next next result =>
        obtain ⟨pair, here, grown⟩ := one
        have longer : List.Forall₂ (IsBridge functions policy runtime) (List.range (index + 1))
            (added ++ [pair]) := by
          rw [List.range_succ]
          exact List.rel_append bridged (.cons here .nil)
        have rest := ih longer grown
        rw [result, Nat.add_comm remaining 1, ← Nat.add_assoc]
        exact rest

end Calls

/-- Adding a runtime to a registry is all or nothing: a call that fails leaves the registry, the
references of the runtime and its bridge entries as they were, and a call that succeeds has added
each tool of the runtime once, in order, with a reference for each. -/
theorem addToRegistry_atomic (runtime : ToolRuntime cmeta) (functions : BridgeFunctions)
    (allocations : Allocations) (policy : ExecutionPolicy) (state : Bridged cmeta) :
    match runtime.addToRegistry functions allocations policy state with
    | (some _, next) => next = state
    | (none, next) => ∃ added,
        List.Forall₂ (IsBridge functions policy runtime) (List.range runtime.toolCount) added ∧
        next.registry.entries = state.registry.entries ++ added.map Prod.fst ∧
        next.refCount = state.refCount + runtime.toolCount := by
  unfold ToolRuntime.addToRegistry
  cases (List.range runtime.toolCount).forM (runtime.checkTool state.registry) with
  | error status => rfl
  | ok checked =>
      have start : List.Forall₂ (IsBridge functions policy runtime) (List.range 0) [] := .nil
      have spec := addTools_spec allocations runtime.toolCount start (.refl state)
      split at spec
      next status next result =>
        simp only [result]
        exact spec
      next next result =>
        obtain ⟨added, bridged, extended⟩ := spec
        rw [Nat.zero_add] at bridged
        simp only [result]
        refine ⟨added, bridged, extended.entries, ?_⟩
        rw [extended.refCount, ← bridged.length_eq, List.length_range]

/-- An allocator with room for two bridge entries; the memory for the name of an entry is missing
from an index on. -/
def sampleAllocations (last : Nat) : Allocations where
  bridgeEntry _ alive := [16, 32].find? fun entry => entry ∉ alive
  fresh _ _ _ found := by simpa using List.find?_some found
  bridgeName index := index < last
  registration _ := true

/-- A native runtime of two tools, one of which has a native projection. -/
def sampleRuntime : ToolRuntime namedCMeta where
  toolCount := 2
  catalog := .getTool fun index =>
    let name : CString := if index = 0 then dotted else ⟨"list", noNul_list⟩
    .ok ⟨some name, some name, (sampleDefinition name).registration.definition⟩
  native := some publishedRegistry

/-- A runtime whose second tool cannot be added, and one that is added. -/
theorem addToRegistry_atomic_sample :
    sampleRuntime.addToRegistry ⟨1, 2, 3, 4, 5⟩ (sampleAllocations 1) ⟨.sequential, .none⟩
      ⟨.create, 1, []⟩ = (some .outOfMemory, ⟨.create, 1, []⟩) ∧
    ∃ next, sampleRuntime.addToRegistry ⟨1, 2, 3, 4, 5⟩ (sampleAllocations 2) ⟨.sequential, .none⟩
      ⟨.create, 1, []⟩ = (none, next) ∧ next.refCount = 3 := by
  have failed := addToRegistry_atomic sampleRuntime ⟨1, 2, 3, 4, 5⟩ (sampleAllocations 1)
    ⟨.sequential, .none⟩ ⟨.create, 1, []⟩
  have added := addToRegistry_atomic sampleRuntime ⟨1, 2, 3, 4, 5⟩ (sampleAllocations 2)
    ⟨.sequential, .none⟩ ⟨.create, 1, []⟩
  split at failed
  next status next result =>
    split at added
    next result => cases congrArg Prod.fst result
    next next' result' =>
      cases failed
      cases congrArg Prod.fst result
      obtain ⟨_, _, _, count⟩ := added
      exact ⟨result, next', result', count⟩
  next result => cases congrArg Prod.fst result

end TurboAgent.ToolRegistry
