import TurboAgent.ToolRegistry.Native
import TurboAgent.ToolRegistry.Resolution

/-!
# Projections of a registry

A projection registers the named tools again, one after the other.  A registration looks its name
up with the aliases, so that a list of exact names may be refused because of its order.
-/

namespace TurboAgent.ToolRegistry

open Logic
open AgentCompiler (compatibleNameEquals EffectFlags)

variable {cmeta : CMeta}

def AliasOfOne (names : List CString) (name : CString) : Prop :=
  ∃ other, (names.filter fun other => compatibleNameEquals other name) = [other]

/-- A name that a projection accepts after others. -/
def Projectable (earlier : List CString) (name : CString) : Prop :=
  name.1 ≠ "" ∧ ¬ AliasOfOne earlier name

/-- A tool with the schema, the callbacks, the capabilities, the effects, the policy and all other
data of another one. -/
structure NativeTool.SameAs (copy original : NativeTool cmeta) : Prop where
  name : copy.name = original.name
  description : copy.tool.definition.description = original.tool.definition.description
  schema : copy.tool.definition.registration.definition =
    original.tool.definition.registration.definition
  callbacks : copy.tool.definition.callbacks =
    { original.tool.definition.callbacks with userDataFree := none }
  capabilities : copy.tool.definition.registration.requiredCapabilities =
    original.tool.definition.registration.requiredCapabilities
  effects : copy.tool.entry.effects = original.tool.entry.effects
  policy : copy.tool.definition.registration.policy = original.tool.definition.registration.policy
  resultContract : copy.tool.resultSchema = original.tool.resultSchema ∧
    copy.tool.definition.strictResult = original.tool.definition.strictResult
  executionMetadata : copy.tool.executionMetadata = original.tool.executionMetadata
  nativeProjection : copy.nativeProjection = original.nativeProjection

/-! ## Registering a tool again -/

theorem Tool.again_valid (tool : Tool) : tool.again.Valid where
  registration :=
    { parameters := tool.valid.registration.parameters
      effects := EffectFlags.normalize_valid tool.valid.registration.effects
      named := tool.valid.registration.named
      distinct := tool.valid.registration.distinct
      counted := tool.valid.registration.counted }
  handled := tool.valid.handled
  strictResult := tool.valid.strictResult
  contract := tool.valid.contract
  resultSchema := tool.valid.resultSchema

/-- The tool that a registration of a registered tool makes. -/
def NativeTool.copy (entry : NativeTool cmeta) : NativeTool cmeta where
  tool := ⟨entry.tool.again, entry.tool.again_valid, entry.tool.executionMetadata⟩
  metadata := entry.metadata
  nativeProjection := entry.nativeProjection
  published := fun projection member =>
    ⟨(entry.published projection member).bound, fun pure =>
      (entry.published projection member).pure ((EffectFlags.normalize_normalize _).symm.trans pure)⟩

theorem NativeTool.copy_sameAs (entry : NativeTool cmeta) : entry.copy.SameAs entry where
  name := rfl
  description := rfl
  schema := rfl
  callbacks := rfl
  capabilities := rfl
  effects := EffectFlags.normalize_normalize _
  policy := rfl
  resultContract := ⟨rfl, rfl⟩
  executionMetadata := rfl
  nativeProjection := rfl

/-- Nothing is found under a name if it is new and not the alias of one tool. -/
theorem Registry.find_eq_none_iff {registry : Registry} {name : CString} :
    registry.find name = none ↔ name ∉ registry.names ∧ ¬ AliasOfOne registry.names name := by
  have filtered : (registry.names.filter fun other => compatibleNameEquals other name) =
      (registry.tools.filter fun tool => compatibleNameEquals tool.name name).map Tool.name := by
    rw [names, List.filter_map]
    rfl
  unfold find
  cases exact : registry.findExact name with
  | some tool =>
      obtain ⟨listed, rfl⟩ := findExact_name exact
      exact iff_of_false (Option.some_ne_none _)
        fun unnamed => unnamed.1 (List.mem_map_of_mem listed)
  | none =>
      have absent : name ∉ registry.names := by
        intro listed
        obtain ⟨tool, member, rfl⟩ := List.mem_map.mp listed
        exact absurd (List.find?_eq_none.mp exact tool member) (by simp)
      rw [AliasOfOne, filtered]
      dsimp only
      generalize registry.tools.filter (fun tool => compatibleNameEquals tool.name name) = matching
      rcases matching with _ | ⟨first, _ | ⟨second, rest⟩⟩
      · simp [absent]
      · simp
      · simp [absent]

namespace NativeRegistry

variable {registry : NativeRegistry cmeta}

theorem add_fresh {definition : Definition} (valid : definition.Valid)
    (absent : registry.plain.find definition.registration.name = none) :
    ∃ next, registry.add definition = .ok next ∧
      next.entries = registry.entries ++ [.ofDefinition definition valid] := by
  rw [add, dif_pos valid]
  split
  next found => exact absurd (absent.symm.trans found) (by rintro ⟨⟩)
  next => exact ⟨_, rfl, rfl⟩

theorem add_known {definition : Definition} (valid : definition.Valid)
    (known : registry.plain.find definition.registration.name ≠ none) :
    registry.add definition = .error .duplicate := by
  rw [add, dif_pos valid]
  split
  next => rfl
  next absent => exact absurd absent known

variable {entries : List (NativeTool cmeta)} {last entry : NativeTool cmeta}

theorem replace_last (shape : registry.entries = entries ++ [last]) (same : entry.name = last.name) :
    (registry.replace entry).entries = entries ++ [entry] := by
  have distinct := registry.distinct
  rw [shape, List.map_append, List.map_singleton, List.nodup_append] at distinct
  have others : entries.map (fun other => if other.name = entry.name then entry else other) =
      entries := by
    conv_rhs => rw [← List.map_id entries]
    apply List.map_congr_left
    intro other member
    exact if_neg fun equal => distinct.2.2 other.name (List.mem_map_of_mem member) last.name
      (List.mem_singleton_self _) (equal.trans same)
  dsimp only [replace]
  rw [shape, List.map_append, List.map_singleton, if_pos same.symm, others]

theorem find_last (shape : registry.entries = entries ++ [last]) :
    registry.find last.name = some last :=
  find_own (shape ▸ List.mem_append_right _ (List.mem_singleton_self _))

theorem setExecutionMetadata_last (shape : registry.entries = entries ++ [last])
    (filled : last.name.1 ≠ "") {metadata : Option AgentCompiler.Document}
    (objects : ∀ document ∈ metadata, document.value.isObject = true) :
    ∃ next, registry.setExecutionMetadata last.name metadata = .ok next ∧
      next.entries = entries ++ [last.annotate metadata objects] := by
  rw [setExecutionMetadata, dif_pos ⟨filled, objects⟩, find_last shape]
  exact ⟨_, rfl, replace_last shape rfl⟩

theorem publishNativeProjection_last (shape : registry.entries = entries ++ [last])
    (filled : last.name.1 ≠ "") (bare : last.nativeProjection = none)
    {projection : NativeProjection cmeta} (published : Published last.tool projection)
    (binds : projection.bind = some projection) :
    ∃ next, registry.publishNativeProjection last.name projection = .ok next ∧
      next.entries = entries ++ [{ last with
        nativeProjection := some projection
        published := fun _ same => Option.some.inj same ▸ published }] := by
  have unpublished : ¬ last.nativeProjection.isSome = true := by
    rw [bare]
    exact Bool.false_ne_true
  rw [publishNativeProjection, if_neg filled, find_last shape]
  dsimp only
  rw [if_neg unpublished]
  split
  next refused => exact absurd (refused.symm.trans binds) (by rintro ⟨⟩)
  next bound isBound =>
    obtain rfl : projection = bound := Option.some.inj (binds.symm.trans isBound)
    rw [dif_pos published.pure]
    exact ⟨_, rfl, replace_last shape rfl⟩

theorem annotate_last (shape : registry.entries = entries ++ [last]) (filled : last.name.1 ≠ "")
    (bare : last.tool.executionMetadata = none) {metadata : Option AgentCompiler.Document}
    (objects : ∀ document ∈ metadata, document.value.isObject = true) :
    ∃ next, (metadata.elim (.ok registry) fun document =>
        registry.setExecutionMetadata last.name (some document)) = Except.ok next ∧
      next.entries = entries ++ [last.annotate metadata objects] := by
  cases metadata with
  | none =>
      refine ⟨registry, rfl, shape.trans ?_⟩
      simp only [NativeTool.annotate, ← bare]
  | some document => exact setExecutionMetadata_last shape filled objects

theorem addAgain_fresh (rebinds : cmeta.Rebinds) (absent : registry.plain.find entry.name = none)
    (filled : entry.name.1 ≠ "") :
    ∃ next, registry.addAgain entry = .ok next ∧ next.entries = registry.entries ++ [entry.copy] := by
  obtain ⟨added, isAdded, shape⟩ := add_fresh entry.tool.again_valid absent
  obtain ⟨annotated, isAnnotated, annotatedShape⟩ := annotate_last shape filled rfl entry.metadata
  have annotates : (entry.tool.executionMetadata.elim (.ok added) fun document =>
      added.setExecutionMetadata entry.name (some document)) = Except.ok annotated := isAnnotated
  rw [addAgain, isAdded]
  simp only [Bind.bind, Except.bind, annotates]
  -- A projection that is kept was bound, so that it binds again.
  have kept := entry.copy.published
  cases stored : entry.nativeProjection with
  | none =>
      refine ⟨annotated, rfl, annotatedShape.trans ?_⟩
      simp only [NativeTool.copy, NativeTool.annotate, NativeTool.ofDefinition, stored]
  | some projection =>
      obtain ⟨original, bound⟩ := (kept projection stored).bound
      obtain ⟨next, isPublished, nextShape⟩ := publishNativeProjection_last annotatedShape filled
        rfl (kept projection stored) (NativeProjection.bind_again rebinds bound)
      refine ⟨next, isPublished, nextShape.trans ?_⟩
      simp only [NativeTool.copy, stored]
      rfl

theorem addAgain_known (known : registry.plain.find entry.name ≠ none) :
    registry.addAgain entry = .error .duplicate := by
  rw [addAgain, add_known entry.tool.again_valid known]
  rfl

/-- The rest of a list of names, each of which may come to the ones before it, is projected with
copies of their tools. -/
theorem projectNames_copies (rebinds : cmeta.Rebinds) {source projection : NativeRegistry cmeta}
    {previous names : List CString} (sofar : projection.names = previous)
    (distinct : (previous ++ names).Nodup) (listed : ∀ name ∈ names, name ∈ source.names)
    (each : ∀ front name back, names = front ++ name :: back →
      Projectable (previous ++ front) name) :
    ∃ next, source.projectNames projection previous names = .ok next ∧
      ∃ copies, next.entries = projection.entries ++ copies ∧
        List.Forall₂ (fun name copy => ∃ original ∈ source.entries, original.name = name ∧
          copy = original.copy) names copies := by
  induction names generalizing projection previous with
  | nil => exact ⟨projection, rfl, [], (List.append_nil _).symm, .nil⟩
  | cons name names ih =>
      obtain ⟨entry, member, rfl⟩ := List.mem_map.mp (listed name List.mem_cons_self)
      obtain ⟨filled, apart⟩ := each [] entry.name names rfl
      rw [List.append_nil] at apart
      have fresh : entry.name ∉ previous := by
        intro earlier
        exact (List.nodup_append.mp distinct).2.2 _ earlier _ List.mem_cons_self rfl
      have absent : projection.plain.find entry.name = none := by
        rw [Registry.find_eq_none_iff, plain_names, sofar]
        exact ⟨fresh, apart⟩
      obtain ⟨between, added, shape⟩ := addAgain_fresh rebinds absent filled
      have grown : between.names = previous ++ [entry.name] := by
        rw [NativeRegistry.names, shape, List.map_append, ← sofar]
        rfl
      obtain ⟨next, projected, copies, all, same⟩ := ih grown
        (by rwa [List.append_assoc, List.singleton_append])
        (fun other later => listed other (List.mem_cons_of_mem _ later))
        (by
          intro front other back split
          have later := each (entry.name :: front) other back (by rw [split, List.cons_append])
          rwa [List.append_assoc, List.singleton_append])
      refine ⟨next, ?_, entry.copy :: copies, ?_, .cons ⟨entry, member, rfl, rfl⟩ same⟩
      · rw [projectNames, if_neg filled, if_neg fresh, findExact_own member]
        simp only [added, Bind.bind, Except.bind, projected]
      · rw [all, shape, List.append_assoc, List.singleton_append]

/-- A list of names that is projected has only names that may come to the ones before them. -/
theorem projectNames_projectable {source projection next : NativeRegistry cmeta}
    {previous names : List CString} (rebinds : cmeta.Rebinds) (sofar : projection.names = previous)
    (projected : source.projectNames projection previous names = .ok next) :
    ∀ front name back, names = front ++ name :: back → Projectable (previous ++ front) name := by
  induction names generalizing projection previous with
  | nil =>
      intro front name back split
      exact absurd split (by simp)
  | cons name names ih =>
      rw [projectNames] at projected
      split at projected
      next => cases projected
      next filled =>
        split at projected
        next => cases projected
        split at projected
        next => cases projected
        next entry found =>
          obtain ⟨between, added, rest⟩ := Outcome.bind_eq_ok.mp projected
          obtain ⟨-, rfl⟩ := findExact_name found
          have absent : projection.plain.find entry.name = none := by
            by_contra known
            exact absurd (added.symm.trans (addAgain_known known)) (by rintro ⟨⟩)
          have here : Projectable previous entry.name := by
            rw [Registry.find_eq_none_iff, plain_names, sofar] at absent
            exact ⟨filled, absent.2⟩
          obtain ⟨_, isNext, shape⟩ := addAgain_fresh rebinds absent filled
          cases added.symm.trans isNext
          have grown : between.names = previous ++ [entry.name] := by
            rw [NativeRegistry.names, shape, List.map_append, ← sofar]
            rfl
          intro front other back split
          cases front with
          | nil =>
              cases split
              rwa [List.append_nil]
          | cons first front =>
              cases split
              have later := ih grown rest front other back rfl
              rwa [List.append_assoc, List.singleton_append] at later

end NativeRegistry

/-- A duplicate-free list of exact names is projected, with the same tools in the order of the
list, if and only if none of the names is empty or the alias of exactly one name before it. -/
theorem project_faithful_iff (rebinds : cmeta.Rebinds) (source : NativeRegistry cmeta)
    {names : List CString} (distinct : names.Nodup) (listed : ∀ name ∈ names, name ∈ source.names) :
    (∃ projection, source.project names = .ok projection ∧
      List.Forall₂ (fun name copy => ∃ original ∈ source.entries, original.name = name ∧
        copy.SameAs original) names projection.entries) ↔ EachClear Projectable names := by
  have start : (NativeRegistry.create : NativeRegistry cmeta).names = [] := rfl
  constructor
  · rintro ⟨projection, projected, -⟩
    exact NativeRegistry.projectNames_projectable rebinds start projected
  · intro each
    obtain ⟨projection, projected, copies, shape, same⟩ :=
      NativeRegistry.projectNames_copies rebinds start distinct listed each
    refine ⟨projection, projected, ?_⟩
    rw [shape]
    refine same.imp ?_
    rintro name _ ⟨original, member, named, rfl⟩
    exact ⟨original, member, named, original.copy_sameAs⟩

/-- Functions without parameters, each described by its name. -/
def namedCMeta : CMeta where
  Function := String
  Abi := String
  Callable := String
  Signature := String
  TypeDesc := String
  functionDescValid := (· != "")
  functionAbiDescValid := (· != "")
  functionDescEqual := (· == ·)
  abiFunction := id
  callableBind := some
  fnSignature := some
  isValueProtocol := fun _ => true
  signatureParamCount := fun _ => 0
  signatureParam := fun signature _ => signature
  signatureReturn := id
  functionParamCount := fun _ => 0
  functionParam := fun _ _ => none
  functionReturn := id
  typeEqual := (· == ·)
  callableEffects := fun _ => 0
  functionEffects := fun _ => 0
  callableProperties := fun _ => 0
  functionProperties := fun _ => 0
  effectsArePure := fun _ => true

theorem namedCMeta_rebinds : namedCMeta.Rebinds := fun _ _ binds => by
  cases binds
  rfl

theorem noNul_underscored : noNul "fs_read" = true := by decide

/-- `fs.read`. -/
def dotted : CString := ⟨"fs.read", noNul_dotted⟩

/-- `fs_read`, the alias of `fs.read`. -/
def underscored : CString := ⟨"fs_read", noNul_underscored⟩

theorem underscored_dotted : [underscored, dotted].Nodup := by decide

/-- Two tools, the second of which has the name of the first for an alias. -/
def collidingRegistry : NativeRegistry namedCMeta where
  entries := [.ofDefinition (sampleDefinition underscored) (sampleDefinition_valid _),
    .ofDefinition (sampleDefinition dotted) (sampleDefinition_valid _)]
  distinct := underscored_dotted

theorem colliding_projectable : EachClear Projectable [underscored, dotted] := by
  intro front name back split
  rcases front with _ | ⟨first, _ | ⟨second, rest⟩⟩
  · cases split
    exact ⟨by decide, fun ⟨other, one⟩ => absurd one (by simp)⟩
  · cases split
    have none : ([underscored].filter fun other => compatibleNameEquals other dotted) = [] := rfl
    exact ⟨by decide, fun ⟨other, one⟩ => absurd (none.symm.trans one) (by simp)⟩
  · exact absurd (congrArg List.length split) (by simp)

def boundProjection : NativeProjection namedCMeta := ⟨true, "read", "read", "read"⟩

def boundTool : NativeTool namedCMeta where
  tool := ⟨sampleDefinition dotted, sampleDefinition_valid _, none⟩
  metadata := fun _ absent => absurd absent (Option.not_mem_none _)
  nativeProjection := some boundProjection
  published := fun _ same => Option.some.inj same ▸ ⟨⟨boundProjection, rfl⟩, fun _ => rfl⟩

/-- The two tools, the second of which has a native projection. -/
def publishedRegistry : NativeRegistry namedCMeta := collidingRegistry.replace boundTool

theorem project_faithful_iff_sample :
    publishedRegistry.getNativeProjection dotted = .ok boundProjection ∧
    ∃ projection, publishedRegistry.project [underscored, dotted] = .ok projection ∧
      List.Forall₂ (fun name copy => ∃ original ∈ publishedRegistry.entries,
        original.name = name ∧ copy.SameAs original) [underscored, dotted] projection.entries :=
  ⟨rfl, (project_faithful_iff namedCMeta_rebinds publishedRegistry underscored_dotted
    (by decide)).mpr colliding_projectable⟩

/-- Tools that are registered one after the other cannot be projected in the other order. -/
theorem project_refuses_order :
    (∃ first, NativeRegistry.create.add (sampleDefinition underscored) = .ok first ∧
      first.add (sampleDefinition dotted) = .ok collidingRegistry) ∧
    ¬ ∀ (cmeta : CMeta) (source : NativeRegistry cmeta) (names : List CString), cmeta.Rebinds →
      names.Nodup → (∀ name ∈ names, name ∈ source.names) →
      ∃ projection, source.project names = .ok projection := by
  constructor
  · exact ⟨⟨[.ofDefinition (sampleDefinition underscored) (sampleDefinition_valid _)],
      List.nodup_singleton _⟩, rfl, rfl⟩
  · intro claim
    obtain ⟨projection, projected⟩ := claim namedCMeta collidingRegistry [dotted, underscored]
      namedCMeta_rebinds (by decide) (by decide)
    have refused : collidingRegistry.project [dotted, underscored] = .error .duplicate := rfl
    rw [refused] at projected
    cases projected

end TurboAgent.ToolRegistry
