import TurboAgent.AgentCompiler.Injectivity
import TurboAgent.ToolSchema.Reorder

/-!
# The order of keys in arguments

The identity of a plan does not depend on the order in which the keys of its arguments come.  The
walk over an object sorts the names of its fields, as C reads them, and looks each of them up, so
it does not see the order in which they are stored.  The other passes either count what is in the
arguments or look fields up as well.
-/

namespace TurboAgent.AgentCompiler

open Json (Reordered FieldsReordered)
open ToolSchema (cString cString_eq Keyed fieldsKeyed_iff keyed_reordered findField_eq_some_iff)
open ToolSchema (depth elementsDepth exactDouble fieldsDepth)

/-! ## The walk that looks fields up -/

/-- The loop of `dag_hash_json_object` over sorted names: a name without a field is a null
pointer. -/
def feedKeys (field : String → Option (Accumulator → Accumulator)) :
    List String → Accumulator → Accumulator
  | [], accumulator => accumulator
  | key :: keys, accumulator =>
      let named := accumulator.cstring key
      let next := (field key).elim (named.cstring "null-pointer") fun feed => feed named
      if next.hash = 0 then next else feedKeys field keys next

/-- The names of fields as `dag_hash_json_object` sorts them. -/
def sortedNames (fields : List (String × Json)) : List String :=
  (fields.map fun field => cString field.1).insertionSort StrLe

section

variable (numberText : Int → Nat → List UInt8)

mutual
/-- `dag_hash_json`. -/
def feedJson : Json → Accumulator → Accumulator
  | .null, accumulator => accumulator.cstring "null"
  | .bool value, accumulator =>
      (accumulator.cstring "bool").cstring (if value then "true" else "false")
  | .number mantissa exponent, accumulator =>
      (accumulator.cstring "number").bytes (numberText mantissa exponent)
  | .string text, accumulator => (accumulator.cstring "string").cstring text
  | .array elements, accumulator => feedElements elements (accumulator.cstring "array")
  | .object fields, accumulator =>
      feedKeys (feedField fields) (sortedNames fields) (accumulator.cstring "object")

def feedElements : List Json → Accumulator → Accumulator
  | [], accumulator => accumulator
  | element :: elements, accumulator =>
      let next := feedJson element accumulator
      if next.hash = 0 then next else feedElements elements next

/-- `json_object_get`, with the walk over what it finds. -/
def feedField : List (String × Json) → String → Option (Accumulator → Accumulator)
  | [], _ => none
  | (name, value) :: fields, key => if name = key then some (feedJson value) else feedField fields key
end

end

section

variable {numberText : Int → Nat → List UInt8}

theorem feedField_eq (fields : List (String × Json)) (key : String) :
    feedField numberText fields key = (Json.findField fields key).map (feedJson numberText) := by
  induction fields with
  | nil => simp [feedField, Json.findField]
  | cons field fields ih =>
      obtain ⟨name, value⟩ := field
      rw [feedField, Json.findField]
      split
      next => rfl
      next => exact ih

variable {fields : List (String × Json)}

theorem sortedNames_perm {fields' : List (String × Json)}
    (keys : (fields.map Prod.fst).Perm (fields'.map Prod.fst)) :
    sortedNames fields = sortedNames fields' := by
  have names : (fields.map fun field => cString field.1).Perm
      (fields'.map fun field => cString field.1) := by
    have mapped := keys.map cString
    rwa [List.map_map, List.map_map] at mapped
  apply List.Perm.eq_of_pairwise' (List.pairwise_insertionSort StrLe _)
    (List.pairwise_insertionSort StrLe _)
  exact (List.perm_insertionSort _ _).trans (names.trans (List.perm_insertionSort _ _).symm)

theorem findField_perm {fields' : List (String × Json)} (permuted : fields.Perm fields')
    (distinct : (fields.map Prod.fst).Nodup) (key : String) :
    Json.findField fields key = Json.findField fields' key := by
  apply Option.ext
  intro value
  rw [findField_eq_some_iff distinct,
    findField_eq_some_iff ((permuted.map _).nodup_iff.mp distinct)]
  exact permuted.mem_iff

variable {value value' : Json}

theorem feedElements_middle (before after : List Json)
    (same : feedJson numberText value = feedJson numberText value') :
    feedElements numberText (before ++ value :: after) =
      feedElements numberText (before ++ value' :: after) := by
  induction before with
  | nil =>
      funext accumulator
      rw [List.nil_append, List.nil_append, feedElements, feedElements, same]
  | cons element before ih =>
      funext accumulator
      rw [List.cons_append, List.cons_append, feedElements, feedElements, ih]

theorem feedField_middle (before after : List (String × Json)) (key : String)
    (same : feedJson numberText value = feedJson numberText value') :
    feedField numberText (before ++ (key, value) :: after) =
      feedField numberText (before ++ (key, value') :: after) := by
  induction before with
  | nil =>
      funext name
      rw [List.nil_append, List.nil_append, feedField, feedField, same]
  | cons field before ih =>
      obtain ⟨other, first⟩ := field
      funext name
      rw [List.cons_append, List.cons_append, feedField, feedField, ih]

/-- What is fed does not depend on the order of keys, whatever the keys are. -/
theorem feedJson_reordered (same : Reordered value value') (keyed : Keyed value) :
    feedJson numberText value = feedJson numberText value' := by
  induction same with
  | refl value => rfl
  | @permute fields fields' permuted =>
      funext accumulator
      have found : feedField numberText fields = feedField numberText fields' := by
        funext key
        rw [feedField_eq, feedField_eq, findField_perm permuted keyed.1]
      rw [feedJson, feedJson, found, sortedNames_perm (permuted.map _)]
  | @element before after value value' _ ih =>
      funext accumulator
      have here : Keyed value := ToolSchema.elementsKeyed_iff.mp keyed value (by simp)
      rw [feedJson, feedJson, feedElements_middle before after (ih here)]
  | @field before after key value value' _ ih =>
      funext accumulator
      have here : Keyed value := fieldsKeyed_iff.mp keyed.2 key value (by simp)
      have names : sortedNames (before ++ (key, value) :: after) =
          sortedNames (before ++ (key, value') :: after) := sortedNames_perm (by simp)
      rw [feedJson, feedJson, feedField_middle before after key (ih here), names]
  | trans first _ left right => exact (left keyed).trans (right (keyed_reordered first keyed))

/-! ## The walk over sorted fields -/

theorem sortFields_eq (fields : List (String × Json)) :
    sortFields fields = fields.map fun field => (field.1, sortKeys field.2) := by
  induction fields with
  | nil => rfl
  | cons field fields ih => rw [sortFields, ih, List.map_cons]

/-- The fields of an object in the order of their keys. -/
def rowsOf (fields : List (String × Json)) : List (String × Json) :=
  (sortFields fields).insertionSort fun left right => StrLe left.1 right.1

theorem rowsOf_names (plain : FieldsPlainKeys fields) :
    (rowsOf fields).map Prod.fst = sortedNames fields := by
  have names : fields.map (fun field => cString field.1) = (sortFields fields).map Prod.fst := by
    rw [sortFields_eq, List.map_map]
    exact List.map_congr_left fun field member =>
      cString_eq (fieldsPlainKeys_iff.mp plain field member).1
  have total : Std.Total fun left right : String × Json => StrLe left.1 right.1 :=
    ⟨fun left right => le_total (byteCodes left.1) (byteCodes right.1)⟩
  have transitive : IsTrans (String × Json) fun left right => StrLe left.1 right.1 :=
    ⟨fun _ _ _ => le_trans⟩
  have sorted : ((rowsOf fields).map Prod.fst).Pairwise StrLe :=
    List.pairwise_map.mpr (List.pairwise_insertionSort _ _)
  apply List.Perm.eq_of_pairwise' sorted (List.pairwise_insertionSort StrLe _)
  rw [names]
  exact ((List.perm_insertionSort _ _).map _).trans (List.perm_insertionSort _ _).symm

theorem feedKeys_eq {rows : List (String × Json)}
    (found : ∀ key row, (key, row) ∈ rows → ∃ value, Json.findField fields key = some value ∧
      ∀ accumulator, feedJson numberText value accumulator = hashOrdered numberText accumulator row)
    (accumulator : Accumulator) :
    feedKeys (feedField numberText fields) (rows.map Prod.fst) accumulator =
      hashFields numberText accumulator rows := by
  induction rows generalizing accumulator with
  | nil => rfl
  | cons field rows ih =>
      obtain ⟨key, row⟩ := field
      obtain ⟨value, here, feeds⟩ := found key row List.mem_cons_self
      have others := ih fun other row' member => found other row' (List.mem_cons_of_mem _ member)
      rw [List.map_cons, feedKeys, hashFields, feedField_eq, here]
      simp only [Option.map_some, Option.elim_some, feeds, others]

mutual
theorem feedJson_eq : (value : Json) → Keyed value → PlainKeys value →
    ∀ accumulator, feedJson numberText value accumulator = hashJson numberText accumulator value
  | .null, _, _, _ => rfl
  | .bool _, _, _, _ => rfl
  | .number _ _, _, _, _ => rfl
  | .string _, _, _, _ => rfl
  | .array elements, keyed, plain, accumulator =>
      feedElements_eq elements keyed plain (accumulator.cstring "array")
  | .object fields, keyed, plain, accumulator => by
      rw [feedJson, hashJson, sortKeys, hashOrdered, ← rowsOf, ← rowsOf_names plain]
      apply feedKeys_eq
      intro key row member
      have listed := (List.mem_insertionSort _).mp member
      rw [sortFields_eq] at listed
      obtain ⟨⟨name, value⟩, there, same⟩ := List.mem_map.mp listed
      cases same
      exact ⟨value, (findField_eq_some_iff keyed.1).mpr there,
        feedFields_eq fields keyed.2 plain name value there⟩

theorem feedElements_eq : (elements : List Json) → ToolSchema.ElementsKeyed elements →
    ElementsPlainKeys elements → ∀ accumulator,
      feedElements numberText elements accumulator =
        hashElements numberText accumulator (sortElements elements)
  | [], _, _, _ => rfl
  | element :: elements, keyed, plain, accumulator => by
      have first := feedJson_eq element keyed.1 plain.1 accumulator
      have others := feedElements_eq elements keyed.2 plain.2
      rw [hashJson] at first
      simp only [feedElements, sortElements, hashElements, first, others]

theorem feedFields_eq : (fields : List (String × Json)) → ToolSchema.FieldsKeyed fields →
    FieldsPlainKeys fields → ∀ key value, (key, value) ∈ fields → ∀ accumulator,
      feedJson numberText value accumulator = hashJson numberText accumulator value
  | [], _, _, _, _, member, _ => absurd member List.not_mem_nil
  | (_, first) :: fields, keyed, plain, key, value, member, accumulator => by
      rcases List.mem_cons.mp member with same | later
      · cases same
        exact feedJson_eq first keyed.1 plain.2.1 accumulator
      · exact feedFields_eq fields keyed.2 plain.2.2 key value later accumulator
end

/-- Documents that differ in the order of keys. -/
def Document.Reordered (left right : Document) : Prop := Json.Reordered left.value right.value

variable {left right : Document}

theorem hashJson_reordered (same : left.Reordered right) (accumulator : Accumulator) :
    hashJson numberText accumulator left.value = hashJson numberText accumulator right.value := by
  rw [← feedJson_eq left.value left.keyed left.plainKeys,
    ← feedJson_eq right.value right.keyed right.plainKeys, feedJson_reordered same left.keyed]

/-! ## Limits -/

/-- A measure of values that neither sees the order of keys nor more of a part than its measure. -/
theorem measure_reordered {α : Type} {measure : Json → α}
    (permute : ∀ {fields fields' : List (String × Json)}, fields.Perm fields' →
      measure (.object fields) = measure (.object fields'))
    (element : ∀ before after value value', measure value = measure value' →
      measure (.array (before ++ value :: after)) = measure (.array (before ++ value' :: after)))
    (field : ∀ before after key value value', measure value = measure value' →
      measure (.object (before ++ (key, value) :: after)) =
        measure (.object (before ++ (key, value') :: after))) (same : Reordered value value') :
    measure value = measure value' := by
  induction same with
  | refl value => rfl
  | permute permuted => exact permute permuted
  | element before after _ ih => exact element before after _ _ ih
  | field before after key _ ih => exact field before after key _ _ ih
  | trans _ _ first second => exact first.trans second

theorem elementsNodeCount_eq (elements : List Json) :
    elementsNodeCount elements = (elements.map nodeCount).sum := by
  induction elements with
  | nil => rfl
  | cons element elements ih => rw [elementsNodeCount, ih, List.map_cons, List.sum_cons]

theorem fieldsNodeCount_eq (fields : List (String × Json)) :
    fieldsNodeCount fields = (fields.map fun field => nodeCount field.2).sum := by
  induction fields with
  | nil => rfl
  | cons field fields ih => rw [fieldsNodeCount, ih, List.map_cons, List.sum_cons]

theorem nodeCount_reordered (same : Reordered value value') :
    nodeCount value = nodeCount value' := by
  refine measure_reordered ?_ ?_ ?_ same
  · intro fields fields' permuted
    rw [nodeCount, nodeCount, fieldsNodeCount_eq, fieldsNodeCount_eq, (permuted.map _).sum_eq]
  · intro before after value value' equal
    simp [nodeCount, elementsNodeCount_eq, equal]
  · intro before after key value value' equal
    simp [nodeCount, fieldsNodeCount_eq, equal]

theorem elementsTextBytes_eq (text : String → String) (elements : List Json) :
    elementsTextBytes numberText text elements =
      (elements.map (textBytes numberText text)).sum := by
  induction elements with
  | nil => rfl
  | cons element elements ih => rw [elementsTextBytes, ih, List.map_cons, List.sum_cons]

theorem fieldsTextBytes_eq (text : String → String) (fields : List (String × Json)) :
    fieldsTextBytes numberText text fields = (fields.map fun field =>
      (utf8 (text field.1)).length + textBytes numberText text field.2).sum := by
  induction fields with
  | nil => rfl
  | cons field fields ih => rw [fieldsTextBytes, ih, List.map_cons, List.sum_cons]

theorem textBytes_reordered (text : String → String) (same : Reordered value value') :
    textBytes numberText text value = textBytes numberText text value' := by
  refine measure_reordered ?_ ?_ ?_ same
  · intro fields fields' permuted
    rw [textBytes, textBytes, fieldsTextBytes_eq, fieldsTextBytes_eq, (permuted.map _).sum_eq]
  · intro before after value value' equal
    simp [textBytes, elementsTextBytes_eq, equal]
  · intro before after key value value' equal
    simp [textBytes, fieldsTextBytes_eq, equal]

theorem elementsDepth_eq (elements : List Json) : elementsDepth elements =
    (elements.map fun element => depth element + 1).foldr max 0 := by
  induction elements with
  | nil => rfl
  | cons element elements ih => rw [elementsDepth, ih, List.map_cons, List.foldr_cons]

theorem fieldsDepth_eq (fields : List (String × Json)) : fieldsDepth fields =
    (fields.map fun field => depth field.2 + 1).foldr max 0 := by
  induction fields with
  | nil => rfl
  | cons field fields ih => rw [fieldsDepth, ih, List.map_cons, List.foldr_cons]

theorem depth_reordered (same : Reordered value value') :
    depth value = depth value' := by
  refine measure_reordered ?_ ?_ ?_ same
  · intro fields fields' permuted
    rw [depth, depth, fieldsDepth_eq, fieldsDepth_eq,
      (permuted.map _).foldr_eq]
  · intro before after value value' equal
    simp [depth, elementsDepth_eq, equal]
  · intro before after key value value' equal
    simp [depth, fieldsDepth_eq, equal]

theorem isObject_reordered (same : Reordered value value') : value.isObject = value'.isObject := by
  cases same.alike <;> rfl

variable {config : Config}

theorem withinLimits_reordered (same : Reordered value value') :
    (withinLimits numberText config 0 ⟨0, 0⟩ value).isSome ↔
      (withinLimits numberText config 0 ⟨0, 0⟩ value').isSome := by
  rw [withinLimits_isSome, withinLimits_isSome, nodeCount_reordered same, textBytes_reordered _ same,
    depth_reordered same]

variable {double : Int → Nat → ToolSchema.Double}

theorem checkArguments_reordered {invalid unsupported : String} {definition : ToolSchema.Definition}
    (same : left.Reordered right) :
    Outcome.Agrees Eq (checkArguments double invalid unsupported definition left)
      (checkArguments double invalid unsupported definition right) := by
  apply Outcome.Agrees.check
  rw [checkArguments_eq_ok, checkArguments_eq_ok]
  exact ToolSchema.validateArguments_reordered same left.keyed

theorem filter_reordered {left right : Option Document}
    (same : Option.Rel Document.Reordered left right) :
    Option.Rel Document.Reordered (left.filter fun arguments => arguments.value.isObject)
      (right.filter fun arguments => arguments.value.isObject) := by
  cases same with
  | none => exact .none
  | @some left right same =>
      rw [Option.filter_some, Option.filter_some, isObject_reordered same]
      split
      next => exact .some same
      next => exact .none

/-! ## Single calls -/

/-- Plans of one call that differ in the order of keys in their arguments. -/
def TypedPlan.Reordered (left right : TypedPlan) : Prop :=
  ∃ arguments, right = { left with arguments } ∧
    Option.Rel Document.Reordered left.arguments arguments

theorem executablePlanHash_reordered {descriptor : TemplateDescriptor} {source : TypedPlan}
    {canonicalName : CString} {entry : Entry} {projection : Registry} (other : Option Document)
    (same : left.Reordered right) :
    executablePlanHash numberText
        (freezePlan descriptor source left canonicalName entry projection) =
      executablePlanHash numberText (freezePlan descriptor { source with arguments := other } right
        canonicalName entry projection) := by
  rw [executablePlanHash, executablePlanHash]
  simp only [freezePlan, hashJson_reordered same]
  rfl

variable {registry : Registry}

theorem compilePlan_reordered {left right : TypedPlan} (same : left.Reordered right) :
    Outcome.Agrees (fun plan plan' : ExecutablePlan => plan.planHash = plan'.planHash)
      (compilePlan numberText double config registry left)
      (compilePlan numberText double config registry right) := by
  obtain ⟨other, rfl, same⟩ := same
  refine .bind_same fun _ => .bind_same fun descriptor => .bind_same fun _ => ?_
  refine .bind (.orFail (filter_reordered same)) fun arguments arguments' same => ?_
  refine .bind (.check ?_) fun _ _ _ => .bind_same fun resolved => ?_
  · rw [Outcome.require_eq_ok, Outcome.require_eq_ok]
    exact withinLimits_reordered same
  refine .bind (checkArguments_reordered same) fun _ _ _ => ?_
  refine .bind_same fun entry => .bind_same fun _ => .bind_same fun _ => ?_
  refine .bind_same fun projection => ?_
  dsimp only
  rw [executablePlanHash_reordered other same]
  exact .bind_same fun _ => .ok rfl

/-! ## Plans of steps -/

/-- Step sources that differ in the order of keys in their arguments. -/
def StepSource.Reordered (left right : StepSource) : Prop :=
  ∃ arguments, right = { left with arguments } ∧
    Option.Rel Document.Reordered left.arguments arguments

/-- Sources that differ in the order of keys in the arguments of their steps. -/
def Source.Reordered (left right : Source) : Prop :=
  ∃ steps, right = { left with steps } ∧
    List.Forall₂ StepSource.Reordered left.steps steps

/-- Steps that differ in the order of keys in their arguments. -/
def Step.Reordered (left right : Step) : Prop :=
  ∃ arguments, right = { left with arguments } ∧
    left.arguments.Reordered arguments

theorem validArguments_reordered {source : StepSource} {other : Option Document}
    (same : Option.Rel Document.Reordered source.arguments other) :
    Option.Rel Document.Reordered source.validArguments
      { source with arguments := other }.validArguments := by
  unfold StepSource.validArguments
  dsimp only
  split
  next => exact .none
  next => exact filter_reordered same

theorem admitStep_reordered {left right : StepSource} (same : left.Reordered right) :
    Outcome.Agrees Step.Reordered (admitStep numberText double config registry left)
      (admitStep numberText double config registry right) := by
  obtain ⟨other, rfl, same⟩ := same
  refine .bind (.orFail (validArguments_reordered same)) fun arguments arguments' same => ?_
  refine .bind (.check ?_) fun _ _ _ => .bind_same fun resolved => ?_
  · rw [Outcome.require_eq_ok, Outcome.require_eq_ok]
    exact withinLimits_reordered same
  refine .bind (checkArguments_reordered same) fun _ _ _ => ?_
  refine .bind_same fun entry => .bind_same fun _ => .bind_same fun capabilities => ?_
  exact .ok ⟨arguments', rfl, same⟩

theorem map_reordered {β : Type} {read : Step → β}
    (blind : ∀ (step : Step) arguments, read step = read { step with arguments })
    {lefts rights : List Step} (same : List.Forall₂ Step.Reordered lefts rights) :
    lefts.map read = rights.map read := by
  induction same with
  | nil => rfl
  | cons here _ ih =>
      obtain ⟨arguments, rfl, _⟩ := here
      exact congrArg₂ List.cons (blind _ arguments) ih

variable {steps steps' : List Step}

theorem resolveDependencies_reordered {ids : List CString} {edges : Nat}
    {lefts rights : List StepSource} (sources : List.Forall₂ StepSource.Reordered lefts rights)
    (same : List.Forall₂ Step.Reordered steps steps') :
    Outcome.Agrees (List.Forall₂ Step.Reordered)
      (resolveDependencies ids edges (lefts.zip steps))
      (resolveDependencies ids edges (rights.zip steps')) := by
  induction sources generalizing steps steps' edges with
  | nil => exact .ok .nil
  | cons source _ ih =>
      cases same with
      | nil => exact .ok .nil
      | cons step rest =>
          obtain ⟨other, rfl, _⟩ := source
          obtain ⟨arguments, rfl, same⟩ := step
          refine .bind_same fun _ => .bind_same fun dependencies => ?_
          refine .bind (ih rest) fun others others' rest => ?_
          exact .ok (.cons ⟨arguments, rfl, same⟩ rest)

theorem dependenciesAt_eq (steps : List Step) (index : Nat) :
    dependenciesAt steps index = ((steps.map Step.dependencies)[index]?).getD [] := by
  rw [dependenciesAt, List.getElem?_map]
  cases steps[index]? <;> rfl

theorem validateAcyclic_reordered (same : List.Forall₂ Step.Reordered steps steps') :
    validateAcyclic steps = validateAcyclic steps' := by
  have before : dependenciesAt steps = dependenciesAt steps' := by
    funext index
    rw [dependenciesAt_eq, dependenciesAt_eq, map_reordered (fun _ _ => rfl) same]
  rw [validateAcyclic, validateAcyclic, before, same.length_eq]

theorem buildProjection_reordered (same : List.Forall₂ Step.Reordered steps steps') :
    buildProjection registry steps = buildProjection registry steps' := by
  rw [buildProjection, buildProjection, map_reordered (fun _ _ => rfl) same]

theorem hashDependencies_eq (steps : List Step) (accumulator : Accumulator)
    (dependencies : List Nat) : hashDependencies steps accumulator dependencies =
      dependencies.foldl (fun accumulator index =>
        ((steps.map Step.stepId)[index]?).elim accumulator fun id => accumulator.cstring id.1)
        accumulator := by
  rw [hashDependencies]
  congr 1
  funext accumulator index
  rw [List.getElem?_map]
  cases steps[index]? <;> rfl

theorem hashSteps_reordered {lefts rights : List Step}
    (ids : steps.map Step.stepId = steps'.map Step.stepId)
    (same : List.Forall₂ Step.Reordered lefts rights) (accumulator : Accumulator) :
    hashSteps numberText steps accumulator lefts =
      hashSteps numberText steps' accumulator rights := by
  induction same generalizing accumulator with
  | nil => rfl
  | cons here _ ih =>
      obtain ⟨arguments, rfl, same⟩ := here
      have called : ∀ accumulator, hashJson numberText accumulator _ =
          hashJson numberText accumulator _ := hashJson_reordered same
      simp only [hashSteps, hashCall, hashAttributes, hashDependencies_eq, called, ids, ih]

theorem sources_reordered {lefts rights : List StepSource}
    (same : List.Forall₂ StepSource.Reordered lefts rights) :
    lefts.map StepSource.stepId = rights.map StepSource.stepId ∧ (lefts ≠ [] ↔ rights ≠ []) := by
  constructor
  · induction same with
    | nil => rfl
    | cons here _ ih =>
        obtain ⟨arguments, rfl, _⟩ := here
        exact congrArg₂ List.cons rfl ih
  · cases same <;> simp

theorem computeHash_reordered {source : Source} {tools : Registry} (sources : List StepSource)
    (same : List.Forall₂ Step.Reordered steps steps') :
    computeHash numberText (assemble source steps tools) =
      computeHash numberText (assemble { source with steps := sources } steps' tools) := by
  have header : hashHeader (assemble source steps tools) =
      hashHeader (assemble { source with steps := sources } steps' tools) := by
    simp only [hashHeader, assemble, same.length_eq]
    rfl
  rw [computeHash, computeHash, header]
  exact hashSteps_reordered (map_reordered (fun _ _ => rfl) same) same _

theorem compileDag_reordered {left right : Source} (same : left.Reordered right) :
    Outcome.Agrees (fun plan plan' : ExecutableDag => plan.planHash = plan'.planHash)
      (compileDag numberText double config registry left)
      (compileDag numberText double config registry right) := by
  obtain ⟨sources, rfl, same⟩ := same
  obtain ⟨ids, nonempty⟩ := sources_reordered same
  refine .bind (.check ?_) fun _ _ _ => ?_
  · rw [Outcome.require_eq_ok, Outcome.require_eq_ok]
    simp only [validCompilation, nonempty, same.length_eq]
  dsimp only
  rw [← ids]
  refine .bind_same fun _ => .bind (.mapM same fun _ _ => admitStep_reordered) ?_
  intro admitted admitted' same'
  refine .bind (resolveDependencies_reordered same same') fun steps steps' same' => ?_
  rw [← validateAcyclic_reordered same', ← buildProjection_reordered same']
  refine .bind_same fun _ => .bind_same fun tools => ?_
  rw [computeHash_reordered sources same']
  exact .bind_same fun _ => .ok rfl

end

theorem arrayLast_keys : ["null", "a"].Nodup := by decide

/-- The fields of `emptyArray` the other way round. -/
def arrayLast : Document where
  value := .object [("null", .null), ("a", .array [])]
  keyed := ⟨arrayLast_keys, trivial, trivial, trivial⟩
  plainKeys := ⟨rfl, trivial, rfl, trivial, trivial⟩

theorem emptyArray_reordered : emptyArray.Reordered arrayLast := .permute (.swap _ _ [])

def callPlan (arguments : Document) : TypedPlan := ⟨.inspect, singleStep, anyTool.name, some arguments⟩

end TurboAgent.AgentCompiler
