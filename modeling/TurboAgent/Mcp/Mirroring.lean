import TurboAgent.Logic.Base64
import TurboAgent.Logic.Lists
import TurboAgent.Mcp.Headers

/-!
# Mirroring

The headers of an accepted schema are its annotations, each with the path that leads to it.  A call
sends one header for each of them that has an argument, and whatever bytes the argument holds, its
header is safe and can be told from those of other arguments.
-/

namespace TurboAgent.Mcp

open Runtime

/-- The schema that a path of properties leads to. -/
inductive Reaches : Json → List String → Json → Prop where
  | here {node : Json} : Reaches node [] node
  | there {node child place : Json} {properties : List (String × Json)} {key : String}
      {path : List String} :
      node.field "properties" = some (.object properties) → (key, child) ∈ properties →
      Reaches child path place → Reaches node (key :: path) place

def propertiesOf (node : Json) : List (String × Json) :=
  match node.field "properties" with
  | some (.object properties) => properties
  | _ => []

/-- The header that a schema asks for, with the path to the schema. -/
structure Annotates (place : Json) (path : List String) (binding : HeaderBinding) : Prop where
  name : place.field "x-mcp-header" = some (.string binding.name)
  type : place.field "type" = some (.string binding.type.text)
  path : binding.path = path

/-- The bindings are the annotations below a schema, which itself is at `path`. -/
structure Collects (node : Json) (path : List String) (bindings : List HeaderBinding) : Prop where
  sound : ∀ binding ∈ bindings, ∃ rest place,
    Reaches node rest place ∧ Annotates place (path ++ rest) binding
  complete : ∀ rest place annotation, Reaches node rest place →
    place.field "x-mcp-header" = some annotation →
    ∃ binding ∈ bindings, Annotates place (path ++ rest) binding

/-- Names that are told apart without regard to case, and can stand in a header. -/
def NamesDistinct (bindings : List HeaderBinding) : Prop :=
  (bindings.map fun binding => foldName binding.name).Nodup ∧
    ∀ binding ∈ bindings, headerNameValid binding.name = true

def NamedOnce (schema : Json) : Prop :=
  ∀ path place properties, Reaches schema path place →
    place.field "properties" = some (.object properties) → (properties.map Prod.fst).Nodup

/-! ## Collecting -/

theorem jsonCString_eq {object : Json} {key text : String}
    (read : jsonCString object key = some text) : object.field key = some (.string text) := by
  unfold jsonCString at read
  split at read
  next inner stored =>
    split at read
    next =>
      cases read
      exact stored
    next => cases read
  next => cases read

theorem headerValueType_eq {text : String} {type : HeaderValueType}
    (read : headerValueType text = some type) : text = type.text := by
  unfold headerValueType at read
  split at read
  next same =>
    cases read
    exact same
  split at read
  next same =>
    cases read
    exact same
  split at read
  next same =>
    cases read
    exact same
  next => cases read

variable {headers result : List HeaderBinding} {path : List String} {schema : Json}

theorem collectHeader_some (collected : collectHeader headers path schema = some result) :
    ∃ binding, result = headers ++ [binding] ∧ Annotates schema path binding ∧
      headerNameValid binding.name = true ∧ headerNameUnique headers binding.name = true := by
  unfold collectHeader at collected
  obtain ⟨name, named, collected⟩ := Option.bind_eq_some_iff.mp collected
  split at collected
  next => cases collected
  next checked =>
    obtain ⟨type, typed, collected⟩ := Option.bind_eq_some_iff.mp collected
    split at collected
    next => cases collected
    obtain ⟨valueType, read, collected⟩ := Option.bind_eq_some_iff.mp collected
    cases collected
    simp only [Bool.or_eq_true, decide_eq_true_eq, not_or, Bool.not_eq_false] at checked
    refine ⟨⟨name, path, valueType⟩, rfl, ⟨jsonCString_eq named, ?_, rfl⟩, checked⟩
    rw [jsonCString_eq typed, headerValueType_eq read]

theorem namesDistinct_nil : NamesDistinct [] :=
  ⟨List.nodup_nil, List.forall_mem_nil _⟩

theorem collectHeader_distinct (collected : collectHeader headers path schema = some result)
    (distinct : NamesDistinct headers) : NamesDistinct result := by
  obtain ⟨binding, rfl, -, valid, unique⟩ := collectHeader_some collected
  constructor
  · rw [List.map_append, List.map_singleton]
    refine Lists.nodup_snoc distinct.1 fun member => ?_
    obtain ⟨other, among, same⟩ := List.mem_map.mp member
    have different := List.all_eq_true.mp unique other among
    exact absurd same (of_decide_eq_true different)
  · exact Lists.forall_mem_snoc distinct.2 valid

variable {node : Json}

theorem scanAnnotation_some (scanned : scanAnnotation true path headers node = some result) :
    (node.field "x-mcp-header" = none ∧ result = headers) ∨
      collectHeader headers path node = some result := by
  unfold scanAnnotation at scanned
  split at scanned
  next absent =>
    cases scanned
    exact .inl ⟨absent, rfl⟩
  next => exact .inr scanned
  next => cases scanned

theorem scanAnnotation_unreachable (scanned : scanAnnotation false path headers node = some result) :
    result = headers := by
  unfold scanAnnotation at scanned
  split at scanned
  next =>
    cases scanned
    rfl
  next => cases scanned
  next => cases scanned

theorem scanMember_keeps {scan : List HeaderBinding → Json → Option (List HeaderBinding)}
    {reachable : Bool} {member : String × Json}
    (keeps : ∀ headers node result, scan headers node = some result → result = headers)
    (scanned : scanMember scan reachable headers member = some result) : result = headers := by
  unfold scanMember at scanned
  split at scanned
  next => cases scanned
  split at scanned
  next =>
    cases scanned
    rfl
  next => exact keeps _ _ _ scanned

variable {room : Nat}

theorem scanSchema_unreachable : ∀ {path : List String}
    {headers result : List HeaderBinding} {node : Json},
    scanSchema room false path headers node = some result → result = headers := by
  induction room with
  | zero =>
      intro path headers result node scanned
      cases scanned
  | succ room ih =>
      intro path headers result node scanned
      cases node with
      | array elements =>
          exact Lists.foldlM_keeps (· = headers)
            (fun _ _ before next ran same => (ih ran).trans same) scanned rfl
      | object members =>
          rw [scanSchema] at scanned
          obtain ⟨annotated, first, second⟩ := Option.bind_eq_some_iff.mp scanned
          rw [if_neg Bool.false_ne_true] at second
          exact Lists.foldlM_keeps (· = headers)
            (fun _ _ before next ran same => (scanMember_keeps (fun _ _ _ => ih) ran).trans same)
            second (scanAnnotation_unreachable first)
      | _ =>
          cases scanned
          rfl

variable {scan : List String → List HeaderBinding → Json → Option (List HeaderBinding)}

theorem scanProperties_some
    (scanned : scanProperties scan path headers (node.field "properties") = some result) :
    (propertiesOf node).foldlM (scanProperty scan path) headers = some result := by
  unfold propertiesOf
  unfold scanProperties at scanned
  split at scanned
  next absent =>
    rw [absent]
    exact scanned
  next properties stored =>
    rw [stored]
    exact scanned
  next => cases scanned

/-- At a schema that can be reached, the annotation and the properties are what counts. -/
theorem scanSchema_reachable (scanned : scanSchema (room + 1) true path headers node = some result) :
    ∃ annotated, scanAnnotation true path headers node = some annotated ∧
      (propertiesOf node).foldlM (scanProperty (scanSchema room true) path) annotated =
        some result := by
  cases node with
  | array elements =>
      have same : result = headers :=
        Lists.foldlM_keeps (· = headers)
          (fun _ _ before next ran same => (scanSchema_unreachable ran).trans same) scanned rfl
      exact ⟨headers, rfl, congrArg some same.symm⟩
  | object members =>
      rw [scanSchema] at scanned
      obtain ⟨annotated, first, scanned⟩ := Option.bind_eq_some_iff.mp scanned
      obtain ⟨collected, second, scanned⟩ := Option.bind_eq_some_iff.mp scanned
      have same : result = collected :=
        Lists.foldlM_keeps (· = collected)
          (fun _ _ before next ran same =>
            (scanMember_keeps (fun _ _ _ => scanSchema_unreachable) ran).trans same)
          scanned rfl
      rw [same]
      exact ⟨annotated, first, scanProperties_some second⟩
  | _ => exact ⟨headers, rfl, scanned⟩

theorem scanProperty_some {property : String × Json}
    (scanned : scanProperty scan path headers property = some result) :
    scan (path ++ [property.1]) headers property.2 = some result := by
  unfold scanProperty at scanned
  split at scanned
  next => exact scanned
  next => cases scanned

theorem scanSchema_distinct : ∀ {path : List String}
    {headers result : List HeaderBinding} {node : Json},
    scanSchema room true path headers node = some result → NamesDistinct headers →
    NamesDistinct result := by
  induction room with
  | zero =>
      intro path headers result node scanned
      cases scanned
  | succ room ih =>
      intro path headers result node scanned distinct
      obtain ⟨annotated, first, second⟩ := scanSchema_reachable scanned
      have distinct' : NamesDistinct annotated := by
        rcases scanAnnotation_some first with ⟨-, rfl⟩ | collected
        · exact distinct
        · exact collectHeader_distinct collected distinct
      exact Lists.foldlM_keeps NamesDistinct
        (fun _ _ before next ran => ih (scanProperty_some ran)) second distinct'

/-- The bindings of the properties of an object at `path`. -/
structure CollectsBelow (properties : List (String × Json)) (path : List String)
    (bindings : List HeaderBinding) : Prop where
  sound : ∀ binding ∈ bindings, ∃ key child rest place,
    (key, child) ∈ properties ∧ Reaches child rest place ∧
      Annotates place (path ++ key :: rest) binding
  complete : ∀ key child rest place annotation, (key, child) ∈ properties →
    Reaches child rest place → place.field "x-mcp-header" = some annotation →
    ∃ binding ∈ bindings, Annotates place (path ++ key :: rest) binding

theorem collectsBelow_nil (path : List String) : CollectsBelow [] path [] where
  sound := List.forall_mem_nil _
  complete _ _ _ _ _ member := absurd member List.not_mem_nil

theorem CollectsBelow.cons {properties : List (String × Json)} {path : List String}
    {own others : List HeaderBinding} {key : String} {child : Json}
    (below : CollectsBelow properties path others) (first : Collects child (path ++ [key]) own) :
    CollectsBelow ((key, child) :: properties) path (own ++ others) := by
  have joined : ∀ rest : List String, path ++ [key] ++ rest = path ++ key :: rest := fun rest => by
    rw [List.append_assoc, List.singleton_append]
  constructor
  · intro binding member
    rcases List.mem_append.mp member with here | later
    · obtain ⟨rest, place, reached, annotated⟩ := first.sound binding here
      exact ⟨key, child, rest, place, List.mem_cons_self, reached, joined rest ▸ annotated⟩
    · obtain ⟨other, schema, rest, place, among, reached, annotated⟩ := below.sound binding later
      exact ⟨other, schema, rest, place, List.mem_cons_of_mem _ among, reached, annotated⟩
  · intro other schema rest place annotation member reached asked
    rcases List.mem_cons.mp member with same | later
    · cases same
      obtain ⟨binding, among, annotated⟩ := first.complete rest place annotation reached asked
      exact ⟨binding, List.mem_append_left _ among, joined rest ▸ annotated⟩
    · obtain ⟨binding, among, annotated⟩ :=
        below.complete other schema rest place annotation later reached asked
      exact ⟨binding, List.mem_append_right _ among, annotated⟩

theorem field_of_propertiesOf {property : String × Json} (member : property ∈ propertiesOf node) :
    node.field "properties" = some (.object (propertiesOf node)) := by
  unfold propertiesOf at member ⊢
  split at member
  next properties stored => rw [stored]
  next => cases member

theorem Collects.of_below {own others : List HeaderBinding}
    (annotated : ∀ binding ∈ own, Annotates node path binding)
    (asked : ∀ annotation, node.field "x-mcp-header" = some annotation →
      ∃ binding ∈ own, Annotates node path binding)
    (below : CollectsBelow (propertiesOf node) path others) :
    Collects node path (own ++ others) := by
  constructor
  · intro binding member
    rcases List.mem_append.mp member with here | later
    · refine ⟨[], node, .here, ?_⟩
      rw [List.append_nil]
      exact annotated binding here
    · obtain ⟨key, child, rest, place, among, reached, found⟩ := below.sound binding later
      exact ⟨key :: rest, place, .there (field_of_propertiesOf among) among reached, found⟩
  · intro rest place annotation reached found
    cases reached with
    | here =>
        obtain ⟨binding, among, annotates⟩ := asked annotation found
        refine ⟨binding, List.mem_append_left _ among, ?_⟩
        rw [List.append_nil]
        exact annotates
    | @there _ _ _ properties _ _ stored member reached =>
        have same : propertiesOf node = properties := by rw [propertiesOf, stored]
        rw [← same] at member
        obtain ⟨binding, among, annotates⟩ :=
          below.complete _ _ _ place annotation member reached found
        exact ⟨binding, List.mem_append_right _ among, annotates⟩

theorem foldlM_collects {properties : List (String × Json)}
    (each : ∀ path headers node result, scan path headers node = some result →
      ∃ own, result = headers ++ own ∧ Collects node path own)
    (scanned : properties.foldlM (scanProperty scan path) headers = some result) :
    ∃ others, result = headers ++ others ∧ CollectsBelow properties path others := by
  induction properties generalizing headers with
  | nil =>
      cases scanned
      exact ⟨[], (List.append_nil _).symm, collectsBelow_nil path⟩
  | cons property properties ih =>
      obtain ⟨next, first, rest⟩ := Lists.foldlM_cons_some.mp scanned
      obtain ⟨own, rfl, here⟩ := each _ _ _ _ (scanProperty_some first)
      obtain ⟨others, rfl, below⟩ := ih rest
      exact ⟨own ++ others, List.append_assoc .., below.cons here⟩

theorem scanSchema_collects : ∀ {path : List String}
    {headers result : List HeaderBinding} {node : Json},
    scanSchema room true path headers node = some result →
    ∃ own, result = headers ++ own ∧ Collects node path own := by
  induction room with
  | zero =>
      intro path headers result node scanned
      cases scanned
  | succ room ih =>
      intro path headers result node scanned
      obtain ⟨annotated, first, second⟩ := scanSchema_reachable scanned
      obtain ⟨others, rfl, below⟩ := foldlM_collects (fun _ _ _ _ => ih) second
      rcases scanAnnotation_some first with ⟨absent, rfl⟩ | collected
      · refine ⟨[] ++ others, rfl, .of_below (List.forall_mem_nil _) ?_ below⟩
        intro annotation asked
        exact absurd (absent.symm.trans asked) nofun
      · obtain ⟨binding, rfl, annotates, -⟩ := collectHeader_some collected
        refine ⟨[binding] ++ others, List.append_assoc .., .of_below ?_ ?_ below⟩
        · exact List.forall_mem_singleton.mpr annotates
        · intro annotation asked
          exact ⟨binding, List.mem_singleton_self _, annotates⟩

theorem Reaches.unique {left right : Json} (once : NamedOnce schema)
    (reached : Reaches schema path left) (reached' : Reaches schema path right) : left = right := by
  induction reached with
  | here =>
      cases reached'
      rfl
  | @there node child place properties key path stored member reached ih =>
      cases reached' with
      | there stored' member' reached' =>
          cases stored.symm.trans stored'
          have distinct := once [] node properties .here stored
          have same := (List.inj_on_of_nodup_map distinct) member member' rfl
          cases same
          exact ih (fun rest place inner below stored' =>
            once (key :: rest) place inner (.there stored member below) stored') reached'

/-! ## Values -/

structure SafeValue (value : Bytes) : Prop where
  plain : ∀ byte ∈ value, byte = 9 ∨ 32 ≤ byte ∧ byte ≤ 126
  start : ∀ byte, value.head? = some byte → byte ≠ 9 ∧ byte ≠ 32
  ending : ∀ byte, value.getLast? = some byte → byte ≠ 9 ∧ byte ≠ 32

section

variable {libraries : Libraries}

theorem plainByte_range {byte : UInt8} (plain : plainByte byte = true) :
    byte = 9 ∨ 32 ≤ byte ∧ byte ≤ 126 := by
  simp only [plainByte, Bool.or_eq_true, Bool.and_eq_true, decide_eq_true_eq, beq_iff_eq] at plain
  rcases plain with (⟨low, high⟩ | space) | tab
  · exact .inr ⟨UInt8.le_trans (by decide) low, high⟩
  · exact .inr (by rw [space]; decide)
  · exact .inl tab

theorem blankByte_eq_false {byte : UInt8} (full : blankByte byte = false) :
    byte ≠ 9 ∧ byte ≠ 32 := by
  simp only [blankByte, Bool.or_eq_false_iff, beq_eq_false_iff_ne] at full
  exact ⟨full.2, full.1⟩

theorem safeValue_of_plain {value : Bytes} (safe : headerPlainSafe value = true) :
    SafeValue value := by
  simp only [headerPlainSafe, Bool.and_eq_true, Bool.not_eq_true', Bool.or_eq_false_iff,
    List.all_eq_true] at safe
  obtain ⟨⟨⟨start, ending⟩, -⟩, plain⟩ := safe
  refine ⟨fun byte member => plainByte_range (plain byte member), fun byte first => ?_,
    fun byte last => ?_⟩
  · rw [first] at start
    exact blankByte_eq_false start
  · rw [last] at ending
    exact blankByte_eq_false ending

def marked (inner : Bytes) : Bytes :=
  encodedStart ++ inner ++ encodedEnd

theorem looksEncoded_marked (inner : Bytes) : looksEncoded (marked inner) = true := by
  have size : 11 ≤ (marked inner).length := by
    have start : encodedStart.length = 9 := by decide
    have ending : encodedEnd.length = 2 := by decide
    rw [marked, List.length_append, List.length_append]
    omega
  have front : encodedStart <+: marked inner :=
    ⟨inner ++ encodedEnd, (List.append_assoc ..).symm⟩
  have back : encodedEnd <:+ marked inner := ⟨encodedStart ++ inner, rfl⟩
  rw [looksEncoded, decide_eq_true size, List.isPrefixOf_iff_prefix.mpr front,
    List.isSuffixOf_iff_suffix.mpr back]
  rfl

theorem marked_not_plain (inner : Bytes) : headerPlainSafe (marked inner) = false := by
  rw [headerPlainSafe, looksEncoded_marked, Bool.not_true, Bool.and_false, Bool.false_and]

theorem marked_injective : Function.Injective marked := by
  intro left right same
  exact List.append_cancel_left (List.append_cancel_right same)

theorem encodeHeaderValue_eq (value : Bytes) :
    encodeHeaderValue libraries value =
      if headerPlainSafe value then value else marked (libraries.base64 value) := rfl

theorem encodeHeaderValue_safe (value : Bytes) : SafeValue (encodeHeaderValue libraries value) := by
  rw [encodeHeaderValue_eq]
  split
  next plain => exact safeValue_of_plain plain
  refine ⟨fun byte member => .inr ?_, fun byte first => ?_, fun byte last => ?_⟩
  · have visible :
        (encodedStart ++ encodedEnd).all (fun byte => 32 ≤ byte && byte ≤ 126) = true := by
      decide
    obtain ⟨starts, ends⟩ : (∀ byte ∈ encodedStart, 32 ≤ byte ∧ byte ≤ 126) ∧
        ∀ byte ∈ encodedEnd, 32 ≤ byte ∧ byte ≤ 126 := by
      simpa using visible
    rcases List.mem_append.mp member with front | ending
    · rcases List.mem_append.mp front with start | inner
      · exact starts byte start
      · obtain ⟨low, high⟩ := libraries.base64_visible value byte inner
        exact ⟨UInt8.le_trans (by decide) low, high⟩
    · exact ends byte ending
  · have head : byte = 61 := (Option.some.inj first).symm
    rw [head]
    decide
  · rw [marked, List.getLast?_append_of_ne_nil _ (by decide)] at last
    have tail : byte = 61 := (Option.some.inj last).symm
    rw [tail]
    decide

theorem encodeHeaderValue_injective : Function.Injective (encodeHeaderValue libraries) := by
  intro left right same
  rw [encodeHeaderValue_eq, encodeHeaderValue_eq] at same
  split at same
  next plain =>
    split at same
    next => exact same
    rw [same, marked_not_plain] at plain
    cases plain
  split at same
  next plain =>
    rw [← same, marked_not_plain] at plain
    cases plain
  next => exact libraries.base64_injective (marked_injective same)

/-! ## Calls -/

def present (arguments : Option Json) (binding : HeaderBinding) : Bool :=
  match argumentAtPath arguments binding.path with
  | none | some .null => false
  | some _ => true

def Carries (libraries : Libraries) (arguments : Option Json) (binding : HeaderBinding)
    (line : Bytes) : Prop :=
  ∃ value text, argumentAtPath arguments binding.path = some value ∧
    parameterText libraries binding.type value = some text ∧
    line = asciiBytes "Mcp-Param-" ++ utf8 binding.name ++ asciiBytes ": " ++
      encodeHeaderValue libraries text

def lowerByte (byte : UInt8) : UInt8 :=
  if 65 ≤ byte && byte ≤ 90 then byte + 32 else byte

def isParameterLine (line : Bytes) : Bool :=
  (asciiBytes "mcp-param-").isPrefixOf (line.map lowerByte)

variable {arguments : Option Json}

theorem parameterHeader_some {binding : HeaderBinding} {value : Json} {line : Bytes}
    (found : argumentAtPath arguments binding.path = some value)
    (formatted : parameterHeader libraries binding value = some line) :
    Carries libraries arguments binding line := by
  obtain ⟨text, read, rfl⟩ := Option.map_eq_some_iff.mp formatted
  exact ⟨value, text, found, read, rfl⟩

theorem parameterHeaders_some {bindings : List HeaderBinding} :
    ∀ {lines : List Bytes}, parameterHeaders libraries arguments bindings = some lines →
      List.Forall₂ (Carries libraries arguments) (bindings.filter (present arguments)) lines := by
  fun_induction parameterHeaders libraries arguments bindings with
  | case1 =>
      intro lines formatted
      cases formatted
      exact .nil
  | case2 binding bindings absent ih =>
      intro lines formatted
      rw [List.filter_cons_of_neg (by rw [present, absent]; decide)]
      exact ih formatted
  | case3 binding bindings empty ih =>
      intro lines formatted
      rw [List.filter_cons_of_neg (by rw [present, empty]; decide)]
      exact ih formatted
  | case4 binding bindings value filled found ih =>
      intro lines formatted
      obtain ⟨line, here, formatted⟩ := Option.bind_eq_some_iff.mp formatted
      obtain ⟨rest, later, formatted⟩ := Option.bind_eq_some_iff.mp formatted
      cases formatted
      have there : present arguments binding = true := by
        rw [present, found]
        cases value with
        | null => exact absurd rfl filled
        | _ => rfl
      rw [List.filter_cons_of_pos there]
      exact .cons (parameterHeader_some found here) (ih later)

theorem clientRequest_posted {client : Client} {method : String} {name : Option CString}
    {params : Json} {parameters lines : List Bytes} {body : Bytes}
    (posted : (clientRequest libraries client method name params parameters).1 =
      .posted lines body) : lines = requestHeaders libraries method name ++ parameters := by
  unfold clientRequest at posted
  split at posted
  next => cases posted
  simp only at posted
  split at posted
  next => cases posted
  split at posted
  next => cases posted
  split at posted
  next => cases posted
  split at posted
  next => cases posted
  split at posted
  next => cases posted
  cases posted
  rfl

theorem toolInvoke_posted {binding : ToolBinding} {checks : ContextChecks} {client : Client}
    {lines : List Bytes} {body : Bytes}
    (posted : (toolInvoke libraries binding checks client arguments).1 = .posted lines body) :
    ∃ parameters, parameterHeaders libraries arguments binding.headers = some parameters ∧
      lines = requestHeaders libraries "tools/call" (some binding.remoteName) ++ parameters := by
  unfold toolInvoke at posted
  split at posted
  next => cases posted
  split at posted
  next => cases posted
  split at posted
  next => cases posted
  next parameters formatted =>
    split at posted
    next => cases posted
    next => exact ⟨parameters, formatted, clientRequest_posted posted⟩

theorem requestHeaders_other {name : CString} {line : Bytes}
    (member : line ∈ requestHeaders libraries "tools/call" (some name)) :
    isParameterLine line = false := by
  simp only [requestHeaders, Option.map_some, Option.toList_some, List.mem_append, List.mem_cons,
    List.not_mem_nil, or_false] at member
  rcases member with (rfl | rfl | rfl | rfl) | rfl
  · decide
  · decide
  · decide
  · decide
  · rfl

end

structure Mirrors (schema : Json) (bindings : List HeaderBinding) : Prop where
  sound : ∀ binding ∈ bindings, ∃ place,
    Reaches schema binding.path place ∧ Annotates place binding.path binding
  complete : ∀ path place annotation, Reaches schema path place →
    place.field "x-mcp-header" = some annotation →
    ∃ binding ∈ bindings, Annotates place path binding
  distinct : NamesDistinct bindings
  paths : NamedOnce schema → (bindings.map HeaderBinding.path).Nodup

theorem schemaHeaders_mirrors {bindings : List HeaderBinding}
    (accepted : schemaHeaders schema = some bindings) : Mirrors schema bindings := by
  obtain ⟨own, same, collects⟩ := scanSchema_collects accepted
  rw [List.nil_append] at same
  obtain rfl := same
  have distinct := scanSchema_distinct accepted namesDistinct_nil
  have sound : ∀ binding ∈ bindings, ∃ place,
      Reaches schema binding.path place ∧ Annotates place binding.path binding := by
    intro binding member
    obtain ⟨rest, place, reached, annotates⟩ := collects.sound binding member
    rw [List.nil_append] at annotates
    obtain rfl := annotates.path
    exact ⟨place, reached, annotates⟩
  refine ⟨sound, collects.complete, distinct, fun once => ?_⟩
  -- A path leads to one schema, which has one name.
  refine List.pairwise_map.mpr ((List.pairwise_map.mp distinct.1).imp_of_mem ?_)
  intro left right member member' different same
  obtain ⟨place, reached, annotates⟩ := sound left member
  obtain ⟨place', reached', annotates'⟩ := sound right member'
  rw [← same] at reached'
  obtain rfl := reached.unique once reached'
  have named : left.name = right.name := by
    have stored := annotates.name.symm.trans annotates'.name
    simpa using stored
  exact different (congrArg foldName named)

/-- The headers of an accepted schema are its annotations; a call sends one header for each that has
an argument; header values are safe and tell arguments apart. -/
theorem schemaHeaders_mirrored (libraries : Libraries) {schema : Json}
    {bindings : List HeaderBinding} (accepted : schemaHeaders schema = some bindings) :
    Mirrors schema bindings ∧
    (∀ remoteName checks client arguments lines body,
      (toolInvoke libraries ⟨remoteName, bindings⟩ checks client arguments).1 =
        .posted lines body →
      ∃ others parameters, lines = others ++ parameters ∧
        (∀ line ∈ others, isParameterLine line = false) ∧
        List.Forall₂ (Carries libraries arguments) (bindings.filter (present arguments))
          parameters) ∧
    (∀ value, SafeValue (encodeHeaderValue libraries value)) ∧
    Function.Injective (encodeHeaderValue libraries) ∧
    Function.Injective fun text => encodeHeaderValue libraries (utf8 text) := by
  refine ⟨schemaHeaders_mirrors accepted, ?_, encodeHeaderValue_safe, encodeHeaderValue_injective,
    encodeHeaderValue_injective.comp utf8_injective⟩
  intro remoteName checks client arguments lines body posted
  obtain ⟨parameters, formatted, rfl⟩ := toolInvoke_posted posted
  exact ⟨_, parameters, rfl, fun line => requestHeaders_other, parameterHeaders_some formatted⟩

theorem base64_range (bytes : Bytes) :
    ∀ byte ∈ Logic.Base64.encode bytes, 33 ≤ byte ∧ byte ≤ 126 := by
  intro byte member
  have visible := Logic.Base64.encode_visible bytes byte member
  exact ⟨UInt8.le_trans (by decide) visible.1, UInt8.le_trans visible.2 (by decide)⟩

/-- Base 64, and numbers that are written without exponent. -/
def sampleLibraries : Libraries where
  base64 := Logic.Base64.encode
  serialize _ := asciiBytes "\x7b\x7d"
  wholeNumber
    | mantissa, 0 =>
        if mantissa.natAbs ≤ 9007199254740991 then some (mantissa < 0, mantissa.natAbs) else none
    | _, _ => none
  base64_visible := base64_range
  base64_injective := Logic.Base64.encode_injective

def sampleSchema : Json :=
  .object [("type", .string "object"), ("properties", .object
    [("region", .object [("type", .string "string"), ("x-mcp-header", .string "Region")])])]

def sampleBindings : List HeaderBinding := [⟨"Region", ["region"], .string⟩]

theorem noNul_fetch : noNul "fetch" = true := by decide

def sampleClient : Client where
  config := ⟨⟨"fetch", noNul_fetch⟩, ⟨"fetch", noNul_fetch⟩, 64, 8, 256, by decide⟩
  nextRequestId := 1
  lastError := []

/-- A blank is a region that no header has as it is. -/
def sampleArguments : Option Json := some (.object [("region", .string " ")])

def sampleLines : List Bytes :=
  requestHeaders sampleLibraries "tools/call" (some ⟨"fetch", noNul_fetch⟩) ++
    [asciiBytes "Mcp-Param-Region: =?base64?IA==?="]

theorem schemaHeaders_mirrored_sample : Mirrors sampleSchema sampleBindings ∧
    (toolInvoke sampleLibraries ⟨⟨"fetch", noNul_fetch⟩, sampleBindings⟩ ⟨.ok, .ok⟩ sampleClient
      sampleArguments).1 = .posted sampleLines (asciiBytes "\x7b\x7d") ∧
    ∃ others parameters, sampleLines = others ++ parameters ∧
      (∀ line ∈ others, isParameterLine line = false) ∧
      List.Forall₂ (Carries sampleLibraries sampleArguments)
        (sampleBindings.filter (present sampleArguments)) parameters := by
  obtain ⟨mirrors, posts, -⟩ :=
    @schemaHeaders_mirrored sampleLibraries sampleSchema sampleBindings (by decide)
  have posted : (toolInvoke sampleLibraries ⟨⟨"fetch", noNul_fetch⟩, sampleBindings⟩ ⟨.ok, .ok⟩
      sampleClient sampleArguments).1 = .posted sampleLines (asciiBytes "\x7b\x7d") := by
    decide +kernel
  exact ⟨mirrors, posted, posts _ _ _ _ _ _ posted⟩

end TurboAgent.Mcp
