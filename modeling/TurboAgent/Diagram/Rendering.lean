import TurboAgent.Diagram.Mermaid
import TurboAgent.Logic.Outcome

/-!
# Rendering

A rendered view is its header, a line for each node and each edge, and its footer.  No label
breaks out of its quotes, and the lines give back the labels and the ends of the edges.
-/

namespace TurboAgent.Diagram

variable {library : Library} {view : Json}

/-! ## Labels -/

def escapeText (label : List Char) : List Char := label.flatMap escapeChar

def shown (ch : Char) : Char :=
  if ch = '\n' ∨ ch = '\r' ∨ ch = '\t' then ' ' else ch

/-- A character that Mermaid or HTML reads, or a line break. -/
def Reserved (ch : Char) : Prop :=
  ch.toNat ∈ [34, 91, 93, 123, 125, 124, 96, 60, 62, 10, 13]

instance : DecidablePred Reserved := fun ch =>
  inferInstanceAs (Decidable (ch.toNat ∈ [34, 91, 93, 123, 125, 124, 96, 60, 62, 10, 13]))

theorem entity_safe : ∀ entity ∈ entities, ∀ ch ∈ entity.2.toList, ¬Reserved ch := by
  simp [entities, Reserved]

theorem entity_codes : ∀ entity ∈ entities, entity.1 ≠ 9 ∧ entity.1 ≠ 10 ∧ entity.1 ≠ 13 := by
  simp [entities]

theorem entity_decode : ∀ entity ∈ entities, ∀ rest,
    decode none (entity.2.toList ++ rest) = Char.ofNat entity.1 :: decode none rest := by
  simp only [entities, List.forall_mem_cons, List.not_mem_nil, false_implies, implies_true,
    and_true]
  refine ⟨?_, ?_, ?_, ?_, ?_, ?_, ?_, ?_, ?_, ?_, ?_, ?_⟩ <;> exact fun _ => rfl

theorem escapeChar_cases (ch : Char) :
    (∃ entity ∈ entities, entity.1 = ch.toNat ∧ escapeChar ch = entity.2.toList) ∨
      ((ch = '\n' ∨ ch = '\r' ∨ ch = '\t') ∧ escapeChar ch = [' ']) ∨
      (¬(ch = '\n' ∨ ch = '\r' ∨ ch = '\t') ∧ (∀ entity ∈ entities, entity.1 ≠ ch.toNat) ∧
        escapeChar ch = [ch]) := by
  unfold escapeChar
  cases found : entities.lookup ch.toNat with
  | some entity =>
      obtain ⟨before, after, split, -⟩ := List.lookup_eq_some_iff.mp found
      refine .inl ⟨(ch.toNat, entity), ?_, rfl, rfl⟩
      rw [split]
      exact List.mem_append_right _ List.mem_cons_self
  | none =>
      have absent := List.lookup_eq_none_iff.mp found
      dsimp only
      by_cases blank : ch = '\n' ∨ ch = '\r' ∨ ch = '\t'
      · exact .inr (.inl ⟨blank, if_pos blank⟩)
      · refine .inr (.inr ⟨blank, ?_, if_neg blank⟩)
        intro entity member same
        have apart := absent entity member
        simp [same] at apart

theorem escapeChar_safe (ch : Char) : ∀ written ∈ escapeChar ch, ¬Reserved written := by
  rcases escapeChar_cases ch with ⟨entity, member, -, same⟩ | ⟨-, same⟩ | ⟨line, plain, same⟩
  · rw [same]
    exact entity_safe entity member
  · rw [same]
    simp [Reserved]
  · rw [same]
    intro written isCh reserved
    rw [List.mem_singleton.mp isCh] at reserved
    have coded : ∀ code ∈ [34, 91, 93, 123, 125, 124, 96, 60, 62],
        ∃ entity ∈ entities, entity.1 = code := by simp [entities]
    by_cases isEntity : ch.toNat ∈ [34, 91, 93, 123, 125, 124, 96, 60, 62]
    · obtain ⟨entity, member, same⟩ := coded _ isEntity
      exact plain entity member same
    · have lineBreak : ch.toNat = 10 ∨ ch.toNat = 13 := by
        simp only [Reserved, List.mem_cons, List.not_mem_nil, or_false] at reserved isEntity
        omega
      exact line (lineBreak.imp Char.toNat_inj.mp fun isReturn => .inl (Char.toNat_inj.mp isReturn))

theorem decode_escapeChar (ch : Char) (rest : List Char) :
    decode none (escapeChar ch ++ rest) = shown ch :: decode none rest := by
  rcases escapeChar_cases ch with ⟨entity, member, isCh, same⟩ | ⟨blank, same⟩ |
    ⟨line, plain, same⟩
  · have line : ¬(ch = '\n' ∨ ch = '\r' ∨ ch = '\t') := by
      have codes := entity_codes entity member
      rw [isCh] at codes
      rintro (rfl | rfl | rfl)
      · exact codes.2.1 rfl
      · exact codes.2.2 rfl
      · exact codes.1 rfl
    rw [same, entity_decode entity member, isCh, Char.ofNat_toNat, shown, if_neg line]
  · rw [same, shown, if_pos blank]
    rfl
  · have notHash : ch ≠ '#' := by
      rintro rfl
      exact plain (35, "#35;") (by decide) rfl
    rw [same, shown, if_neg line, List.singleton_append, decode, if_neg notHash]

theorem escapeText_safe (label : List Char) : ∀ written ∈ escapeText label, ¬Reserved written := by
  intro written member
  obtain ⟨ch, -, isWritten⟩ := List.mem_flatMap.mp member
  exact escapeChar_safe ch written isWritten

theorem decode_escapeText (label : List Char) :
    decode none (escapeText label) = label.map shown := by
  induction label with
  | nil => rfl
  | cons ch label ih =>
      rw [escapeText, List.flatMap_cons, decode_escapeChar, List.map_cons]
      exact congrArg _ ih

/-! ## Lines -/

def nodeLine (library : Library) (entry : Json × Nat) : List Char :=
  "    n".toList ++ (Nat.toDigits 10 entry.2 ++ ("[\"".toList ++
    (escapeText ((field library (some entry.1) "label" false).getD "").toList ++
      "\"]".toList)))

def edgeLine (library : Library) (nodes : List Json) (edge : Json) : List Char :=
  "    n".toList ++ (Nat.toDigits 10 (endOf library nodes edge "from") ++ (" -->|\"".toList ++
    (escapeText (edgeLabel library edge).toList ++ ("\"| n".toList ++
      Nat.toDigits 10 (endOf library nodes edge "to")))))

theorem afterStart_append (start rest : List Char) :
    afterStart start (start ++ rest) = some rest := by
  rw [afterStart, if_pos (List.prefix_append _ _), List.drop_left]

theorem readIndex_append (index : Nat) {rest : List Char} (ends : rest.head?.all (!·.isDigit)) :
    readIndex (Nat.toDigits 10 index ++ rest) = (index, rest) := by
  have digits : ∀ ch ∈ Nat.toDigits 10 index, ch.isDigit = true := fun ch member =>
    Nat.isDigit_of_mem_toDigits (by decide) (by decide) member
  have stops : rest.takeWhile Char.isDigit = [] ∧ rest.dropWhile Char.isDigit = rest := by
    cases rest with
    | nil => exact ⟨rfl, rfl⟩
    | cons ch rest =>
        have notDigit : ch.isDigit = false := by simpa using ends
        rw [List.takeWhile_cons, List.dropWhile_cons, notDigit]
        exact ⟨rfl, rfl⟩
  rw [readIndex, List.takeWhile_append_of_pos digits, List.dropWhile_append_of_pos digits,
    stops.1, stops.2, List.append_nil, Nat.ofDigitChars_ten_toDigits]

theorem notQuote_escapeText (label : List Char) :
    ∀ ch ∈ escapeText label, notQuote ch = true := by
  intro ch member
  rw [notQuote, bne_iff_ne]
  intro quote
  exact escapeText_safe label ch member (by simp [Reserved, quote])

theorem takeWhile_notQuote {text rest : List Char} (safe : ∀ ch ∈ text, notQuote ch = true)
    (quoted : rest.head? = some '\x22') :
    (text ++ rest).takeWhile notQuote = text ∧ (text ++ rest).dropWhile notQuote = rest := by
  obtain ⟨tail, rfl⟩ : ∃ tail, rest = '\x22' :: tail := by
    cases rest with
    | nil => cases quoted
    | cons ch tail => exact ⟨tail, congrArg (· :: tail) (Option.some.inj quoted)⟩
  have stops : notQuote '\x22' = false := by decide
  rw [List.takeWhile_append_of_pos safe, List.dropWhile_append_of_pos safe,
    List.takeWhile_cons, List.dropWhile_cons, stops]
  exact ⟨List.append_nil _, rfl⟩

variable {text : List Char}

theorem readLine_node (index : Nat) (safe : ∀ ch ∈ text, notQuote ch = true) :
    readLine ("    n".toList ++ (Nat.toDigits 10 index ++ ("[\"".toList ++
      (text ++ "\"]".toList)))) = some (.node index (decode none text)) := by
  have opens : ("[\"".toList ++ (text ++ "\"]".toList)).head?.all (!·.isDigit) = true := by
    simp
  rw [readLine, afterStart_append, Option.bind_eq_bind, Option.bind_some,
    readIndex_append index opens]
  dsimp only
  rw [afterStart_append]
  dsimp only
  rw [(takeWhile_notQuote safe rfl).1]

theorem readLine_edge (source target : Nat) (safe : ∀ ch ∈ text, notQuote ch = true) :
    readLine ("    n".toList ++ (Nat.toDigits 10 source ++ (" -->|\"".toList ++
      (text ++ ("\"| n".toList ++ Nat.toDigits 10 target))))) =
        some (.edge source target (decode none text)) := by
  have opens : (" -->|\"".toList ++ (text ++ ("\"| n".toList ++
      Nat.toDigits 10 target))).head?.all (!·.isDigit) = true := by
    simp
  have notNode : afterStart "[\"".toList (" -->|\"".toList ++ (text ++ ("\"| n".toList ++
      Nat.toDigits 10 target))) = none := by
    simp [afterStart]
  have last := @readIndex_append target [] rfl
  rw [List.append_nil] at last
  obtain ⟨before, after⟩ := @takeWhile_notQuote text
    ("\"| n".toList ++ Nat.toDigits 10 target) safe rfl
  rw [readLine, afterStart_append, Option.bind_eq_bind, Option.bind_some,
    readIndex_append source opens]
  dsimp only
  rw [notNode]
  dsimp only
  rw [afterStart_append, Option.bind_some, after, afterStart_append, Option.bind_some, before,
    last]

theorem readLine_nodeLine (entry : Json × Nat) : readLine (nodeLine library entry) =
    some (.node entry.2
      (((field library (some entry.1) "label" false).getD "").toList.map shown)) := by
  have read := readLine_node entry.2
    (notQuote_escapeText ((field library (some entry.1) "label" false).getD "").toList)
  rw [decode_escapeText] at read
  exact read

theorem readLine_edgeLine (nodes : List Json) (edge : Json) :
    readLine (edgeLine library nodes edge) = some (.edge (endOf library nodes edge "from")
      (endOf library nodes edge "to") ((edgeLabel library edge).toList.map shown)) := by
  have read := readLine_edge (endOf library nodes edge "from") (endOf library nodes edge "to")
    (notQuote_escapeText (edgeLabel library edge).toList)
  rw [decode_escapeText] at read
  exact read

/-! ## Output -/

/-- A step writes this text, within the limit. -/
def Writes (step : List Char → Except Error (List Char)) (text : List Char) : Prop :=
  ∀ out after, step out = .ok after → after = out ++ text ∧
    (out.length ≤ maxOutputBytes → after.length ≤ maxOutputBytes)

theorem writes_append (text : List Char) : Writes (append · text) text := by
  intro out after written
  dsimp only [append] at written
  split_ifs at written with full
  cases written
  refine ⟨rfl, fun fits => ?_⟩
  rw [List.length_append]
  omega

theorem writes_nothing : Writes .ok [] := by
  intro out after written
  cases written
  exact ⟨(List.append_nil _).symm, id⟩

theorem Writes.bind {first second : List Char → Except Error (List Char)} {more : List Char}
    (writes : Writes first text) (later : Writes second more) :
    Writes (fun out => first out >>= second) (text ++ more) := by
  intro out after written
  obtain ⟨between, isFirst, isSecond⟩ := Outcome.bind_eq_ok.mp written
  obtain ⟨rfl, fits⟩ := writes out between isFirst
  obtain ⟨rfl, fits'⟩ := later _ after isSecond
  exact ⟨List.append_assoc .., fun small => fits' (fits small)⟩

theorem Writes.foldlM {α : Type} {step : List Char → α → Except Error (List Char)}
    {text : α → List Char} (writes : ∀ item, Writes (step · item) (text item)) (items : List α) :
    Writes (fun out => items.foldlM step out) (items.flatMap text) := by
  induction items with
  | nil => exact writes_nothing
  | cons item items ih => exact (writes item).bind ih

def comments (library : Library) (view : Json) : List String :=
  match view.field "selection" with
  | none => []
  | some selection =>
      if field library (some selection) "mode" false = some "shortest_path" then
        [focusComment, pathComment]
      else [focusComment]

def viewLines (library : Library) (view : Json) : List (List Char) :=
  "flowchart TD".toList :: (title library view).toList ::
    ((comments library view).map String.toList ++
      ((nodesOf view).zipIdx.map (nodeLine library) ++
        ((edgesOf view).map (edgeLine library (nodesOf view)) ++ ["  end".toList])))

def linesText (lines : List (List Char)) : List Char := lines.flatMap (· ++ ['\n'])

theorem writes_labelAppend (label : List Char) :
    Writes (labelAppend · label) (escapeText label) :=
  Writes.foldlM (fun ch => writes_append (escapeChar ch)) label

theorem writes_appendNode (entry : Json × Nat) :
    Writes (appendNode library · entry) (nodeLine library entry ++ ['\n']) := by
  have writes := (writes_append ("    n".toList ++ Nat.toDigits 10 entry.2 ++ "[\"".toList)).bind
    ((writes_labelAppend ((field library (some entry.1) "label" false).getD "").toList).bind
      (writes_append "\"]\n".toList))
  have same : "    n".toList ++ Nat.toDigits 10 entry.2 ++ "[\"".toList ++
      (escapeText ((field library (some entry.1) "label" false).getD "").toList ++
        "\"]\n".toList) = nodeLine library entry ++ ['\n'] := by
    simp [nodeLine]
  rw [same] at writes
  exact writes

theorem writes_appendEdge (nodes : List Json) (edge : Json) :
    Writes (appendEdge library nodes · edge) (edgeLine library nodes edge ++ ['\n']) := by
  have writes := (writes_append ("    n".toList ++
      Nat.toDigits 10 (endOf library nodes edge "from") ++ " -->|\"".toList)).bind
    ((writes_labelAppend (edgeLabel library edge).toList).bind
      (writes_append ("\"| n".toList ++ Nat.toDigits 10 (endOf library nodes edge "to") ++
        ['\n'])))
  have same : "    n".toList ++ Nat.toDigits 10 (endOf library nodes edge "from") ++
      " -->|\"".toList ++ (escapeText (edgeLabel library edge).toList ++ ("\"| n".toList ++
        Nat.toDigits 10 (endOf library nodes edge "to") ++ ['\n'])) =
      edgeLine library nodes edge ++ ['\n'] := by
    simp [edgeLine]
  rw [same] at writes
  exact writes

theorem writes_appendComments :
    Writes (appendComments library view)
      (linesText ((comments library view).map String.toList)) := by
  unfold appendComments comments
  cases view.field "selection" with
  | none => exact writes_nothing
  | some selection =>
      dsimp only
      split_ifs with path
      · have writes := (writes_append (focusComment ++ "\n").toList).bind
          (writes_append (pathComment ++ "\n").toList)
        simpa [linesText] using writes
      · have writes := (writes_append (focusComment ++ "\n").toList).bind writes_nothing
        simpa [linesText] using writes

def titles : List String := [
  "  subgraph diagram[\"Planned dependencies (focused) - not execution\"]",
  "  subgraph diagram[\"Planned dependencies - not execution\"]",
  "  subgraph diagram[\"Indexed knowledge (focused) - source freshness unverified\"]",
  "  subgraph diagram[\"Indexed knowledge - source freshness unverified\"]",
  "  subgraph diagram[\"Published execution and current journal observations (focused) " ++
    "- not a step trace\"]",
  "  subgraph diagram[\"Published execution and current journal observations " ++
    "- not a step trace\"]",
  "  subgraph diagram[\"Published execution records (focused) - not a step trace\"]",
  "  subgraph diagram[\"Published execution records - not a step trace\"]"]

theorem title_mem : title library view ∈ titles := by
  unfold title
  dsimp only
  split_ifs <;> simp [titles]

theorem titles_short : ∀ text ∈ titles, text.length ≤ 1024 := by
  decide +kernel

theorem mermaid_eq_ok {out : List Char} (rendered : mermaid library view = .ok out) :
    ViewValid library view ∧ out = linesText (viewLines library view) ∧
      out.length ≤ maxOutputBytes := by
  obtain ⟨_, valid, written⟩ := Outcome.bind_eq_ok.mp rendered
  have writes := (@writes_appendComments library view).bind
    ((Writes.foldlM (@writes_appendNode library) (nodesOf view).zipIdx).bind
      ((Writes.foldlM (@writes_appendEdge library (nodesOf view)) (edgesOf view)).bind
        (writes_append "  end\n".toList)))
  obtain ⟨rfl, fits⟩ := writes _ _ written
  refine ⟨graphValidate_iff.mp valid, ?_, fits ?_⟩
  · simp [linesText, viewLines, List.flatMap_map]
  · have short := titles_short _ (@title_mem library view)
    have room : 1024 + 14 ≤ maxOutputBytes := by decide
    simp only [String.toList_append, List.length_append, String.length_toList]
    have first : "flowchart TD\n".length = 13 := by decide
    have last : "\n".length = 1 := by decide
    omega

/-! ## Lines of the text -/

theorem splitOn_linesText {lines : List (List Char)} (whole : ∀ line ∈ lines, '\n' ∉ line) :
    (linesText lines).splitOn '\n' = lines ++ [[]] := by
  induction lines with
  | nil => rfl
  | cons line lines ih =>
      obtain ⟨first, rest⟩ := List.forall_mem_cons.mp whole
      rw [linesText, List.flatMap_cons, List.append_assoc, List.singleton_append,
        List.splitOn_append_cons_self_of_not_mem first]
      exact congrArg _ (ih rest)

theorem newline_not_mem_escapeText (label : List Char) : '\n' ∉ escapeText label := by
  intro member
  exact escapeText_safe label _ member (by simp [Reserved])

theorem newline_not_mem_toDigits (index : Nat) : '\n' ∉ Nat.toDigits 10 index := by
  intro member
  have digit := Nat.isDigit_of_mem_toDigits (by decide) (by decide) member
  exact absurd digit (by decide)

theorem newline_not_mem_nodeLine (entry : Json × Nat) : '\n' ∉ nodeLine library entry := by
  simp [nodeLine, newline_not_mem_escapeText, newline_not_mem_toDigits]

theorem newline_not_mem_edgeLine (nodes : List Json) (edge : Json) :
    '\n' ∉ edgeLine library nodes edge := by
  simp [edgeLine, newline_not_mem_escapeText, newline_not_mem_toDigits]

theorem fixed_lines : ∀ text ∈ titles ++ ["flowchart TD", focusComment, pathComment, "  end"],
    '\n' ∉ text.toList ∧ readLine text.toList = none := by
  decide +kernel

theorem comments_cases : comments library view ∈
    [[], [focusComment], [focusComment, pathComment]] := by
  unfold comments
  cases view.field "selection" with
  | none => simp
  | some selection =>
      dsimp only
      split_ifs <;> simp

theorem comments_fixed : ∀ text ∈ comments library view,
    text ∈ titles ++ ["flowchart TD", focusComment, pathComment, "  end"] := by
  intro text member
  have cases := @comments_cases library view
  simp only [List.mem_cons, List.not_mem_nil, or_false] at cases
  rcases cases with none | one | two
  · rw [none] at member
    cases member
  · rw [one] at member
    rw [List.mem_singleton.mp member]
    simp
  · rw [two] at member
    rcases List.mem_cons.mp member with rfl | member
    · simp
    · rw [List.mem_singleton.mp member]
      simp

theorem viewLines_whole : ∀ line ∈ viewLines library view, '\n' ∉ line := by
  have fixed := fun text member => (fixed_lines text member).1
  intro line member
  rw [viewLines] at member
  rcases List.mem_cons.mp member with rfl | member
  · exact fixed "flowchart TD" (by simp)
  rcases List.mem_cons.mp member with rfl | member
  · exact fixed _ (List.mem_append_left _ title_mem)
  rcases List.mem_append.mp member with comment | member
  · obtain ⟨text, isComment, rfl⟩ := List.mem_map.mp comment
    exact fixed text (comments_fixed text isComment)
  rcases List.mem_append.mp member with node | member
  · obtain ⟨entry, -, rfl⟩ := List.mem_map.mp node
    exact newline_not_mem_nodeLine entry
  rcases List.mem_append.mp member with edge | last
  · obtain ⟨record, -, rfl⟩ := List.mem_map.mp edge
    exact newline_not_mem_edgeLine _ record
  · rw [List.mem_singleton.mp last]
    exact fixed "  end" (by simp)

/-- What the lines of a node and of an edge show. -/
def entriesOf (library : Library) (view : Json) : List Entry :=
  (nodesOf view).zipIdx.map (fun entry => .node entry.2
    (((field library (some entry.1) "label" false).getD "").toList.map shown)) ++
  (edgesOf view).map fun edge => .edge (endOf library (nodesOf view) edge "from")
    (endOf library (nodesOf view) edge "to") ((edgeLabel library edge).toList.map shown)

theorem filterMap_viewLines :
    (viewLines library view ++ [[]]).filterMap readLine = entriesOf library view := by
  have fixed := fun text member => (fixed_lines text member).2
  have none : ((comments library view).map String.toList).filterMap readLine = [] := by
    rw [List.filterMap_eq_nil_iff]
    intro line member
    obtain ⟨text, isComment, rfl⟩ := List.mem_map.mp member
    exact fixed text (comments_fixed text isComment)
  have nodes : ((nodesOf view).zipIdx.map (nodeLine library)).filterMap readLine =
      (nodesOf view).zipIdx.map fun entry => .node entry.2
        (((field library (some entry.1) "label" false).getD "").toList.map shown) := by
    rw [List.filterMap_map, ← List.filterMap_eq_map]
    exact List.filterMap_congr fun entry _ => readLine_nodeLine entry
  have edges : ((edgesOf view).map (edgeLine library (nodesOf view))).filterMap readLine =
      (edgesOf view).map fun edge => .edge (endOf library (nodesOf view) edge "from")
        (endOf library (nodesOf view) edge "to") ((edgeLabel library edge).toList.map shown) := by
    rw [List.filterMap_map, ← List.filterMap_eq_map]
    exact List.filterMap_congr fun edge _ => readLine_edgeLine _ edge
  have last : ["  end".toList, []].filterMap readLine = [] := by decide +kernel
  rw [viewLines, List.cons_append, List.cons_append, List.append_assoc, List.append_assoc,
    List.append_assoc, List.filterMap_cons_none (fixed "flowchart TD" (by simp)),
    List.filterMap_cons_none (fixed _ (List.mem_append_left _ title_mem)),
    List.filterMap_append, none, List.nil_append, List.filterMap_append, nodes,
    List.filterMap_append, edges]
  exact congrArg (_ ++ ·) ((congrArg (_ ++ ·) last).trans (List.append_nil _))

/-! ## Built views -/

/-- A view that was created and has grown node by node and edge by edge. -/
inductive Built (library : Library) : Json → Prop where
  | create {kind : String} {view : Json} :
      create kind = some view → Built library view
  | addNode {view out : Json} {id label : CString} :
      Built library view → addNode library view id label = .ok out → Built library out
  | addEdge {view out : Json} {source target label : CString} : Built library view →
      addEdge library view source target label = .ok out → Built library out

theorem viewValid_set (formed : viewValid library view = true) {name : String}
    (grown : name = "nodes" ∨ name = "edges") (values : List Json) :
    viewValid library (view.set name (.array values)) = true := by
  have object := viewValid_object formed
  have others : ∀ other, name ≠ other → (view.set name (.array values)).field other =
      view.field other := fun other apart => Json.field_set_other _ _ apart
  have isArray : (elements (view.set name (.array values)) name).isSome = true := by
    rw [elements_set_same object]
    rfl
  have kind : field library (some (view.set name (.array values))) "kind" false =
      field library (some view) "kind" false :=
    textField_congr (others _ (by rcases grown with rfl | rfl <;> decide))
  simp only [viewValid, Bool.and_eq_true] at formed ⊢
  rw [Json.isObject_set, kind, others _ (by rcases grown with rfl | rfl <;> decide)]
  refine ⟨⟨formed.1.1, ?_⟩, ?_⟩
  · rcases grown with rfl | rfl
    · exact isArray
    · rw [elements_set_other (by decide)]
      exact formed.1.2
  · rcases grown with rfl | rfl
    · rw [elements_set_other (by decide)]
      exact formed.2
    · exact isArray

variable {nodes : List Json}

theorem nodeIndex_append {id : String} {index : Nat}
    (found : nodeIndex library nodes id = some index) (more : List Json) :
    nodeIndex library (nodes ++ more) id = some index := by
  rw [nodeIndex] at found ⊢
  rw [List.findIdx?_append, found, Option.some_or]

theorem Leads.append {edge : Json} {source target : Nat}
    (leads : Leads library nodes edge source target) (more : List Json) :
    Leads library (nodes ++ more) edge source target where
  labelled := leads.labelled
  source := by
    obtain ⟨id, read, found⟩ := leads.source
    exact ⟨id, read, nodeIndex_append found more⟩
  target := by
    obtain ⟨id, read, found⟩ := leads.target
    exact ⟨id, read, nodeIndex_append found more⟩

theorem NodesValid.append {node : Json} {id : String} (valid : NodesValid library nodes)
    (named : idOf library node = some id)
    (labelled : (field library (some node) "label" false).isSome = true)
    (fresh : nodeIndex library nodes id = none) : NodesValid library (nodes ++ [node]) where
  named := by
    exact Lists.forall_mem_snoc valid.named ⟨id, named⟩
  labelled := by
    exact Lists.forall_mem_snoc valid.labelled labelled
  distinct := by
    rw [List.map_append, List.map_singleton, List.nodup_append]
    refine ⟨valid.distinct, List.nodup_singleton _, ?_⟩
    intro first old second new same
    obtain ⟨other, member, rfl⟩ := List.mem_map.mp old
    rw [List.mem_singleton.mp new, named] at same
    have found : (nodeIndex library nodes id).isSome = true :=
      nodeIndex_isSome.mpr ⟨other, member, same⟩
    rw [fresh] at found
    cases found

theorem field_stored {record : Json} {name text : String} {empty : Bool}
    (stored : record.field name = some (.string text))
    (valid : textValid library text empty = true) :
    field library (some record) name empty = some text := by
  rw [field, Option.bind_some, stored]
  exact if_pos valid

def Sound (library : Library) (view : Json) : Prop :=
  (nodesOf view = [] ∧ edgesOf view = []) ∨ ViewValid library view

theorem sound_create {kind : String} (created : create kind = some view) :
    Sound library view := by
  unfold create at created
  split_ifs at created
  cases created
  exact .inl ⟨rfl, rfl⟩

theorem sound_addNode {out : Json} {id label : CString} (sound : Sound library view)
    (added : addNode library view id label = .ok out) : Sound library out := by
  unfold addNode at added
  split_ifs at added with bad full known
  cases added
  simp only [Bool.or_eq_true, Bool.not_eq_true', not_or, Bool.not_eq_false] at bad
  obtain ⟨⟨formed, idValid⟩, labelValid⟩ := bad
  have fresh : nodeIndex library (nodesOf view) id.1 = none := by simpa using known
  have object := viewValid_object formed
  have nodes : nodesOf (view.set "nodes" (.array (nodesOf view ++ [((Json.object []).set "id"
      (.string id.1)).set "label" (.string label.1)]))) = nodesOf view ++ [((Json.object []).set
        "id" (.string id.1)).set "label" (.string label.1)] := by
    rw [nodesOf, elements_set_same object]
    rfl
  have edges : edgesOf (view.set "nodes" (.array (nodesOf view ++ [((Json.object []).set "id"
      (.string id.1)).set "label" (.string label.1)]))) = edgesOf view := by
    rw [edgesOf, elements_set_other (by decide)]
    rfl
  have before : NodesValid library (nodesOf view) ∧ (edgesOf view).length ≤ maxEdges ∧
      ∀ edge ∈ edgesOf view, ∃ source target, Leads library (nodesOf view) edge source target := by
    rcases sound with ⟨noNodes, noEdges⟩ | valid
    · rw [noNodes, noEdges]
      exact ⟨⟨by simp, by simp, by simp⟩, by simp, by simp⟩
    · exact ⟨valid.nodes, valid.few.2, valid.edges⟩
  refine .inr ⟨viewValid_set formed (.inl rfl) _, ?_, ?_, ?_, ?_⟩
  · rw [nodes]
    simp
  · rw [nodes, edges, List.length_append, List.length_singleton]
    exact ⟨by omega, before.2.1⟩
  · rw [nodes]
    exact before.1.append (field_stored rfl idValid)
      (Option.isSome_iff_exists.mpr ⟨label.1, field_stored rfl labelValid⟩) fresh
  · rw [nodes, edges]
    intro edge member
    obtain ⟨source, target, leads⟩ := before.2.2 edge member
    exact ⟨source, target, leads.append _⟩

theorem sound_addEdge {out : Json} {source target label : CString} (sound : Sound library view)
    (added : addEdge library view source target label = .ok out) : Sound library out := by
  unfold addEdge at added
  split_ifs at added with bad empty full unknown
  cases added
  simp only [Bool.or_eq_true, Bool.not_eq_true', not_or, Bool.not_eq_false] at bad
  obtain ⟨⟨⟨formed, sourceValid⟩, targetValid⟩, labelValid⟩ := bad
  simp only [Bool.or_eq_true, Option.isNone_iff_eq_none, not_or, ← Option.isSome_iff_ne_none]
    at unknown
  obtain ⟨first, isFirst⟩ := Option.isSome_iff_exists.mp unknown.1
  obtain ⟨second, isSecond⟩ := Option.isSome_iff_exists.mp unknown.2
  have object := viewValid_object formed
  have valid := sound.resolve_left fun none => empty none.1
  have nodes : ∀ values, nodesOf (view.set "edges" (.array values)) = nodesOf view := by
    intro values
    rw [nodesOf, elements_set_other (by decide)]
    rfl
  have edges : ∀ values, edgesOf (view.set "edges" (.array values)) = values := by
    intro values
    rw [edgesOf, elements_set_same object]
    rfl
  refine .inr ⟨viewValid_set formed (.inr rfl) _, ?_, ?_, ?_, ?_⟩
  · rw [nodes]
    exact empty
  · rw [nodes, edges, List.length_append, List.length_singleton]
    exact ⟨valid.few.1, by omega⟩
  · rw [nodes]
    exact valid.nodes
  · rw [nodes, edges]
    intro edge member
    rcases List.mem_append.mp member with old | new
    · exact valid.edges edge old
    · rw [List.mem_singleton.mp new]
      exact ⟨first, second, Option.isSome_iff_exists.mpr ⟨label.1, field_stored rfl labelValid⟩,
        ⟨source.1, field_stored rfl sourceValid, isFirst⟩,
        ⟨target.1, field_stored rfl targetValid, isSecond⟩⟩

theorem Built.sound (built : Built library view) : Sound library view := by
  induction built with
  | create created => exact sound_create created
  | addNode _ added sound => exact sound_addNode sound added
  | addEdge _ added sound => exact sound_addEdge sound added

theorem Built.validates (built : Built library view) (some : nodesOf view ≠ []) :
    graphValidate library view = .ok () :=
  graphValidate_iff.mpr (built.sound.resolve_left fun empty => some empty.1)

/-! ## Faithfulness -/

def Unbroken (label : List Char) : Prop := ∀ ch ∈ label, ¬(ch = '\n' ∨ ch = '\r' ∨ ch = '\t')

theorem map_shown {label : List Char} (unbroken : Unbroken label) : label.map shown = label := by
  have same : ∀ ch ∈ label, shown ch = id ch := fun ch member => if_neg (unbroken ch member)
  rw [List.map_congr_left same, List.map_id]

theorem escapeText_injective {left right : List Char} (plain : Unbroken left)
    (plain' : Unbroken right) (same : escapeText left = escapeText right) : left = right := by
  have decoded := congrArg (decode none) same
  rw [decode_escapeText, decode_escapeText, map_shown plain, map_shown plain'] at decoded
  exact decoded

/-- A text shows a view: line by line, within the limit, and so that it can be read back. -/
structure Shows (library : Library) (view : Json) (out : List Char) : Prop where
  lines : out.splitOn '\n' = viewLines library view ++ [[]]
  titled : title library view ∈ titles
  commented : comments library view ∈ [[], [focusComment], [focusComment, pathComment]]
  fits : out.length ≤ maxOutputBytes
  labels : ∀ node ∈ nodesOf view, (field library (some node) "label" false).isSome = true
  ends : ∀ edge ∈ edgesOf view, Leads library (nodesOf view) edge
    (endOf library (nodesOf view) edge "from") (endOf library (nodesOf view) edge "to")
  read : readBack out = entriesOf library view

theorem Leads.ends {edge : Json} {source target : Nat}
    (leads : Leads library nodes edge source target) :
    endOf library nodes edge "from" = source ∧ endOf library nodes edge "to" = target := by
  obtain ⟨first, isFrom, isFirst⟩ := leads.source
  obtain ⟨second, isTo, isSecond⟩ := leads.target
  rw [endOf, endOf, isFrom, isTo, Option.bind_some, Option.bind_some, isFirst, isSecond]
  exact ⟨rfl, rfl⟩

theorem shows_of_rendered {out : List Char} (rendered : mermaid library view = .ok out) :
    Shows library view out := by
  obtain ⟨valid, rfl, fits⟩ := mermaid_eq_ok rendered
  have lines := splitOn_linesText (@viewLines_whole library view)
  refine ⟨lines, title_mem, comments_cases, fits, valid.nodes.labelled, ?_, ?_⟩
  · intro edge member
    obtain ⟨source, target, leads⟩ := valid.edges edge member
    obtain ⟨first, second⟩ := leads.ends
    rw [first, second]
    exact leads
  · rw [readBack, lines, filterMap_viewLines]

/-- What is rendered shows the view; labels stay in their quotes and are told apart; and views
that are built can be rendered. -/
theorem mermaid_faithful :
    (∀ view out, mermaid library view = .ok out → Shows library view out) ∧
    (∀ label, ∀ ch ∈ escapeText label, ¬Reserved ch) ∧
    (∀ left right, Unbroken left → Unbroken right → left ≠ right →
      escapeText left ≠ escapeText right) ∧
    (∀ view, Built library view → nodesOf view ≠ [] → graphValidate library view = .ok ()) := by
  refine ⟨fun _ _ => shows_of_rendered, escapeText_safe, ?_, fun _ => Built.validates⟩
  intro left right plain plain' apart same
  exact apart (escapeText_injective plain plain' same)

/-- The text of a ring in which a node and an edge have characters that are escaped. -/
def ringText : String :=
  "flowchart TD\n  subgraph diagram[\"Planned dependencies - not execution\"]\n" ++
    "    n0[\"A\"]\n    n1[\"List#60;B#62;\"]\n    n2[\"C\"]\n    n0 -->|\"related\"| n1\n" ++
    "    n0 -->|\"x#124;y\"| n1\n    n1 -->|\"related\"| n2\n    n2 -->|\"related\"| n0\n  end\n"

def grownView : Json := .object [("schema_version", .int 1), ("kind", .string "plan"),
  ("nodes", .array [.object [("id", .string "a"), ("label", .string "a")]]),
  ("edges", .array [])]

theorem mermaid_faithful_sample : Shows plainLibrary ringView ringText.toList ∧
    escapeText ['<'] ≠ escapeText ['>'] ∧ graphValidate plainLibrary grownView = .ok () := by
  have rendered : mermaid plainLibrary ringView = .ok ringText.toList := by decide +kernel
  have first : ∀ ch ∈ ['<'], ¬(ch = '\n' ∨ ch = '\r' ∨ ch = '\t') := by simp
  have second : ∀ ch ∈ ['>'], ¬(ch = '\n' ∨ ch = '\r' ∨ ch = '\t') := by simp
  have created : create "plan" = some ((Json.object [("schema_version", .int 1),
    ("kind", .string "plan"), ("nodes", .array []), ("edges", .array [])])) := by decide +kernel
  have grown : addNode plainLibrary (Json.object [("schema_version", .int 1),
    ("kind", .string "plan"), ("nodes", .array []), ("edges", .array [])]) ⟨"a", noNul_a⟩
      ⟨"a", noNul_a⟩ = .ok grownView := by decide +kernel
  refine ⟨mermaid_faithful.1 ringView _ rendered, ?_, ?_⟩
  · exact (@mermaid_faithful plainLibrary).2.2.1 ['<'] ['>'] first second (by decide)
  · exact mermaid_faithful.2.2.2 grownView (.addNode (.create created) grown) (by decide)

end TurboAgent.Diagram
