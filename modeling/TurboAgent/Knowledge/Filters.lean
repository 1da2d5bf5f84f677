import TurboAgent.Knowledge.Query

/-!
# Filters of queries

A query without the full-text index selects the chunks that contain one of its words as it
stands, and the filter by kind is exact.  The pattern for the prefix of a uri is not escaped, so
the filter by prefix is exact for the prefixes without wildcards, and only for these.
-/

namespace TurboAgent.Knowledge.Query

open Logic.Like

variable {Score : Type} [Zero Score] {sqlite : Sqlite Score} {tables : Tables}

/-! ## What filters should select -/

def words (text : Text) : List Text :=
  (text.splitOnP fun ch => !queryTokenChar ch).filter (· ≠ [])

def needles (query : Text) : List Text :=
  if words query = [] then [query] else (words query).take queryMaxTokens

/-- The document is of the given kind, if one is given, and its uri begins with the given
prefix, letter case aside. -/
structure Chosen (kind uriPrefix : Option Text) (document : DocumentRow) : Prop where
  kind : ∀ text, kind = some text → text ≠ [] → document.kind = text
  uri : ∀ text, uriPrefix = some text → Begins Char.toLower document.uri text

/-- A chunk contains a needle, letter case aside, and its document is chosen. -/
structure Selected (query : Text) (kind uriPrefix : Option Text)
    (row : ChunkRow × DocumentRow) : Prop where
  contains : ∃ needle ∈ needles query, Contains Char.toLower row.1.text needle
  chosen : Chosen kind uriPrefix row.2

/-- The object of a chunk in the results of a query without the full-text index. -/
def hitOf (row : ChunkRow × DocumentRow) : Hit Score where
  chunkId := row.1.id
  documentId := row.1.documentId
  uri := row.2.uri
  ordinal := row.1.ordinal
  text := row.1.text
  kind := row.2.kind
  title := row.2.title.getD []
  score := 0

/-- Filters mean what they say: whatever is listed or found belongs to a chosen document, and
without the full-text index a query finds, up to its limit, exactly what is selected.  A call that
SQLite runs to its end is answered, unless its query is empty. -/
structure Literal (sqlite : Sqlite Score) (tables : Tables) (query : Text)
    (kind uriPrefix : Option Text) (limit : UInt64) : Prop where
  answers : (∃ rows, listDocuments sqlite tables true kind uriPrefix limit = some rows) ∧
    ∀ fts5Enabled, query ≠ [] →
      ∃ rows, queryEx sqlite tables fts5Enabled true query kind uriPrefix limit = some rows
  lists : ∀ works rows, listDocuments sqlite tables works kind uriPrefix limit = some rows →
    ∀ row ∈ rows, ∃ document ∈ tables.documents, row = listed tables document ∧
      Chosen kind uriPrefix document
  finds : ∀ fts5Enabled works rows,
    queryEx sqlite tables fts5Enabled works query kind uriPrefix limit = some rows →
      ∀ hit ∈ rows, ∃ document ∈ tables.documents, hit.documentId = document.id ∧
        Chosen kind uriPrefix document
  exact : ∀ works rows, queryEx sqlite tables false works query kind uriPrefix limit = some rows →
    ∃ selects : ChunkRow × DocumentRow → Bool,
      (∀ row, selects row = true ↔ Selected query kind uriPrefix row) ∧
      ∃ arranged : List (ChunkRow × DocumentRow),
        arranged.Perm ((joined tables.documents tables.chunks).filter selects) ∧
        rows = (arranged.take (if limit = 0 then 8 else limit).toNat).map hitOf

/-! ## Words -/

theorem words_skip {ch : Char} (separates : queryTokenChar ch = false) (text : Text) :
    words (ch :: text) = words text := by
  rw [words, List.splitOnP_cons_eq_if_modifyHead, separates, if_pos (by rfl),
    List.filter_cons_of_neg (by simp)]
  rfl

@[simp] theorem words_nil : words [] = [] := rfl

theorem words_token {token rest : Text} (isToken : ∀ ch ∈ token, queryTokenChar ch = true)
    (some : token ≠ []) (ends : ∀ ch, rest.head? = .some ch → queryTokenChar ch = false) :
    words (token ++ rest) = token :: words rest := by
  have inside : ∀ ch ∈ token, (!queryTokenChar ch) = false := by
    intro ch member
    rw [isToken ch member]
    rfl
  cases rest with
  | nil =>
      rw [List.append_nil, words, List.splitOnP_eq_singleton inside,
        List.filter_cons_of_pos (by simpa using some), words_nil]
      rfl
  | cons ch rest =>
      have separates := ends ch rfl
      rw [words_skip separates, words, List.splitOnP_append_cons_of_forall_mem inside ch
        (by rw [separates]; rfl), List.filter_cons_of_pos (by simpa using some)]
      rfl

theorem collectQueryTokens_eq (maxTokens : Nat) (query : Text) :
    collectQueryTokens maxTokens query = (words query).take maxTokens := by
  induction maxTokens generalizing query with
  | zero => rfl
  | succ maxTokens ih =>
      have skipped : words query = words (query.dropWhile fun ch => !queryTokenChar ch) := by
        induction query with
        | nil => rfl
        | cons ch query step =>
            rw [List.dropWhile_cons]
            split_ifs with separates
            · rw [words_skip (by simpa using separates), step]
            · rfl
      have starts : ∀ ch, (query.dropWhile fun ch => !queryTokenChar ch).head? = some ch →
          queryTokenChar ch = true := by
        intro ch isHead
        have stops := List.head?_dropWhile_not (fun ch => !queryTokenChar ch) query
        rw [isHead] at stops
        simpa using stops
      rw [collectQueryTokens, skipped]
      generalize query.dropWhile (fun ch => !queryTokenChar ch) = rest at starts
      cases rest with
      | nil => rfl
      | cons ch rest =>
          have isFirst := starts ch rfl
          have some : (ch :: rest).takeWhile queryTokenChar ≠ [] := by
            rw [List.takeWhile_cons, isFirst]
            exact List.cons_ne_nil _ _
          have ends : ∀ other, ((ch :: rest).dropWhile queryTokenChar).head? = .some other →
              queryTokenChar other = false := by
            intro other isHead
            have stops := List.head?_dropWhile_not queryTokenChar (ch :: rest)
            rw [isHead] at stops
            simpa using stops
          have split := words_token (fun _ => List.mem_takeWhile_imp) some ends
          rw [List.takeWhile_append_dropWhile] at split
          rw [if_neg some, ih, split, List.take_succ_cons]

theorem needles_eq (query : Text) : needles query =
    if collectQueryTokens queryMaxTokens query = [] then [query]
    else collectQueryTokens queryMaxTokens query := by
  have same : (words query).take queryMaxTokens = [] ↔ words query = [] := by
    simp [queryMaxTokens]
  rw [collectQueryTokens_eq, needles]
  split_ifs with one two two
  · rfl
  · exact absurd (same.mpr one) two
  · exact absurd (same.mp two) one
  · rfl

/-! ## Patterns -/

theorem likeValue_pattern (column part : Text) :
    likeValue escapedMarks column (.text (buildLikePattern part)) = true ↔
      Contains Char.toLower column part := by
  have plain : ∀ ch, escapes ch = false →
      ch ≠ '\\' ∧ ch ≠ escapedMarks.any ∧ ch ≠ escapedMarks.one := by
    intro ch notEscaped
    simp only [escapes, Bool.or_eq_false_iff, beq_eq_false_iff_ne] at notEscaped
    exact ⟨notEscaped.1.1, notEscaped.1.2, notEscaped.2⟩
  have percent : items escapedMarks ['%'] = [.any] := by decide
  have pattern : items escapedMarks (buildLikePattern part) =
      .any :: (part.map .exactly ++ [.any]) := by
    rw [buildLikePattern, items_cons (by decide), items_escaped rfl plain, percent]
    rfl
  rw [likeValue, like, pattern, contains_iff]

def Plain (uriPrefix : Text) : Prop := ∀ ch ∈ uriPrefix, ch ≠ '%' ∧ ch ≠ '_'

variable {uriPrefix : Text}

theorem likeValue_begins (plain : Plain uriPrefix) (column : Text) :
    likeValue likeMarks column (.text (uriPrefix ++ ['%'])) = true ↔
      Begins Char.toLower column uriPrefix := by
  have literal : uriPrefix.map (item likeMarks) = uriPrefix.map .exactly := by
    refine List.map_congr_left fun ch member => ?_
    obtain ⟨notAny, notOne⟩ := plain ch member
    exact (if_neg notAny).trans (if_neg notOne)
  rw [likeValue, like, items_plain rfl, List.map_append, literal]
  exact begins_iff

theorem likeValue_of_begins {column : Text} (begins : Begins Char.toLower column uriPrefix) :
    likeValue likeMarks column (.text (uriPrefix ++ ['%'])) = true := by
  obtain ⟨front, rest, rfl, same⟩ := begins
  rw [likeValue, like, items_plain rfl, List.map_append, covers_append]
  exact ⟨front, rest, rfl, covers_same same, covers_any rest⟩

/-- A prefix with a wildcard has a uri that matches its pattern and does not begin with it. -/
theorem exists_wild (wild : ¬Plain uriPrefix) : ∃ uri,
    likeValue likeMarks uri (.text (uriPrefix ++ ['%'])) = true ∧
      ¬Begins Char.toLower uri uriPrefix := by
  obtain ⟨mark, member, isMark⟩ : ∃ mark ∈ uriPrefix, mark = '%' ∨ mark = '_' := by
    unfold Plain at wild
    push Not at wild
    obtain ⟨mark, member, other⟩ := wild
    exact ⟨mark, member, Classical.or_iff_not_imp_left.mpr other⟩
  obtain ⟨front, back, rfl⟩ := List.append_of_mem member
  refine ⟨front ++ 'a' :: back, ?_, ?_⟩
  · have pattern : items likeMarks (front ++ mark :: back ++ ['%']) = front.map (item likeMarks) ++
        ([item likeMarks mark] ++ (back.map (item likeMarks) ++ [.any])) := by
      have percent : item likeMarks '%' = .any := rfl
      rw [items_plain rfl]
      simp only [List.map_append, List.map_cons, List.map_nil, percent, List.append_assoc,
        List.cons_append, List.nil_append]
    rw [likeValue, like, pattern, covers_append]
    refine ⟨front, 'a' :: back, rfl, covers_same rfl, ?_⟩
    rw [covers_append]
    refine ⟨['a'], back, rfl, covers_mark isMark 'a', ?_⟩
    rw [covers_append]
    exact ⟨back, [], (List.append_nil back).symm, covers_same rfl, covers_any []⟩
  · rintro ⟨start, rest, split, same⟩
    have lengths := congrArg List.length same
    have all := congrArg List.length split
    simp only [List.length_map, List.length_append, List.length_cons] at lengths all
    have none : rest = [] := List.eq_nil_of_length_eq_zero (by omega)
    rw [none, List.append_nil] at split
    rw [← split, List.map_append, List.map_append] at same
    have lower := (List.cons.inj (List.append_cancel_left same)).1
    rcases isMark with rfl | rfl
    · exact absurd lower (by decide)
    · exact absurd lower (by decide)

/-! ## Bindings -/

section Bindings

variable {bindings : Bindings} {index : Nat} {kind uriPrefix : Option Text} {limit : UInt64}
  {document : DocumentRow}

theorem bind_same (value : Value) : bindings.bind index value index = value := if_pos rfl

theorem bind_other {other : Nat} (apart : other ≠ index) (value : Value) :
    bindings.bind index value other = bindings other := if_neg apart

/-- The filters and the limit are where they are bound, and nothing before them is changed. -/
theorem bindFilters_apply :
    bindFilters bindings index kind uriPrefix limit index = optionalValue kind ∧
    bindFilters bindings index kind uriPrefix limit (index + 1) = optionalValue kind ∧
    bindFilters bindings index kind uriPrefix limit (index + 2) =
      optionalValue (uriLike uriPrefix) ∧
    bindFilters bindings index kind uriPrefix limit (index + 3) =
      optionalValue (uriLike uriPrefix) ∧
    bindFilters bindings index kind uriPrefix limit (index + 4) = .int (toInt64 limit) ∧
    ∀ other < index, bindFilters bindings index kind uriPrefix limit other = bindings other := by
  refine ⟨?_, ?_, ?_, ?_, bind_same _, fun other less => ?_⟩
  · simp [bindFilters, Bindings.bind]
  · simp [bindFilters, Bindings.bind]
  · simp [bindFilters, Bindings.bind]
  · simp [bindFilters, Bindings.bind]
  · rw [bindFilters, bind_other (by omega), bind_other (by omega), bind_other (by omega),
      bind_other (by omega), bind_other (by omega)]

theorem kindFilter_iff {first second : Nat} (isFirst : bindings first = optionalValue kind)
    (isSecond : bindings second = optionalValue kind) :
    kindFilter bindings first second document = true ↔
      ∀ text, kind = some text → text ≠ [] → document.kind = text := by
  rw [kindFilter, isFirst, isSecond]
  cases kind with
  | none => simp [optionalValue]
  | some text =>
      by_cases empty : text = []
      · simp [optionalValue, empty]
      · simp only [optionalValue, empty, if_false, Bool.or_eq_true, beq_iff_eq, reduceCtorEq,
          false_or, Value.text.injEq, Option.some.injEq, forall_eq', ne_eq, not_false_eq_true,
          forall_const]
        exact eq_comm

theorem uriFilter_iff {first second : Nat}
    (isFirst : bindings first = optionalValue (uriLike uriPrefix))
    (isSecond : bindings second = optionalValue (uriLike uriPrefix)) :
    uriFilter bindings first second document = true ↔ ∀ text, uriPrefix = some text →
      likeValue likeMarks document.uri (.text (text ++ ['%'])) = true := by
  rw [uriFilter, isFirst, isSecond]
  cases uriPrefix with
  | none => simp [optionalValue, uriLike]
  | some text =>
      by_cases empty : text = []
      · have all : likeValue likeMarks document.uri (.text ['%']) = true := covers_any _
        simp [optionalValue, uriLike, empty, all]
      · simp only [optionalValue, uriLike, Option.bind_some, empty, if_false,
          List.append_eq_nil_iff, List.cons_ne_nil, and_false, Option.some.injEq, forall_eq',
          Bool.or_eq_true, beq_iff_eq, reduceCtorEq, false_or]

theorem limitRows_toInt64 {α : Type} {rows : List α} (few : rows.length < 2 ^ 63)
    (limit : UInt64) : limitRows (.int (toInt64 limit)) rows = rows.take limit.toNat := by
  have bound := limit.toNat_lt
  unfold limitRows toInt64
  dsimp only
  split_ifs with small negative positive
  · omega
  · rw [Int.toNat_natCast]
  · exact (List.take_of_length_le (by omega)).symm
  · omega

theorem bindTokens_apply (tokens : List Text) {place : Nat} (inside : place < tokens.length) :
    bindTokens bindings tokens (place + 1) = .text (buildLikePattern tokens[place]) := by
  have general : ∀ (tokens : List Text) (start : Nat) (bindings : Bindings),
      (∀ other ≤ start, (tokens.zipIdx start).foldl (fun bindings entry =>
        bindings.bind (entry.2 + 1) (.text (buildLikePattern entry.1))) bindings other =
          bindings other) ∧
      ∀ place (inside : place < tokens.length), (tokens.zipIdx start).foldl (fun bindings entry =>
        bindings.bind (entry.2 + 1) (.text (buildLikePattern entry.1))) bindings
          (start + place + 1) = .text (buildLikePattern tokens[place]) := by
    intro tokens
    induction tokens with
    | nil => exact fun start bindings => ⟨fun _ _ => rfl, fun _ inside => absurd inside (by simp)⟩
    | cons token tokens ih =>
        intro start bindings
        obtain ⟨before, after⟩ := ih (start + 1)
          (bindings.bind (start + 1) (.text (buildLikePattern token)))
        rw [List.zipIdx_cons, List.foldl_cons]
        constructor
        · intro other less
          rw [before other (by omega), bind_other (by omega)]
        · intro place inside
          cases place with
          | zero => exact (before (start + 1) (Nat.le_refl _)).trans (bind_same _)
          | succ place =>
              have later := after place (Nat.lt_of_succ_lt_succ inside)
              rw [show start + (place + 1) + 1 = start + 1 + place + 1 by omega]
              exact later
  have there := (general tokens 0 bindings).2 place inside
  rw [Nat.zero_add] at there
  exact there

end Bindings

/-! ## Calls -/

/-- No document of the given kind matches the pattern for the prefix without beginning with the
prefix. -/
def PrefixExact (tables : Tables) (kind uriPrefix : Option Text) : Prop :=
  ∀ document ∈ tables.documents, (∀ text, kind = some text → text ≠ [] → document.kind = text) →
    ∀ text, uriPrefix = some text →
      likeValue likeMarks document.uri (.text (text ++ ['%'])) = true →
        Begins Char.toLower document.uri text

section Statements

variable {query : Text} {kind uriPrefix : Option Text} {limit : UInt64} {bindings : Bindings}

/-- What the filters of a statement let through, when no document is mistaken. -/
theorem filters_iff (exact : PrefixExact tables kind uriPrefix) {first second third fourth : Nat}
    (isFirst : bindings first = optionalValue kind)
    (isSecond : bindings second = optionalValue kind)
    (isThird : bindings third = optionalValue (uriLike uriPrefix))
    (isFourth : bindings fourth = optionalValue (uriLike uriPrefix))
    {document : DocumentRow} (member : document ∈ tables.documents) :
    (kindFilter bindings first second document && uriFilter bindings third fourth document) =
      true ↔ Chosen kind uriPrefix document := by
  rw [Bool.and_eq_true, kindFilter_iff isFirst isSecond, uriFilter_iff isThird isFourth]
  constructor
  · rintro ⟨isKind, like⟩
    exact ⟨isKind, fun text given => exact document member isKind text given (like text given)⟩
  · rintro ⟨isKind, begins⟩
    exact ⟨isKind, fun text given => likeValue_of_begins (begins text given)⟩

theorem mem_limitRows {α : Type} {value : Value} {rows : List α} {row : α}
    (member : row ∈ limitRows value rows) : row ∈ rows := by
  unfold limitRows at member
  split at member
  · split_ifs at member
    · exact member
    · exact List.mem_of_mem_take member
  · exact member

theorem mem_joined {documents : List DocumentRow} {chunks : List ChunkRow}
    {row : ChunkRow × DocumentRow} (member : row ∈ joined documents chunks) :
    row.2 ∈ documents ∧ row.2.id = row.1.documentId := by
  obtain ⟨chunk, _, inside⟩ := List.mem_flatMap.mp member
  obtain ⟨document, isDocument, rfl⟩ := List.mem_map.mp inside
  obtain ⟨known, same⟩ := List.mem_filter.mp isDocument
  exact ⟨known, beq_iff_eq.mp same⟩

variable {works : Bool}

omit [Zero Score] in
theorem listDocuments_chosen (exact : PrefixExact tables kind uriPrefix) {rows : List Listed}
    (answer : listDocuments sqlite tables works kind uriPrefix limit = some rows) :
    ∀ row ∈ rows, ∃ document ∈ tables.documents, row = listed tables document ∧
      Chosen kind uriPrefix document := by
  intro row member
  cases works with
  | false => cases answer
  | true =>
      obtain rfl := Option.some.inj answer
      obtain ⟨document, isRow, rfl⟩ := List.mem_map.mp member
      have inside := (sqlite.arrange_perm _ _).mem_iff.mp (mem_limitRows isRow)
      obtain ⟨known, passes⟩ := List.mem_filter.mp inside
      exact ⟨document, known, rfl, (filters_iff exact rfl rfl rfl rfl known).mp passes⟩

omit [Zero Score] in
theorem ftsRows_chosen (exact : PrefixExact tables kind uriPrefix) :
    ∀ hit ∈ ftsRows sqlite tables (bindFilters bindings 2 kind uriPrefix limit),
      ∃ document ∈ tables.documents, hit.documentId = document.id ∧
        Chosen kind uriPrefix document := by
  intro hit member
  obtain ⟨row, isRow, rfl⟩ := List.mem_map.mp member
  have inside := (sqlite.arrange_perm _ _).mem_iff.mp (mem_limitRows isRow)
  obtain ⟨known, passes⟩ := List.mem_filter.mp inside
  obtain ⟨fts, _, more⟩ := List.mem_flatMap.mp known
  obtain ⟨chunk, _, last⟩ := List.mem_flatMap.mp more
  obtain ⟨document, isDocument, rfl⟩ := List.mem_map.mp last
  obtain ⟨stored, same⟩ := List.mem_filter.mp isDocument
  rw [Bool.and_assoc, Bool.and_eq_true] at passes
  obtain ⟨first, second, third, fourth, -, -⟩ :=
    @bindFilters_apply bindings 2 kind uriPrefix limit
  exact ⟨document, stored, (beq_iff_eq.mp same).symm,
    (filters_iff exact first second third fourth stored).mp passes.2⟩

/-- Without the full-text index the selected chunks are found, up to the limit. -/
theorem likeRows_exact (exact : PrefixExact tables kind uriPrefix) {tokenCount terms : Nat}
    (isTerms : terms = if tokenCount = 0 then 1 else tokenCount)
    (contains : ∀ chunk, likeTerms terms bindings chunk = true ↔
      ∃ needle ∈ needles query, Contains Char.toLower chunk.text needle)
    {selects : ChunkRow × DocumentRow → Bool}
    (isSelects : ∀ row, selects row = true ↔ Selected query kind uriPrefix row) :
    ∃ arranged : List (ChunkRow × DocumentRow),
      arranged.Perm ((joined tables.documents tables.chunks).filter selects) ∧
      likeRows sqlite tables tokenCount (bindFilters bindings (terms + 1) kind uriPrefix limit) =
        (arranged.take limit.toNat).map hitOf := by
  obtain ⟨first, second, third, fourth, fifth, before⟩ :=
    @bindFilters_apply bindings (terms + 1) kind uriPrefix limit
  have sameTerms : ∀ chunk, likeTerms terms
      (bindFilters bindings (terms + 1) kind uriPrefix limit) chunk =
        likeTerms terms bindings chunk := by
    intro chunk
    unfold likeTerms
    rw [Bool.eq_iff_iff, List.any_eq_true, List.any_eq_true]
    refine exists_congr fun place => and_congr_right fun inside => ?_
    rw [before (place + 1) (Nat.succ_lt_succ (List.mem_range.mp inside))]
  have selected : (joined tables.documents tables.chunks).filter (fun row =>
      likeTerms terms (bindFilters bindings (terms + 1) kind uriPrefix limit) row.1 &&
        kindFilter (bindFilters bindings (terms + 1) kind uriPrefix limit) (terms + 1) (terms + 2)
          row.2 &&
        uriFilter (bindFilters bindings (terms + 1) kind uriPrefix limit) (terms + 3) (terms + 4)
          row.2) = (joined tables.documents tables.chunks).filter selects := by
    refine List.filter_congr fun row member => ?_
    rw [Bool.eq_iff_iff, isSelects, Bool.and_assoc, Bool.and_eq_true, sameTerms, contains,
      filters_iff exact first second third fourth (mem_joined member).1]
    exact ⟨fun both => ⟨both.1, both.2⟩, fun both => ⟨both.contains, both.chosen⟩⟩
  refine ⟨sqlite.arrange chunkLe ((joined tables.documents tables.chunks).filter selects),
    sqlite.arrange_perm _ _, ?_⟩
  have few : (sqlite.arrange chunkLe
      ((joined tables.documents tables.chunks).filter selects)).length < 2 ^ 63 := by
    rw [(sqlite.arrange_perm _ _).length_eq]
    exact Nat.lt_of_le_of_lt (List.length_filter_le _ _) tables.few
  unfold likeRows
  dsimp only
  rw [← isTerms, selected, fifth, limitRows_toInt64 few]
  rfl

theorem likeTerms_tokens (tokens : List Text) (chunk : ChunkRow) :
    likeTerms tokens.length (bindTokens bindings tokens) chunk = true ↔
      ∃ needle ∈ tokens, Contains Char.toLower chunk.text needle := by
  rw [likeTerms, List.any_eq_true]
  constructor
  · rintro ⟨place, inside, isLike⟩
    have less := List.mem_range.mp inside
    rw [bindTokens_apply tokens less, likeValue_pattern] at isLike
    exact ⟨tokens[place], List.getElem_mem less, isLike⟩
  · rintro ⟨needle, member, contains⟩
    obtain ⟨place, less, rfl⟩ := List.getElem_of_mem member
    refine ⟨place, List.mem_range.mpr less, ?_⟩
    rw [bindTokens_apply tokens less, likeValue_pattern]
    exact contains

theorem queryEx_eq_some {fts5Enabled : Bool} {rows : List (Hit Score)}
    (answer : queryEx sqlite tables fts5Enabled works query kind uriPrefix limit = some rows) :
    queryEx sqlite tables fts5Enabled true query kind uriPrefix limit = some rows ∧ query ≠ [] := by
  unfold queryEx at answer ⊢
  by_cases empty : query = []
  · rw [if_pos empty] at answer
    cases answer
  · rw [if_neg empty] at answer ⊢
    cases works with
    | false => cases answer
    | true => exact ⟨answer, empty⟩

theorem queryEx_like_exact (exact : PrefixExact tables kind uriPrefix) {rows : List (Hit Score)}
    (answer : queryEx sqlite tables false works query kind uriPrefix limit = some rows)
    {selects : ChunkRow × DocumentRow → Bool}
    (isSelects : ∀ row, selects row = true ↔ Selected query kind uriPrefix row) :
    ∃ arranged : List (ChunkRow × DocumentRow),
      arranged.Perm ((joined tables.documents tables.chunks).filter selects) ∧
      rows = (arranged.take (if limit = 0 then 8 else limit).toNat).map hitOf := by
  obtain ⟨same, some⟩ := queryEx_eq_some answer
  have isNeedles := needles_eq query
  unfold queryEx at same
  rw [if_neg some] at same
  dsimp only at same
  rw [if_neg Bool.false_ne_true, if_pos rfl] at same
  by_cases none : collectQueryTokens queryMaxTokens query = []
  · rw [if_pos none] at same isNeedles
    obtain rfl := Option.some.inj same
    refine likeRows_exact exact rfl (fun chunk => ?_) isSelects
    rw [isNeedles, likeTerms, List.any_eq_true]
    constructor
    · rintro ⟨place, inside, isLike⟩
      obtain rfl := Nat.lt_one_iff.mp (List.mem_range.mp inside)
      rw [bind_same, likeValue_pattern] at isLike
      exact ⟨query, List.mem_singleton.mpr rfl, isLike⟩
    · rintro ⟨needle, member, contains⟩
      obtain rfl := List.mem_singleton.mp member
      exact ⟨0, List.mem_range.mpr Nat.one_pos, (likeValue_pattern ..).mpr contains⟩
  · rw [if_neg none] at same isNeedles
    obtain rfl := Option.some.inj same
    have count : (collectQueryTokens queryMaxTokens query).length ≠ 0 :=
      fun zero => none (List.eq_nil_of_length_eq_zero zero)
    refine likeRows_exact exact (if_neg count).symm (fun chunk => ?_) isSelects
    rw [isNeedles]
    exact likeTerms_tokens _ chunk

theorem literal_of_exact (exact : PrefixExact tables kind uriPrefix) :
    Literal sqlite tables query kind uriPrefix limit := by
  classical
  have isSelects : ∀ row, decide (Selected query kind uriPrefix row) = true ↔
      Selected query kind uriPrefix row := fun row => decide_eq_true_iff
  refine ⟨⟨⟨_, rfl⟩, ?_⟩, fun works rows answer => listDocuments_chosen exact answer, ?_, ?_⟩
  · intro fts5Enabled some
    rw [queryEx, if_neg some]
    exact ⟨_, rfl⟩
  · intro fts5Enabled works rows answer hit member
    cases fts5Enabled with
    | true =>
        obtain ⟨same, some⟩ := queryEx_eq_some answer
        unfold queryEx at same
        rw [if_neg some] at same
        obtain rfl := Option.some.inj same
        exact ftsRows_chosen exact hit member
    | false =>
        obtain ⟨arranged, isPerm, rfl⟩ := queryEx_like_exact exact answer isSelects
        obtain ⟨row, isRow, rfl⟩ := List.mem_map.mp member
        obtain ⟨known, selected⟩ :=
          List.mem_filter.mp (isPerm.mem_iff.mp (List.mem_of_mem_take isRow))
        obtain ⟨stored, same⟩ := mem_joined known
        exact ⟨row.2, stored, same.symm, ((isSelects row).mp selected).chosen⟩
  · intro works rows answer
    exact ⟨_, isSelects, queryEx_like_exact exact answer isSelects⟩

theorem limitRows_all {α : Type} (rows : List α) :
    limitRows (.int (toInt64 18446744073709551615)) rows = rows := rfl

theorem exact_of_literal (literal : ∀ limit, Literal sqlite tables query kind uriPrefix limit) :
    PrefixExact tables kind uriPrefix := by
  intro document member isKind text given like
  have isListed : ∀ rows, listDocuments sqlite tables true kind uriPrefix
      18446744073709551615 = some rows → listed tables document ∈ rows := by
    intro rows answer
    obtain rfl := Option.some.inj answer
    refine List.mem_map_of_mem ?_
    rw [bind_same, if_neg (by decide), limitRows_all, (sqlite.arrange_perm _ _).mem_iff,
      List.mem_filter, Bool.and_eq_true]
    refine ⟨member, (kindFilter_iff rfl rfl).mpr isKind, (uriFilter_iff rfl rfl).mpr ?_⟩
    intro other isOther
    rw [Option.some.inj (isOther.symm.trans given)]
    exact like
  obtain ⟨other, -, same, chosen⟩ :=
    (literal 18446744073709551615).lists true _ rfl (listed tables document) (isListed _ rfl)
  have uri : document.uri = other.uri := congrArg Listed.uri same
  rw [uri]
  exact chosen.uri text given

end Statements

/-! ## Prefixes -/

def single (document : DocumentRow) : Tables where
  documents := [document]
  chunks := []
  chunksFts := []
  few := Nat.two_pow_pos 63

theorem prefixExact_of_plain {kind uriPrefix : Option Text}
    (plain : ∀ text, uriPrefix = some text → Plain text) (tables : Tables) :
    PrefixExact tables kind uriPrefix := by
  intro document _ _ text given like
  exact (likeValue_begins (plain text given) document.uri).mp like

def sampleDocument (kind : Option Text) (uri : Text) : DocumentRow where
  id := []
  uri
  kind := kind.getD []
  title := none
  mtime := 0
  size := 0
  contentHash := []
  metadataJson := none
  updatedAt := 0

theorem plain_of_prefixExact {kind uriPrefix : Option Text}
    (exact : ∀ tables, PrefixExact tables kind uriPrefix) {text : Text}
    (given : uriPrefix = some text) : Plain text := by
  by_contra wild
  obtain ⟨uri, isLike, apart⟩ := exists_wild wild
  refine apart (exact (single (sampleDocument kind uri)) _ (List.mem_singleton.mpr rfl) ?_ text
    given isLike)
  rintro kind rfl -
  rfl

/-- The filters are literal for a store if and only if no document of the kind is mistaken, and
for every store if and only if the prefix has no wildcards. -/
theorem filters_literal_iff (sqlite : Sqlite Score) (query : Text) (kind uriPrefix : Option Text) :
    (∀ tables, (∀ limit, Literal sqlite tables query kind uriPrefix limit) ↔
      PrefixExact tables kind uriPrefix) ∧
    ((∀ tables limit, Literal sqlite tables query kind uriPrefix limit) ↔
      ∀ text, uriPrefix = some text → Plain text) := by
  refine ⟨fun tables => ⟨exact_of_literal, fun exact _ => literal_of_exact exact⟩, ?_, ?_⟩
  · intro literal text given
    exact plain_of_prefixExact (fun tables => exact_of_literal (literal tables)) given
  · intro plain tables limit
    exact literal_of_exact (prefixExact_of_plain plain tables)

/-- A SQLite whose full-text index matches nothing. -/
def plainSqlite : Sqlite Nat where
  ftsMatch := fun _ _ => false
  bm25 := fun _ _ => 0
  scoreLe := fun left right => left ≤ right
  arrange := fun le rows => rows.mergeSort le
  arrange_perm := fun le rows => List.mergeSort_perm rows le
  arrange_sorted := fun _ _ total trans => List.pairwise_mergeSort trans total _

/-- `a_` is no prefix of `abc`, and the document is listed. -/
theorem underscore_is_wild : ¬Literal plainSqlite
    (single (sampleDocument none ['a', 'b', 'c'])) ['q'] none (some ['a', '_']) 0 := by
  intro literal
  have one : plainSqlite.arrange documentLe [sampleDocument none ['a', 'b', 'c']] =
      [sampleDocument none ['a', 'b', 'c']] := List.mergeSort_singleton _
  obtain ⟨other, member, -, chosen⟩ := literal.lists true
    ((limitRows (.int 100) (plainSqlite.arrange documentLe
      [sampleDocument none ['a', 'b', 'c']])).map
        (listed (single (sampleDocument none ['a', 'b', 'c'])))) rfl
    (listed (single (sampleDocument none ['a', 'b', 'c'])) (sampleDocument none ['a', 'b', 'c']))
    (by rw [one]; exact List.mem_singleton.mpr rfl)
  obtain rfl := List.mem_singleton.mp member
  obtain ⟨front, rest, split, same⟩ := chosen.uri ['a', '_'] rfl
  obtain ⟨_, more, rfl, -, isMore⟩ := List.map_eq_cons_iff.mp same
  obtain ⟨second, _, rfl, isSecond, -⟩ := List.map_eq_cons_iff.mp isMore
  obtain rfl : 'b' = second := (List.cons.inj (List.cons.inj split).2).1
  exact absurd isSecond (by decide)

end TurboAgent.Knowledge.Query
