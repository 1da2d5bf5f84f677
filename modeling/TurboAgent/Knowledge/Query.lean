import TurboAgent.Logic.Like

/-!
# Queries of the knowledge index

A query selects chunks with the full-text index or, without it, with one `LIKE` for each word of
the query.  Queries and listings may be filtered by the kind of the document and by a prefix of
its uri.

Texts are the characters that SQLite reads; a byte outside ASCII is no part of a word.  What is
taken from SQLite is how rows are arranged that `ORDER BY` does not tell apart, and how the
full-text index matches and scores.  Allocations succeed, and values are bound as they are given.
-/

namespace TurboAgent.Knowledge.Query

abbrev Text := List Char

/-- A row of `documents`. -/
structure DocumentRow where
  (id uri kind : Text)
  title : Option Text
  (mtime size : Int)
  contentHash : Text
  metadataJson : Option Text
  updatedAt : Int
  deriving DecidableEq

/-- A row of `chunks`. -/
structure ChunkRow where
  (id documentId : Text)
  ordinal : Nat
  text : Text
  deriving DecidableEq

/-- A row of `chunks_fts`. -/
structure FtsRow where
  (chunkId documentId uri text : Text)
  deriving DecidableEq

inductive Value where
  | null
  | text (text : Text)
  | int (value : Int)
  deriving DecidableEq

/-- The values of the parameters of a statement; those that are not bound are null. -/
abbrev Bindings := Nat → Value

/-- `sqlite3_bind_text` and its siblings. -/
def Bindings.bind (bindings : Bindings) (index : Nat) (value : Value) : Bindings :=
  fun other => if other = index then value else bindings other

structure Sqlite (Score : Type) where
  ftsMatch : Value → FtsRow → Bool
  bm25 : Value → FtsRow → Score
  scoreLe : Score → Score → Bool
  /-- `ORDER BY`, given what comes before what. -/
  arrange : {α : Type} → (α → α → Bool) → List α → List α
  arrange_perm : ∀ {α : Type} (le : α → α → Bool) (rows : List α), (arrange le rows).Perm rows
  arrange_sorted : ∀ {α : Type} (le : α → α → Bool) (rows : List α),
    (∀ a b, le a b || le b a) → (∀ a b c, le a b → le b c → le a c) →
      (arrange le rows).Pairwise fun a b => le a b

def joined (documents : List DocumentRow) (chunks : List ChunkRow) :
    List (ChunkRow × DocumentRow) :=
  chunks.flatMap fun chunk =>
    (documents.filter fun document => document.id == chunk.documentId).map
      fun document => (chunk, document)

/-- The tables; no database holds more rows than a limit of SQLite counts. -/
structure Tables where
  documents : List DocumentRow
  chunks : List ChunkRow
  chunksFts : List FtsRow
  few : (joined documents chunks).length < 2 ^ 63

/-! ## Words -/

/-- `TURBO_KNOWLEDGE_QUERY_MAX_TOKENS`. -/
def queryMaxTokens : Nat := 16

/-- `turbo_knowledge_query_token_char`. -/
def queryTokenChar (ch : Char) : Bool :=
  ch.isAlphanum || ch == '_'

/-- `turbo_knowledge_collect_query_tokens`. -/
def collectQueryTokens : (maxTokens : Nat) → (query : Text) → List Text
  | 0, _ => []
  | maxTokens + 1, query =>
      let rest := query.dropWhile fun ch => !queryTokenChar ch
      let token := rest.takeWhile queryTokenChar
      if token = [] then []
      else token :: collectQueryTokens maxTokens (rest.dropWhile queryTokenChar)

/-- `turbo_knowledge_build_phrase_query`. -/
def buildPhraseQuery (query : Text) : Text :=
  '\x22' :: (query.flatMap fun ch => if ch = '\x22' then ['\x22', '\x22'] else [ch]) ++ ['\x22']

/-- `turbo_knowledge_build_match_query`. -/
def buildMatchQuery (query : Text) : Text :=
  let tokens := collectQueryTokens queryMaxTokens query
  if tokens = [] then buildPhraseQuery query
  else (tokens.map fun token => '\x22' :: token ++ ['\x22']).intersperse " OR ".toList |>.flatten

/-! ## Patterns -/

/-- `LIKE` without `ESCAPE`. -/
def likeMarks : Logic.Like.Marks Char := ⟨'%', '_', none⟩

/-- `LIKE` with `ESCAPE '\'`. -/
def escapedMarks : Logic.Like.Marks Char := ⟨'%', '_', some '\\'⟩

/-- `column LIKE ?`; null is like nothing. -/
def likeValue (marks : Logic.Like.Marks Char) (column : Text) : Value → Bool
  | .text pattern => Logic.Like.like Char.toLower marks pattern column
  | _ => false

/-- The characters that `turbo_knowledge_build_like_pattern` escapes. -/
def escapes (ch : Char) : Bool := ch == '\\' || ch == '%' || ch == '_'

/-- `turbo_knowledge_build_like_pattern`. -/
def buildLikePattern (text : Text) : Text :=
  '%' :: ((text.flatMap fun ch => if escapes ch then ['\\', ch] else [ch]) ++ ['%'])

/-- The pattern `uri_like`, if there is a prefix. -/
def uriLike (uriPrefix : Option Text) : Option Text :=
  uriPrefix.bind fun uriPrefix => if uriPrefix = [] then none else some (uriPrefix ++ ['%'])

/-! ## Statements -/

/-- `(? IS NULL OR d.kind=?)`. -/
def kindFilter (bindings : Bindings) (first second : Nat) (document : DocumentRow) : Bool :=
  bindings first == .null || bindings second == .text document.kind

/-- `(? IS NULL OR d.uri LIKE ?)`. -/
def uriFilter (bindings : Bindings) (first second : Nat) (document : DocumentRow) : Bool :=
  bindings first == .null || likeValue likeMarks document.uri (bindings second)

/-- `LIMIT ?`; a negative number is no limit. -/
def limitRows {α : Type} (value : Value) (rows : List α) : List α :=
  match value with
  | .int limit => if limit < 0 then rows else rows.take limit.toNat
  | _ => rows

/-- `(sqlite3_int64)limit`. -/
def toInt64 (limit : UInt64) : Int :=
  if limit.toNat < 2 ^ 63 then limit.toNat else (limit.toNat : Int) - 2 ^ 64

structure Hit (Score : Type) where
  (chunkId documentId uri : Text)
  ordinal : Nat
  (text kind title : Text)
  score : Score

section Calls

variable {Score : Type} [Zero Score] (sqlite : Sqlite Score) (tables : Tables)

/-- The statement of a query with the full-text index. -/
def ftsRows (bindings : Bindings) : List (Hit Score) :=
  let rows := tables.chunksFts.flatMap fun fts =>
    (tables.chunks.filter fun chunk => chunk.id == fts.chunkId).flatMap fun chunk =>
      (tables.documents.filter fun document => document.id == fts.documentId).map
        fun document => (fts, chunk, document)
  let selected := rows.filter fun row => sqlite.ftsMatch (bindings 1) row.1 &&
    kindFilter bindings 2 3 row.2.2 && uriFilter bindings 4 5 row.2.2
  let arranged := sqlite.arrange (fun left right => sqlite.scoreLe
    (sqlite.bm25 (bindings 1) left.1) (sqlite.bm25 (bindings 1) right.1)) selected
  (limitRows (bindings 6) arranged).map fun row => {
    chunkId := row.1.chunkId
    documentId := row.1.documentId
    uri := row.1.uri
    ordinal := row.2.1.ordinal
    text := row.2.1.text
    kind := row.2.2.kind
    title := row.2.2.title.getD []
    score := sqlite.bm25 (bindings 1) row.1 }

/-- `ORDER BY d.updated_at DESC, c.ordinal ASC`. -/
def chunkLe (left right : ChunkRow × DocumentRow) : Bool :=
  right.2.updatedAt < left.2.updatedAt ||
    (left.2.updatedAt == right.2.updatedAt && left.1.ordinal ≤ right.1.ordinal)

/-- `c.text LIKE ? ESCAPE '\'`, as often as there are terms. -/
def likeTerms (terms : Nat) (bindings : Bindings) (chunk : ChunkRow) : Bool :=
  (List.range terms).any fun index => likeValue escapedMarks chunk.text (bindings (index + 1))

/-- The statement of `turbo_knowledge_build_like_query_sql`.  Its parameters are numbered in the
order in which they stand in it. -/
def likeRows (tokenCount : Nat) (bindings : Bindings) : List (Hit Score) :=
  let effectiveCount := if tokenCount = 0 then 1 else tokenCount
  let selected := (joined tables.documents tables.chunks).filter fun row =>
    likeTerms effectiveCount bindings row.1 &&
      kindFilter bindings (effectiveCount + 1) (effectiveCount + 2) row.2 &&
      uriFilter bindings (effectiveCount + 3) (effectiveCount + 4) row.2
  (limitRows (bindings (effectiveCount + 5)) (sqlite.arrange chunkLe selected)).map fun row => {
    chunkId := row.1.id
    documentId := row.1.documentId
    uri := row.2.uri
    ordinal := row.1.ordinal
    text := row.1.text
    kind := row.2.kind
    title := row.2.title.getD []
    score := 0 }

/-! ## Calls -/

/-- The value of a text that may be missing or empty. -/
def optionalValue (text : Option Text) : Value :=
  match text with
  | some text => if text = [] then .null else .text text
  | none => .null

def bindFilters (bindings : Bindings) (filterBindIndex : Nat) (kind uriPrefix : Option Text)
    (limit : UInt64) : Bindings :=
  ((((bindings.bind filterBindIndex (optionalValue kind)).bind (filterBindIndex + 1)
    (optionalValue kind)).bind (filterBindIndex + 2) (optionalValue (uriLike uriPrefix))).bind
      (filterBindIndex + 3) (optionalValue (uriLike uriPrefix))).bind (filterBindIndex + 4)
        (.int (toInt64 limit))

def bindTokens (bindings : Bindings) (tokens : List Text) : Bindings :=
  tokens.zipIdx.foldl (fun bindings entry =>
    bindings.bind (entry.2 + 1) (.text (buildLikePattern entry.1))) bindings

/-- `turbo_agent_knowledge_store_query_ex`; `works` tells whether SQLite runs the statement to
its end. -/
def queryEx (fts5Enabled works : Bool) (query : Text) (kind uriPrefix : Option Text)
    (limit : UInt64) : Option (List (Hit Score)) :=
  if query = [] then none
  else
    let limit := if limit = 0 then 8 else limit
    let unbound : Bindings := fun _ => .null
    let rows :=
      if fts5Enabled then
        ftsRows sqlite tables (bindFilters (unbound.bind 1 (.text (buildMatchQuery query))) 2
          kind uriPrefix limit)
      else
        let tokens := collectQueryTokens queryMaxTokens query
        if tokens = [] then
          likeRows sqlite tables 0 (bindFilters (unbound.bind 1 (.text (buildLikePattern query))) 2
            kind uriPrefix limit)
        else
          likeRows sqlite tables tokens.length (bindFilters (bindTokens unbound tokens)
            (tokens.length + 1) kind uriPrefix limit)
    if works then some rows else none

structure Listed where
  (id uri kind title : Text)
  (mtime size : Int)
  (contentHash metadataJson : Text)
  updatedAt : Int
  chunkCount : Nat
  deriving DecidableEq

/-- A row of a listing, with the number of its chunks. -/
def listed (tables : Tables) (document : DocumentRow) : Listed where
  id := document.id
  uri := document.uri
  kind := document.kind
  title := document.title.getD []
  mtime := document.mtime
  size := document.size
  contentHash := document.contentHash
  metadataJson := document.metadataJson.getD []
  updatedAt := document.updatedAt
  chunkCount := (tables.chunks.filter fun chunk => chunk.documentId == document.id).length

/-- `ORDER BY d.updated_at DESC,d.uri ASC`. -/
def documentLe (left right : DocumentRow) : Bool :=
  right.updatedAt < left.updatedAt ||
    (left.updatedAt == right.updatedAt && decide (left.uri ≤ right.uri))

/-- `turbo_agent_knowledge_store_list_documents`. -/
def listDocuments (works : Bool) (kind uriPrefix : Option Text) (limit : UInt64) :
    Option (List Listed) :=
  let limit := if limit = 0 then 100 else limit
  let unbound : Bindings := fun _ => .null
  let bindings := ((unbound.bind 1 (optionalValue kind)).bind 2
    (optionalValue (uriLike uriPrefix))).bind 3 (.int (toInt64 limit))
  let selected := tables.documents.filter fun document =>
    kindFilter bindings 1 1 document && uriFilter bindings 2 2 document
  let rows := (limitRows (bindings 3) (sqlite.arrange documentLe selected)).map (listed tables)
  if works then some rows else none

end Calls

end TurboAgent.Knowledge.Query
