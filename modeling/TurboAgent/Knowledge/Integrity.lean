import TurboAgent.Knowledge.Model

/-!
# Integrity of the knowledge index

The index is compared with a shelf: the documents that were stored and not displaced since,
each with its text.  The three tables agree with the shelf after every run of calls, as long as
no text of 4 GiB or more is stored with a chunk target of that size: such a chunk has a length
that is no `int`, and SQLite is given another.
-/

namespace TurboAgent.Knowledge

/-! ## The shelf -/

structure Entry where
  (id uri text : Bytes)
  deriving DecidableEq

def Entry.displaces (entry other : Entry) : Bool :=
  other.id == entry.id || other.uri == entry.uri

/-- Store a document in the place of those that have its id or its uri. -/
def shelve (shelf : List Entry) (entry : Entry) : List Entry :=
  shelf.filter (fun other => !entry.displaces other) ++ [entry]

def unshelve (shelf : List Entry) (id : Bytes) : List Entry :=
  shelf.filter fun other => other.id != id

/-- What a call that commits does to the shelf. -/
def Call.shelf (shelf : List Entry) : Call → List Entry
  | .upsertText document text _ => shelve shelf ⟨document.id, document.uri, text⟩
  | .indexFile path (some (text, _)) _ _ => shelve shelf ⟨path, path, text⟩
  | .indexFile _ none _ _ => shelf
  | .deleteDocument documentId => unshelve shelf documentId

/-- The shelf after a run of calls: what commits counts, and nothing else. -/
def shelfAfter (config : Config) : Database → List Entry → List (Call × Bool) → List Entry
  | _, shelf, [] => shelf
  | database, shelf, (call, works) :: calls =>
      let commits := works && (call.commit config database).isSome
      shelfAfter config (perform config database call works)
        (if commits then call.shelf shelf else shelf) calls

/-! ## Agreement -/

/-- What a chunk is called, where it stands and what it says. -/
def ChunkRow.content (row : ChunkRow) : Bytes × Nat × Bytes :=
  (row.id, row.ordinal, row.text)

/-- The chunks of a document that is cut into pieces, numbered from an ordinal on. -/
def contents (documentId : Bytes) (ordinal : Nat) (pieces : List Bytes) :
    List (Bytes × Nat × Bytes) :=
  (pieces.zipIdx ordinal).map fun piece => (chunkId documentId piece.2, piece.2, piece.1)

structure Cut (text : Bytes) (pieces : List Bytes) : Prop where
  whole : pieces.flatten = text
  empty : text = [] → pieces = [[]]
  filled : text ≠ [] → [] ∉ pieces

def Database.chunksOf (database : Database) (documentId : Bytes) : List ChunkRow :=
  database.chunks.filter fun row => row.documentId == documentId

structure Integrity (database : Database) (shelf : List Entry) : Prop where
  /-- The documents are those of the shelf. -/
  rows : database.documents.map (fun row => (row.id, row.uri)) =
    shelf.map fun entry => (entry.id, entry.uri)
  ids : (shelf.map Entry.id).Nodup
  uris : (shelf.map Entry.uri).Nodup
  /-- The chunks of a document are numbered from zero on and make up its text. -/
  texts : ∀ entry ∈ shelf, ∃ pieces, Cut entry.text pieces ∧
    (database.chunksOf entry.id).map ChunkRow.content = contents entry.id 0 pieces
  owned : ∀ row ∈ database.chunks, row.documentId ∈ shelf.map Entry.id
  chunkIds : (database.chunks.map ChunkRow.id).Nodup
  /-- Chunks of different documents cannot have one id. -/
  separate : ∀ left right : Bytes, ∀ ordinal other : Nat,
    chunkId left ordinal = chunkId right other → left = right ∧ ordinal = other
  /-- There is one full-text row for each chunk. -/
  fts : database.chunksFts.map (fun row => (row.chunkId, row.documentId, row.text)) =
    database.chunks.map fun row => (row.id, row.documentId, row.text)
  ftsUris : ∀ row ∈ database.chunksFts,
    (row.documentId, row.uri) ∈ shelf.map fun entry => (entry.id, entry.uri)

/-! ## Chunk ids -/

theorem chunkId_injective (left right : Bytes) (ordinal other : Nat)
    (same : chunkId left ordinal = chunkId right other) : left = right ∧ ordinal = other := by
  have plain : ∀ value, ∀ byte ∈ decimal value, (byte != asciiByte '#') = true := by
    intro value byte member
    have bounds := decimal_digits member
    have hash : (asciiByte '#').toNat = 35 := by decide
    rw [bne_iff_ne]
    rintro rfl
    omega
  have tail : ∀ (id : Bytes) (value : Nat),
      (chunkId id value).reverse.takeWhile (· != asciiByte '#') = (decimal value).reverse := by
    intro id value
    rw [chunkId, List.reverse_append, List.reverse_cons, List.append_assoc,
      List.takeWhile_append_of_pos]
    · simp
    · intro byte member
      exact plain value byte (List.mem_reverse.mp member)
  have ordinals : decimal ordinal = decimal other := by
    have := tail left ordinal
    rw [same, tail right other] at this
    exact (List.reverse_injective this).symm
  refine ⟨?_, decimal_injective ordinals⟩
  rw [chunkId, chunkId, ordinals] at same
  exact List.append_cancel_right same

/-! ## Chunk lengths -/

variable {text : Bytes}

theorem lineEnd_bounds {low offset : Nat} :
    ∀ start, lineEnd text low start = some offset → low < offset ∧ offset ≤ start := by
  intro start
  induction start with
  | zero => simp [lineEnd]
  | succ start ih =>
      intro found
      rw [lineEnd] at found
      split at found
      next => cases found
      next above =>
        split at found
        next =>
          cases found
          omega
        next =>
          have := ih found
          omega

variable {target : Nat}

/-- A chunk has a byte, and no more than the text has or the target allows. -/
theorem nextChunkLen_bounds (filled : text ≠ []) (positive : 1 ≤ target) :
    1 ≤ nextChunkLen text target ∧
      nextChunkLen text target ≤ text.length ∧ nextChunkLen text target ≤ target + 1 := by
  have some := List.length_pos_iff.mpr filled
  rw [nextChunkLen]
  split
  next => omega
  next longer =>
    split
    next offset found =>
      have := lineEnd_bounds target found
      omega
    next => omega

theorem chunkTarget_positive (target : Nat) : 1 ≤ chunkTarget target := by
  rw [chunkTarget]
  split <;> split <;> omega

theorem chunkTarget_lt {bound : Nat} (large : 2048 < bound) (less : target < bound) :
    chunkTarget target < bound := by
  rw [chunkTarget]
  split <;> split <;> omega

/-! ## Bound values -/

variable {config : Config}

theorem bindText_neg {size : Int} (text : Bytes) (negative : size < 0) :
    bindText config text size = if config.limit < text.length then none else some text := by
  simp only [bindText, if_pos negative]

theorem bindText_nat (text : Bytes) (size : Nat) : bindText config text size =
    if config.limit < (text.take size).length then none else some (text.take size) := by
  have positive : ¬(size : Int) < 0 := by omega
  simp only [bindText, if_neg positive, Int.toNat_natCast]

theorem bindText_whole {value : Bytes} (bound : bindText config text (-1) = some value) :
    value = text ∧ text.length ≤ config.limit := by
  rw [bindText_neg text (by omega)] at bound
  split at bound
  next => cases bound
  next short =>
    cases bound
    exact ⟨rfl, Nat.le_of_not_lt short⟩

theorem bindText_chunk {value : Bytes} {size : Nat} (limited : config.limit < 2147483648)
    (within : size ≤ text.length) (narrow : size < 4294967296)
    (bound : bindText config text (toInt size) = some value) : value = text.take size := by
  by_cases small : size < 2147483648
  · rw [toInt_of_lt small, bindText_nat] at bound
    split at bound
    next => cases bound
    cases bound
    rfl
  · rw [bindText_neg text (toInt_neg (by omega) narrow), if_pos (by omega)] at bound
    cases bound

/-! ## Insertions -/

section Insertions

variable {database database' : Database}

theorem insertDocument_some {document : Document} {contentHash : Bytes} {size : Int}
    (inserted : insertDocument config database document contentHash size = some database') :
    bindText config document.id (-1) = some document.id ∧
      bindText config document.uri (-1) = some document.uri ∧
      ∃ row : DocumentRow, row.id = document.id ∧ row.uri = document.uri ∧
        database' = { database with documents := database.documents ++ [row] } := by
  rw [insertDocument] at inserted
  split at inserted
  next id uri kind hash boundId boundUri _ _ =>
    obtain ⟨rfl, -⟩ := bindText_whole boundId
    obtain ⟨rfl, -⟩ := bindText_whole boundUri
    split at inserted
    next => cases inserted
    cases inserted
    exact ⟨boundId, boundUri, _, rfl, rfl, rfl⟩
  next => cases inserted

/-- What the chunks of a document add to the tables. -/
structure Added (documentId uri : Bytes) (ordinal : Nat) (pieces : List Bytes)
    (database database' : Database) (rows : List ChunkRow) (fts : List FtsRow) : Prop where
  documents : database'.documents = database.documents
  chunks : database'.chunks = database.chunks ++ rows
  chunksFts : database'.chunksFts = database.chunksFts ++ fts
  contents : rows.map ChunkRow.content = contents documentId ordinal pieces
  owner : ∀ row ∈ rows, row.documentId = documentId
  ftsOwner : ∀ row ∈ fts, row.documentId = documentId ∧ row.uri = uri
  same : fts.map (fun row => (row.chunkId, row.documentId, row.text)) =
    rows.map fun row => (row.id, row.documentId, row.text)
  fresh : (database.chunks.map ChunkRow.id).Nodup → (database'.chunks.map ChunkRow.id).Nodup

theorem Added.none (documentId uri : Bytes) (ordinal : Nat) (database : Database) :
    Added documentId uri ordinal [] database database [] [] where
  documents := rfl
  chunks := (List.append_nil _).symm
  chunksFts := (List.append_nil _).symm
  contents := rfl
  owner := by simp
  ftsOwner := by simp
  same := rfl
  fresh := id

theorem Added.cons {documentId uri piece : Bytes} {ordinal : Nat} {pieces : List Bytes}
    {middle : Database} {rows later : List ChunkRow} {fts laterFts : List FtsRow}
    (first : Added documentId uri ordinal [piece] database middle rows fts)
    (rest : Added documentId uri (ordinal + 1) pieces middle database' later laterFts) :
    Added documentId uri ordinal (piece :: pieces) database database' (rows ++ later)
      (fts ++ laterFts) where
  documents := rest.documents.trans first.documents
  chunks := by rw [rest.chunks, first.chunks, List.append_assoc]
  chunksFts := by rw [rest.chunksFts, first.chunksFts, List.append_assoc]
  contents := by
    rw [List.map_append, first.contents, rest.contents]
    rfl
  owner := by
    intro row member
    rcases List.mem_append.mp member with old | new
    · exact first.owner row old
    · exact rest.owner row new
  ftsOwner := by
    intro row member
    rcases List.mem_append.mp member with old | new
    · exact first.ftsOwner row old
    · exact rest.ftsOwner row new
  same := by rw [List.map_append, List.map_append, first.same, rest.same]
  fresh := fun nodup => rest.fresh (first.fresh nodup)

theorem insertChunk_some (enabled : config.fts5Enabled = true) {documentId uri : Bytes}
    {ordinal textLen : Nat} {metadataJson : Option Bytes}
    (inserted : insertChunk config database documentId uri ordinal text textLen metadataJson =
      some database') : ∃ piece rows fts, bindText config text (toInt textLen) = some piece ∧
        Added documentId uri ordinal [piece] database database' rows fts := by
  rw [insertChunk] at inserted
  split at inserted
  next id owner uri piece boundId boundOwner boundUri bound =>
    obtain ⟨rfl, -⟩ := bindText_whole boundId
    obtain ⟨rfl, -⟩ := bindText_whole boundOwner
    obtain ⟨rfl, -⟩ := bindText_whole boundUri
    split at inserted
    next => cases inserted
    next accepted =>
      simp only [Bool.or_eq_true, List.any_eq_true, beq_iff_eq, not_or, not_exists, not_and]
        at accepted
      cases inserted
      refine ⟨piece, _, _, bound, ⟨rfl, rfl, rfl, rfl, by simp, by simp, rfl, ?_⟩⟩
      intro nodup
      rw [List.map_append, List.nodup_append]
      refine ⟨nodup, List.nodup_singleton _, ?_⟩
      intro known member fresh isFresh same
      obtain ⟨row, isRow, rfl⟩ := List.mem_map.mp member
      rw [List.map_singleton, List.mem_singleton] at isFresh
      exact accepted.1 row isRow (same.trans isFresh)
  next => cases inserted

theorem insertChunks_some (enabled : config.fts5Enabled = true)
    (limited : config.limit < 2147483648) {document : Document} (positive : 1 ≤ target) :
    ∀ (rounds : Nat) (database : Database) (ordinal : Nat) (rest : Bytes),
      rest.length < 4294967296 ∨ target < 4294967295 →
      insertChunks config document target rounds database ordinal rest = some database' →
      ∃ pieces rows fts, pieces.flatten = rest ∧ [] ∉ pieces ∧
        Added document.id document.uri ordinal pieces database database' rows fts := by
  intro rounds
  induction rounds with
  | zero =>
      intro database ordinal rest _ inserted
      rw [insertChunks] at inserted
      split at inserted
      next empty =>
        cases inserted
        exact ⟨[], [], [], empty.symm, by simp, Added.none ..⟩
      next => cases inserted
  | succ rounds ih =>
      intro database ordinal rest narrow inserted
      rw [insertChunks] at inserted
      split at inserted
      next empty =>
        cases inserted
        exact ⟨[], [], [], empty.symm, by simp, Added.none ..⟩
      next filled =>
        dsimp only at inserted
        split at inserted
        next => cases inserted
        next middle chunk =>
          obtain ⟨piece, rows, fts, bound, first⟩ := insertChunk_some enabled chunk
          have lengths := nextChunkLen_bounds filled positive
          have isPiece := bindText_chunk limited lengths.2.1 (by omega) bound
          have shorter : (rest.drop (nextChunkLen rest target)).length < 4294967296 ∨
              target < 4294967295 := by
            rw [List.length_drop]
            omega
          obtain ⟨pieces, later, laterFts, whole, nonempty, added⟩ := ih _ _ _ shorter inserted
          refine ⟨piece :: pieces, rows ++ later, fts ++ laterFts, ?_, ?_, first.cons added⟩
          · rw [List.flatten_cons, whole, isPiece, List.take_append_drop]
          · rw [List.mem_cons, not_or]
            refine ⟨?_, nonempty⟩
            intro empty
            rw [← empty] at isPiece
            have := congrArg List.length isPiece
            rw [List.length_nil, List.length_take] at this
            omega

end Insertions

/-! ## Removals and additions -/

section Changes

variable {database database' : Database} {shelf : List Entry}

theorem Integrity.removed (integrity : Integrity database shelf) (keep : Bytes → Bytes → Bool)
    (gone : Bytes → Bool) (agree : ∀ entry ∈ shelf, gone entry.id = !keep entry.id entry.uri) :
    Integrity {
      documents := database.documents.filter fun row => keep row.id row.uri
      chunks := database.chunks.filter fun row => !gone row.documentId
      chunksFts := database.chunksFts.filter fun row => !gone row.documentId }
      (shelf.filter fun entry => keep entry.id entry.uri) where
  rows := by
    have left := List.filter_map (f := fun row : DocumentRow => (row.id, row.uri))
      (p := fun pair => keep pair.1 pair.2) (l := database.documents)
    have right := List.filter_map (f := fun entry : Entry => (entry.id, entry.uri))
      (p := fun pair => keep pair.1 pair.2) (l := shelf)
    rw [integrity.rows, right] at left
    exact left.symm
  ids := integrity.ids.sublist (List.filter_sublist.map _)
  uris := integrity.uris.sublist (List.filter_sublist.map _)
  texts := by
    intro entry member
    obtain ⟨known, kept⟩ := List.mem_filter.mp member
    obtain ⟨pieces, cut, same⟩ := integrity.texts entry known
    refine ⟨pieces, cut, ?_⟩
    rw [← same, Database.chunksOf, Database.chunksOf, List.filter_filter]
    congr 1
    apply List.filter_congr
    intro row _
    by_cases own : row.documentId = entry.id
    · rw [own, agree entry known, kept]
      simp
    · simp [own]
  owned := by
    intro row member
    obtain ⟨known, kept⟩ := List.mem_filter.mp member
    obtain ⟨entry, isEntry, same⟩ := List.mem_map.mp (integrity.owned row known)
    refine List.mem_map.mpr ⟨entry, List.mem_filter.mpr ⟨isEntry, ?_⟩, same⟩
    rw [← same, agree entry isEntry] at kept
    simpa using kept
  chunkIds := integrity.chunkIds.sublist (List.filter_sublist.map _)
  separate := chunkId_injective
  fts := by
    have left := List.filter_map (f := fun row : FtsRow => (row.chunkId, row.documentId, row.text))
      (p := fun row => !gone row.2.1) (l := database.chunksFts)
    have right := List.filter_map (f := fun row : ChunkRow => (row.id, row.documentId, row.text))
      (p := fun row => !gone row.2.1) (l := database.chunks)
    rw [integrity.fts, right] at left
    exact left.symm
  ftsUris := by
    intro row member
    obtain ⟨known, kept⟩ := List.mem_filter.mp member
    obtain ⟨entry, isEntry, same⟩ := List.mem_map.mp (integrity.ftsUris row known)
    refine List.mem_map.mpr ⟨entry, List.mem_filter.mpr ⟨isEntry, ?_⟩, same⟩
    have owner : entry.id = row.documentId := congrArg Prod.fst same
    rw [← owner, agree entry isEntry] at kept
    simpa using kept

theorem Integrity.added (integrity : Integrity database shelf) {entry : Entry}
    {row : DocumentRow} {pieces : List Bytes} {rows : List ChunkRow} {fts : List FtsRow}
    (isId : row.id = entry.id) (isUri : row.uri = entry.uri)
    (newId : entry.id ∉ shelf.map Entry.id) (newUri : entry.uri ∉ shelf.map Entry.uri)
    (cut : Cut entry.text pieces) (added : Added entry.id entry.uri 0 pieces
      { database with documents := database.documents ++ [row] } database' rows fts) :
    Integrity database' (shelf ++ [entry]) where
  rows := by
    rw [added.documents, List.map_append, List.map_append, integrity.rows]
    simp [isId, isUri]
  ids := by
    rw [List.map_append, List.map_singleton, ← List.concat_eq_append]
    exact integrity.ids.concat newId
  uris := by
    rw [List.map_append, List.map_singleton, ← List.concat_eq_append]
    exact integrity.uris.concat newUri
  texts := by
    intro other member
    rw [Database.chunksOf, added.chunks, List.filter_append]
    rcases List.mem_append.mp member with old | new
    · obtain ⟨pieces, cut, same⟩ := integrity.texts other old
      refine ⟨pieces, cut, ?_⟩
      have none : rows.filter (fun row => row.documentId == other.id) = [] := by
        rw [List.filter_eq_nil_iff]
        intro row isRow isOwn
        rw [added.owner row isRow, beq_iff_eq] at isOwn
        exact newId (List.mem_map.mpr ⟨other, old, isOwn.symm⟩)
      rw [none, List.append_nil]
      exact same
    · rw [List.mem_singleton.mp new]
      refine ⟨pieces, cut, ?_⟩
      have none : database.chunks.filter (fun row => row.documentId == entry.id) = [] := by
        rw [List.filter_eq_nil_iff]
        intro row isRow isOwn
        rw [beq_iff_eq] at isOwn
        exact newId (isOwn ▸ integrity.owned row isRow)
      have all : rows.filter (fun row => row.documentId == entry.id) = rows := by
        rw [List.filter_eq_self]
        intro row isRow
        rw [added.owner row isRow, beq_self_eq_true]
      rw [none, all, List.nil_append]
      exact added.contents
  owned := by
    intro row member
    rw [added.chunks] at member
    rw [List.map_append]
    rcases List.mem_append.mp member with old | new
    · exact List.mem_append_left _ (integrity.owned row old)
    · rw [added.owner row new]
      exact List.mem_append_right _ (by simp)
  chunkIds := added.fresh integrity.chunkIds
  separate := chunkId_injective
  fts := by
    rw [added.chunksFts, added.chunks, List.map_append, List.map_append, added.same]
    exact congrArg (· ++ _) integrity.fts
  ftsUris := by
    intro row member
    rw [added.chunksFts] at member
    rw [List.map_append]
    rcases List.mem_append.mp member with old | new
    · exact List.mem_append_left _ (integrity.ftsUris row old)
    · obtain ⟨owner, uri⟩ := added.ftsOwner row new
      rw [owner, uri]
      exact List.mem_append_right _ (by simp)

end Changes

/-! ## Calls -/

/-- The tables agree with a shelf, whose ids can be bound. -/
structure Sound (config : Config) (database : Database) (shelf : List Entry) : Prop where
  integrity : Integrity database shelf
  bounded : ∀ entry ∈ shelf, entry.id.length ≤ config.limit

/-- The text of a call and its chunk target are not both of 4 GiB or more. -/
def Narrow (text : Bytes) (target : Nat) : Prop :=
  text.length < 4294967296 ∨ target < 4294967295

/-- A call that stores no text of 4 GiB in chunks of that size. -/
def Call.Narrow : Call → Prop
  | .upsertText _ text target => Knowledge.Narrow text target
  | .indexFile _ (some (text, _)) _ target => Knowledge.Narrow text target
  | .indexFile _ none _ _ => True
  | .deleteDocument _ => True

section Calls

variable {database database' : Database} {shelf : List Entry}

theorem Integrity.row_iff (integrity : Integrity database shelf) {entry : Entry}
    (member : entry ∈ shelf) (test : Bytes → Bytes → Bool) :
    entry.id ∈ (database.documents.filter fun row => test row.id row.uri).map DocumentRow.id ↔
      test entry.id entry.uri = true := by
  constructor
  · intro selected
    obtain ⟨row, isRow, same⟩ := List.mem_map.mp selected
    obtain ⟨known, passes⟩ := List.mem_filter.mp isRow
    have pair : (row.id, row.uri) ∈ shelf.map fun entry => (entry.id, entry.uri) := by
      rw [← integrity.rows]
      exact List.mem_map.mpr ⟨row, known, rfl⟩
    obtain ⟨other, isOther, pairs⟩ := List.mem_map.mp pair
    have ids : other.id = entry.id := (congrArg Prod.fst pairs).trans same
    have isEntry : other = entry := List.inj_on_of_nodup_map integrity.ids isOther member ids
    have uris : entry.uri = row.uri := by
      rw [← isEntry]
      exact congrArg Prod.snd pairs
    rw [← same, uris]
    exact passes
  · intro passes
    have pair : (entry.id, entry.uri) ∈ database.documents.map fun row => (row.id, row.uri) := by
      rw [integrity.rows]
      exact List.mem_map.mpr ⟨entry, member, rfl⟩
    obtain ⟨row, known, pairs⟩ := List.mem_map.mp pair
    have ids : row.id = entry.id := congrArg Prod.fst pairs
    have uris : row.uri = entry.uri := congrArg Prod.snd pairs
    refine List.mem_map.mpr ⟨row, List.mem_filter.mpr ⟨known, ?_⟩, ids⟩
    rw [ids, uris]
    exact passes

theorem Integrity.deleteDocumentOrUriTx (integrity : Integrity database shelf) {id uri : Bytes}
    (text : Bytes) (boundId : bindText config id (-1) = some id)
    (boundUri : bindText config uri (-1) = some uri) :
    Integrity (deleteDocumentOrUriTx config database id uri)
      (shelf.filter fun other => !(⟨id, uri, text⟩ : Entry).displaces other) := by
  have removed := integrity.removed
    (fun other uri' => !(some other == some id || some uri' == some uri))
    (fun other => decide (other ∈ (database.documents.filter fun row =>
      row.named (some id) (some uri)).map DocumentRow.id)) ?_
  · rw [Knowledge.deleteDocumentOrUriTx, boundId, boundUri]
    simp only [decide_not]
    exact removed
  · intro entry member
    have row := integrity.row_iff member
      fun other uri' => some other == some id || some uri' == some uri
    rw [Bool.not_not, Bool.eq_iff_iff, decide_eq_true_iff]
    exact row

theorem Sound.upsertText (sound : Sound config database shelf) (enabled : config.fts5Enabled = true)
    (limited : config.limit < 2147483648) {document : Document} (narrow : Narrow text target)
    (committed : upsertText config database document text target = some database') :
    Sound config database' (shelve shelf ⟨document.id, document.uri, text⟩) := by
  rw [Knowledge.upsertText] at committed
  split at committed
  next => cases committed
  dsimp only at committed
  split at committed
  next => cases committed
  next middle inserted =>
    obtain ⟨boundId, boundUri, row, isId, isUri, rfl⟩ := insertDocument_some inserted
    have cleared := sound.integrity.deleteDocumentOrUriTx text boundId boundUri
    have newId : document.id ∉ (shelf.filter fun other =>
        !(⟨document.id, document.uri, text⟩ : Entry).displaces other).map Entry.id := by
      rw [List.mem_map]
      rintro ⟨other, member, same⟩
      have kept := (List.mem_filter.mp member).2
      simp [Entry.displaces, same] at kept
    have newUri : document.uri ∉ (shelf.filter fun other =>
        !(⟨document.id, document.uri, text⟩ : Entry).displaces other).map Entry.uri := by
      rw [List.mem_map]
      rintro ⟨other, member, same⟩
      have kept := (List.mem_filter.mp member).2
      simp [Entry.displaces, same] at kept
    have stored : ∃ pieces rows fts, Cut text pieces ∧
        Added document.id document.uri 0 pieces
          { Knowledge.deleteDocumentOrUriTx config database document.id document.uri with
            documents := (Knowledge.deleteDocumentOrUriTx config database document.id
              document.uri).documents ++ [row] } database' rows fts := by
      split at committed
      next empty =>
        obtain ⟨piece, rows, fts, bound, added⟩ := insertChunk_some enabled committed
        have none : piece = [] :=
          bindText_chunk limited (Nat.le_refl _) (by decide) bound
        rw [none] at added
        exact ⟨[[]], rows, fts, ⟨by simp [empty], fun _ => rfl, absurd empty⟩, added⟩
      next filled =>
        have small : text.length < 4294967296 ∨ chunkTarget target < 4294967295 :=
          narrow.imp id (chunkTarget_lt (by decide))
        obtain ⟨pieces, rows, fts, whole, nonempty, added⟩ :=
          insertChunks_some enabled limited (chunkTarget_positive target) _ _ _ _ small committed
        exact ⟨pieces, rows, fts, ⟨whole, fun empty => absurd empty filled, fun _ => nonempty⟩,
          added⟩
    obtain ⟨pieces, rows, fts, cut, added⟩ := stored
    refine ⟨cleared.added isId isUri newId newUri cut added, ?_⟩
    exact List.forall_mem_append.mpr ⟨fun entry old => sound.bounded entry
        (List.mem_of_mem_filter old), List.forall_mem_singleton.mpr ((bindText_whole boundId).2)⟩

theorem Sound.deleteDocument (sound : Sound config database shelf) {documentId : Bytes}
    (committed : deleteDocument config database documentId = some database') :
    Sound config database' (unshelve shelf documentId) := by
  rw [Knowledge.deleteDocument] at committed
  split at committed
  next => cases committed
  cases committed
  refine ⟨?_, fun entry member => sound.bounded entry (List.mem_of_mem_filter member)⟩
  have removed := sound.integrity.removed
    (fun id _ => some id != bindText config documentId (-1))
    (fun id => some id == bindText config documentId (-1))
    (fun entry _ => by rw [bne, Bool.not_not])
  have same : shelf.filter (fun entry => some entry.id != bindText config documentId (-1)) =
      unshelve shelf documentId := by
    apply List.filter_congr
    intro entry member
    have short := sound.bounded entry member
    rw [bindText_neg documentId (by omega)]
    split
    next long =>
      have other : entry.id ≠ documentId := by
        rintro rfl
        omega
      rw [bne_iff_ne.mpr other]
      rfl
    next => rfl
  rw [← same]
  exact removed

theorem Sound.commit (sound : Sound config database shelf) (enabled : config.fts5Enabled = true)
    (limited : config.limit < 2147483648) {call : Call} (narrow : call.Narrow)
    (committed : call.commit config database = some database') :
    Sound config database' (call.shelf shelf) := by
  cases call with
  | upsertText document text target => exact sound.upsertText enabled limited narrow committed
  | indexFile path file kind target =>
      unfold Call.commit Knowledge.indexFile at committed
      dsimp only at committed
      split at committed
      next => cases committed
      split at committed
      next => cases committed
      next text mtime =>
        split at committed
        next => cases committed
        next => exact sound.upsertText enabled limited narrow committed
  | deleteDocument documentId => exact sound.deleteDocument committed

theorem Sound.run (enabled : config.fts5Enabled = true) (limited : config.limit < 2147483648)
    (calls : List (Call × Bool)) (narrow : ∀ call ∈ calls, call.1.Narrow) :
    ∀ (database : Database) (shelf : List Entry), Sound config database shelf →
      Sound config (run config database calls) (shelfAfter config database shelf calls) := by
  induction calls with
  | nil => exact fun _ _ sound => sound
  | cons step calls ih =>
      intro database shelf sound
      obtain ⟨call, works⟩ := step
      obtain ⟨isNarrow, others⟩ := List.forall_mem_cons.mp narrow
      refine ih others _ _ ?_
      unfold perform
      dsimp only
      cases works with
      | false => exact sound
      | true =>
          rw [if_pos rfl, Bool.true_and]
          cases committed : call.commit config database with
          | none => exact sound
          | some database' => exact sound.commit enabled limited isNarrow committed

end Calls

/-! ## Nothing but SQLite fails -/

structure Storable (config : Config) (document : Document) (text : Bytes) : Prop where
  plain : textIsBinary text = false
  short : text.length ≤ config.limit
  uri : document.uri.length ≤ config.limit
  kind : (document.kind.getD (asciiBytes "text")).length ≤ config.limit
  hash : (document.contentHash.getD (hashText text)).length ≤ config.limit
  ids : ∀ ordinal ≤ text.length, (chunkId document.id ordinal).length ≤ config.limit

section Commits

variable {database : Database} {shelf : List Entry} {document : Document}

theorem bindText_of_le (short : text.length ≤ config.limit) :
    bindText config text (-1) = some text := by
  rw [bindText_neg text (by omega), if_neg (by omega)]

theorem length_chunkId_le {documentId : Bytes} {ordinal : Nat} :
    documentId.length ≤ (chunkId documentId ordinal).length := by
  rw [chunkId, List.length_append]
  omega

theorem insertChunk_isSome (limited : config.limit < 2147483648) {ordinal textLen : Nat}
    (present : ∃ row ∈ database.documents, row.id = document.id)
    (fresh : ∀ row ∈ database.chunks, row.id ≠ chunkId document.id ordinal)
    (shortId : (chunkId document.id ordinal).length ≤ config.limit)
    (shortUri : document.uri.length ≤ config.limit) (short : text.length ≤ config.limit)
    (within : textLen ≤ text.length) :
    ∃ database' row, insertChunk config database document.id document.uri ordinal text textLen
      document.metadataJson = some database' ∧ database'.documents = database.documents ∧
        database'.chunks = database.chunks ++ [row] ∧ row.id = chunkId document.id ordinal := by
  have bound : bindText config text (toInt textLen) = some (text.take textLen) := by
    rw [toInt_of_lt (by omega), bindText_nat, if_neg]
    rw [List.length_take]
    omega
  have isFresh : (database.chunks.any fun row => row.id == chunkId document.id ordinal) = false := by
    rw [List.any_eq_false]
    intro row member same
    exact fresh row member (beq_iff_eq.mp same)
  have isPresent : (database.documents.any fun row => row.id == document.id) = true := by
    obtain ⟨row, member, same⟩ := present
    exact List.any_eq_true.mpr ⟨row, member, beq_iff_eq.mpr same⟩
  rw [insertChunk, bindText_of_le shortId, bindText_of_le (length_chunkId_le.trans shortId),
    bindText_of_le shortUri, bound]
  simp only [isFresh, isPresent, Bool.not_true, Bool.or_self, Bool.false_eq_true, if_false]
  split
  next => exact ⟨_, _, rfl, rfl, rfl, rfl⟩
  next => exact ⟨_, _, rfl, rfl, rfl, rfl⟩

theorem insertChunks_isSome (limited : config.limit < 2147483648) (positive : 1 ≤ target)
    (shortUri : document.uri.length ≤ config.limit) :
    ∀ (rounds : Nat) (database : Database) (ordinal : Nat) (rest : Bytes), rest.length ≤ rounds →
      rest.length ≤ config.limit →
      (∃ row ∈ database.documents, row.id = document.id) →
      (∀ row ∈ database.chunks, ∀ later ≥ ordinal, row.id ≠ chunkId document.id later) →
      (∀ later ≤ ordinal + rest.length, (chunkId document.id later).length ≤ config.limit) →
      (insertChunks config document target rounds database ordinal rest).isSome = true := by
  intro rounds
  induction rounds with
  | zero =>
      intro database ordinal rest enough
      rw [List.length_eq_zero_iff.mp (Nat.le_zero.mp enough), insertChunks]
      simp
  | succ rounds ih =>
      intro database ordinal rest enough short present fresh shortIds
      rw [insertChunks]
      split
      next => rfl
      next filled =>
        have lengths := nextChunkLen_bounds filled positive
        obtain ⟨database', row, inserted, documents, chunks, isId⟩ :=
          insertChunk_isSome limited present
            (fun row member => fresh row member ordinal (Nat.le_refl _))
            (shortIds ordinal (by omega)) shortUri short lengths.2.1
        dsimp only
        rw [inserted]
        apply ih
        · rw [List.length_drop]
          omega
        · rw [List.length_drop]
          omega
        · rw [documents]
          exact present
        · intro other member later above
          rw [chunks] at member
          rcases List.mem_append.mp member with old | new
          · exact fresh other old later (by omega)
          · rw [List.mem_singleton.mp new, isId]
            intro same
            have := (chunkId_injective _ _ _ _ same).2
            omega
        · intro later below
          rw [List.length_drop] at below
          exact shortIds later (by omega)

theorem Integrity.chunk_id (integrity : Integrity database shelf) {row : ChunkRow}
    (member : row ∈ database.chunks) : ∃ ordinal, row.id = chunkId row.documentId ordinal := by
  obtain ⟨entry, isEntry, owner⟩ := List.mem_map.mp (integrity.owned row member)
  obtain ⟨pieces, -, same⟩ := integrity.texts entry isEntry
  have own : row ∈ database.chunksOf entry.id :=
    List.mem_filter.mpr ⟨member, beq_iff_eq.mpr owner.symm⟩
  have listed : row.content ∈ contents entry.id 0 pieces := by
    rw [← same]
    exact List.mem_map.mpr ⟨row, own, rfl⟩
  obtain ⟨piece, -, isContent⟩ := List.mem_map.mp listed
  refine ⟨piece.2, ?_⟩
  rw [← owner]
  exact (congrArg Prod.fst isContent).symm

theorem insertDocument_isSome {contentHash : Bytes} (size : Int)
    (others : ∀ row ∈ database.documents,
      row.named (some document.id) (some document.uri) = false)
    (shortId : document.id.length ≤ config.limit) (shortUri : document.uri.length ≤ config.limit)
    (shortKind : (document.kind.getD (asciiBytes "text")).length ≤ config.limit)
    (shortHash : contentHash.length ≤ config.limit) :
    ∃ database', insertDocument config database document contentHash size = some database' ∧
      (∃ row ∈ database'.documents, row.id = document.id) ∧
      database'.chunks = database.chunks := by
  have noOther : (database.documents.any fun row =>
      row.named (some document.id) (some document.uri)) = false := by
    rw [List.any_eq_false]
    intro row member
    rw [others row member]
    exact Bool.false_ne_true
  rw [insertDocument, bindText_of_le shortId, bindText_of_le shortUri, bindText_of_le shortKind,
    bindText_of_le shortHash]
  dsimp only
  rw [noOther, if_neg Bool.false_ne_true]
  refine ⟨_, rfl, ⟨_, List.mem_append_right _ (List.mem_singleton_self _), ?_⟩, rfl⟩
  rfl

theorem Integrity.upsertText_isSome (integrity : Integrity database shelf)
    (limited : config.limit < 2147483648) (storable : Storable config document text) (target : Nat) :
    (upsertText config database document text target).isSome = true := by
  have shortId : document.id.length ≤ config.limit :=
    length_chunkId_le.trans (storable.ids 0 (Nat.zero_le _))
  have boundId := bindText_of_le shortId
  have boundUri := bindText_of_le storable.uri
  have integral := integrity.deleteDocumentOrUriTx text boundId boundUri
  have others : ∀ row ∈ (Knowledge.deleteDocumentOrUriTx config database document.id
      document.uri).documents, row.named (some document.id) (some document.uri) = false := by
    intro row member
    rw [Knowledge.deleteDocumentOrUriTx, boundId, boundUri] at member
    simpa using (List.mem_filter.mp member).2
  rw [Knowledge.upsertText, storable.plain]
  simp only [Bool.false_eq_true, if_false]
  generalize Knowledge.deleteDocumentOrUriTx config database document.id document.uri = cleared
    at integral others ⊢
  have fresh : ∀ row ∈ cleared.chunks, ∀ later, row.id ≠ chunkId document.id later := by
    intro row member later same
    obtain ⟨ordinal, isId⟩ := integral.chunk_id member
    obtain ⟨entry, isEntry, owner⟩ := List.mem_map.mp (integral.owned row member)
    have isDocument : entry.id = document.id := by
      rw [owner]
      exact (chunkId_injective _ _ _ _ (isId.symm.trans same)).1
    have kept := (List.mem_filter.mp isEntry).2
    simp [Entry.displaces, isDocument] at kept
  obtain ⟨middle, inserted, present, chunks⟩ :=
    insertDocument_isSome (if document.size = 0 then (text.length : Int) else document.size)
      others shortId storable.uri storable.kind storable.hash
  rw [inserted]
  rw [← chunks] at fresh
  dsimp only
  split
  next =>
    have none : 0 ≤ ([] : Bytes).length := Nat.le_refl 0
    obtain ⟨database', row, isSome, -⟩ := insertChunk_isSome limited present
      (fun row member => fresh row member 0) (storable.ids 0 (Nat.zero_le _)) storable.uri
      (Nat.zero_le _) none
    rw [isSome]
    rfl
  next =>
    exact insertChunks_isSome limited (chunkTarget_positive target) storable.uri _ _ _ _
      (Nat.le_refl _) storable.short present (fun row member later _ => fresh row member later)
      (fun later below => storable.ids later (by omega))

end Commits

theorem empty_integrity : Integrity .empty [] where
  rows := rfl
  ids := List.nodup_nil
  uris := List.nodup_nil
  texts := by simp
  owned := by simp [Database.empty]
  chunkIds := List.nodup_nil
  separate := chunkId_injective
  fts := rfl
  ftsUris := by simp [Database.empty]

/-- The tables agree with the shelf after every run of calls that store no text of 4 GiB in
chunks of that size, and then every document that SQLite can hold is stored. -/
theorem run_integrity (config : Config) (enabled : config.fts5Enabled = true)
    (limited : config.limit < 2147483648) (calls : List (Call × Bool))
    (narrow : ∀ call ∈ calls, call.1.Narrow) :
    Integrity (run config .empty calls) (shelfAfter config .empty [] calls) ∧
      ∀ (document : Document) (text : Bytes) (target : Nat), Storable config document text →
        (upsertText config (run config .empty calls) document text target).isSome = true := by
  have sound := Sound.run enabled limited calls narrow _ _ ⟨empty_integrity, by simp⟩
  refine ⟨sound.integrity, ?_⟩
  intro document text target storable
  exact sound.integrity.upsertText_isSome limited storable target

def sampleConfig : Config := ⟨1000000000, true⟩

def sampleDocument (id uri : String) : Document where
  id := asciiBytes id
  uri := asciiBytes uri
  kind := none
  title := none
  mtime := 0
  size := 1
  contentHash := some []
  metadataJson := none

/-- A document displaces two others, one by its id and one by its uri. -/
def sampleCalls : List (Call × Bool) :=
  [(.upsertText (sampleDocument "a" "x") (asciiBytes "one") 0, true),
    (.upsertText (sampleDocument "b" "y") [] 200, true),
    (.upsertText (sampleDocument "c" "z") (asciiBytes "lost") 1, false),
    (.upsertText (sampleDocument "a" "y") (asciiBytes "two") 1, true)]

theorem run_sampleCalls : sampleConfig.fts5Enabled = true ∧ sampleConfig.limit < 2147483648 ∧
    (∀ call ∈ sampleCalls, call.1.Narrow) ∧ Integrity (run sampleConfig .empty sampleCalls)
      (shelfAfter sampleConfig .empty [] sampleCalls) ∧
    shelfAfter sampleConfig .empty [] sampleCalls =
      [⟨asciiBytes "a", asciiBytes "y", asciiBytes "two"⟩] := by
  have narrow : ∀ call ∈ sampleCalls, call.1.Narrow := by
    simp [sampleCalls, Call.Narrow, Narrow]
  exact ⟨rfl, by decide, narrow,
    (run_integrity sampleConfig rfl (by decide) sampleCalls narrow).1, by decide⟩

section Wide

variable {text : Bytes} (wide : text.length = 4294967296)

/-- The tables after a text of 4 GiB was stored in one chunk. -/
def wideDatabase : Database where
  documents := [⟨asciiBytes "a", asciiBytes "x", asciiBytes "text", none, 0, 1, [], none⟩]
  chunks := [⟨chunkId (asciiBytes "a") 0, asciiBytes "a", 0, [], none⟩]
  chunksFts := [⟨chunkId (asciiBytes "a") 0, asciiBytes "a", asciiBytes "x", []⟩]

theorem insertChunk_wide : insertChunk sampleConfig
    { wideDatabase with chunks := [], chunksFts := [] } (asciiBytes "a") (asciiBytes "x") 0 text
      4294967296 none = some wideDatabase := by
  have size : toInt 4294967296 = ((0 : Nat) : Int) := by decide
  have bound : bindText sampleConfig text (toInt 4294967296) = some [] := by
    rw [size, bindText_nat]
    rfl
  rw [insertChunk, bound]
  decide

theorem insertChunks_nil {document : Document} {rounds ordinal : Nat} {database : Database} :
    insertChunks config document target rounds database ordinal [] = some database := by
  cases rounds <;> rfl

include wide in
theorem upsertText_wide (plain : textIsBinary text = false) :
    upsertText sampleConfig .empty (sampleDocument "a" "x") text 4294967296 =
      some wideDatabase := by
  have filled : text ≠ [] := by
    rintro rfl
    cases wide
  have length : nextChunkLen text (chunkTarget 4294967296) = 4294967296 := by
    have target : chunkTarget 4294967296 = 4294967296 := by decide
    rw [nextChunkLen, target, if_pos (Nat.le_of_eq wide), wide]
  have rounds : text.length = 4294967295 + 1 := wide
  have document : insertDocument sampleConfig (deleteDocumentOrUriTx sampleConfig .empty
      (asciiBytes "a") (asciiBytes "x")) (sampleDocument "a" "x") [] 1 =
        some { wideDatabase with chunks := [], chunksFts := [] } := by decide
  rw [upsertText, plain]
  simp only [Bool.false_eq_true, if_false]
  have inserted : insertDocument sampleConfig (deleteDocumentOrUriTx sampleConfig .empty
      (sampleDocument "a" "x").id (sampleDocument "a" "x").uri) (sampleDocument "a" "x")
        ((sampleDocument "a" "x").contentHash.getD (hashText text))
        (if (sampleDocument "a" "x").size = 0 then (text.length : Int)
          else (sampleDocument "a" "x").size) =
      some { wideDatabase with chunks := [], chunksFts := [] } := document
  rw [inserted]
  dsimp only
  rw [if_neg filled, rounds, insertChunks, if_neg filled, length]
  have chunk : insertChunk sampleConfig { wideDatabase with chunks := [], chunksFts := [] }
      (sampleDocument "a" "x").id (sampleDocument "a" "x").uri 0 text 4294967296
      (sampleDocument "a" "x").metadataJson = some wideDatabase := insertChunk_wide
  have rest : text.drop 4294967296 = [] := List.drop_eq_nil_of_le (Nat.le_of_eq wide)
  dsimp only
  rw [chunk]
  dsimp only
  rw [rest, insertChunks_nil]

end Wide

/-- A text of 4 GiB with a chunk target of that size is stored as an empty chunk. -/
theorem run_wide : ¬∀ (config : Config) (calls : List (Call × Bool)),
    config.fts5Enabled = true → config.limit < 2147483648 →
      Integrity (run config .empty calls) (shelfAfter config .empty [] calls) := by
  intro always
  have wide : (List.replicate 4294967296 (97 : UInt8)).length = 4294967296 :=
    List.length_replicate
  have plain : textIsBinary (List.replicate 4294967296 (97 : UInt8)) = false := by
    rw [textIsBinary, List.contains_replicate]
    rfl
  have stored := upsertText_wide wide plain
  have integrity := always sampleConfig
    [(.upsertText (sampleDocument "a" "x") (List.replicate 4294967296 97) 4294967296, true)]
    rfl (by decide)
  generalize List.replicate 4294967296 (97 : UInt8) = text at wide stored integrity
  have performed : perform sampleConfig .empty
      (.upsertText (sampleDocument "a" "x") text 4294967296) true = wideDatabase := by
    rw [perform, Call.commit, stored]
    rfl
  have shelf : shelfAfter sampleConfig .empty []
      [(.upsertText (sampleDocument "a" "x") text 4294967296, true)] =
        [⟨asciiBytes "a", asciiBytes "x", text⟩] := by
    rw [shelfAfter, Call.commit, stored]
    rfl
  rw [run, List.foldl_cons, List.foldl_nil, performed, shelf] at integrity
  obtain ⟨pieces, cut, same⟩ := integrity.texts _ (List.mem_singleton_self _)
  have filled : text ≠ [] := by
    rintro rfl
    cases wide
  have empty : [] ∈ pieces := by
    have texts := congrArg (List.map fun row => row.2.2) same
    have pieces' : (contents (asciiBytes "a") 0 pieces).map (fun row => row.2.2) = pieces := by
      rw [contents, List.map_map]
      exact List.zipIdx_map_fst ..
    have none : (wideDatabase.chunksOf (asciiBytes "a")).map (fun row => row.content.2.2) =
        [[]] := by decide
    rw [pieces', List.map_map] at texts
    rw [← texts]
    exact none ▸ List.mem_singleton_self _
  exact cut.filled filled empty

end TurboAgent.Knowledge
