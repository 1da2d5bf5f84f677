import TurboAgent.Data.Bytes

/-!
# Where a text is cut

The chunks of a text overlap as they should and cover it.  They keep to the chunk size unless a
newline stands exactly that many bytes after the start of a chunk: the search for the end of a
line begins one byte too late, and the newline is taken into the chunk.
-/

namespace TurboAgent.VectorStore

/-! ## Chunks of a text -/

/-- `turbo_text_splitter_options_t`. -/
structure SplitterOptions where
  (chunkSize chunkOverlap : Nat)
  deriving DecidableEq

structure Chunk where
  text : Bytes
  (start stop : Nat)
  deriving DecidableEq

def lastLineEnd (text : Bytes) (target : Nat) : Nat → Nat
  | 0 => target
  | i + 1 =>
      if target / 2 < i + 1 then
        if text[i + 1]? = some 10 then i + 2 else lastLineEnd text target i
      else target

/-- `turbo_text_splitter_next_chunk_len`. -/
def nextChunkLen (text : Bytes) (target : Nat) : Nat :=
  if text.length ≤ target then text.length else lastLineEnd text target target

/-- The length of the next chunk: more than the overlap if so much is left. -/
def chunkLen (rest : Bytes) (size overlap : Nat) : Nat :=
  if nextChunkLen rest size ≤ overlap ∧ overlap < rest.length then overlap + 1
  else nextChunkLen rest size

theorem overlap_lt_chunkLen {rest : Bytes} {size overlap : Nat} (fits : overlap < size)
    (more : ¬rest.length ≤ chunkLen rest size overlap) :
    overlap < chunkLen rest size overlap := by
  unfold chunkLen at *
  split
  next => exact Nat.lt_succ_self overlap
  next short =>
    rw [if_neg short] at more
    by_contra long
    have all : rest.length ≤ size := by
      by_contra large
      exact short ⟨Nat.le_of_not_lt long, by omega⟩
    rw [nextChunkLen, if_pos all] at more
    exact more (Nat.le_refl _)

/-- The loop of `turbo_text_splitter_split_text`, at an offset. -/
def splitFrom (size overlap : Nat) (fits : overlap < size) (offset : Nat) (rest : Bytes) :
    Option (List Chunk) :=
  if rest = [] then some []
  else if chunkLen rest size overlap = 0 then none
  else
    let chunk : Chunk :=
      ⟨rest.take (chunkLen rest size overlap), offset, offset + chunkLen rest size overlap⟩
    if _reached : rest.length ≤ chunkLen rest size overlap then some [chunk]
    else
      (splitFrom size overlap fits (offset + (chunkLen rest size overlap - overlap))
        (rest.drop (chunkLen rest size overlap - overlap))).map (chunk :: ·)
termination_by rest.length
decreasing_by
  have longer := overlap_lt_chunkLen fits _reached
  simp only [List.length_drop]
  omega

def effectiveChunkSize (options : Option SplitterOptions) : Nat :=
  match options with
  | none => 2048
  | some options => if options.chunkSize = 0 then 2048 else options.chunkSize

def effectiveChunkOverlap (options : Option SplitterOptions) : Nat :=
  match options with
  | none => 0
  | some options => options.chunkOverlap

/-- `turbo_text_splitter_split_text`. -/
def splitText (text : Bytes) (options : Option SplitterOptions) : Option (List Chunk) :=
  if fits : effectiveChunkOverlap options < effectiveChunkSize options then
    splitFrom (effectiveChunkSize options) (effectiveChunkOverlap options) fits 0 text
  else none

/-! ## The length of a chunk -/

theorem lastLineEnd_le (text : Bytes) (target i : Nat) (below : i < target) :
    lastLineEnd text target i ≤ target := by
  induction i with
  | zero => exact Nat.le_refl target
  | succ i ih =>
      rw [lastLineEnd]
      split
      next =>
        split
        next => exact below
        next => exact ih (Nat.lt_of_succ_lt below)
      next => exact Nat.le_refl target

theorem lastLineEnd_target (text : Bytes) (target : Nat) (some_target : 0 < target) :
    lastLineEnd text target target ≤ target ↔ text[target]? ≠ some 10 := by
  cases target with
  | zero => exact absurd some_target (Nat.lt_irrefl 0)
  | succ i =>
      rw [lastLineEnd, if_pos (Nat.div_lt_self some_target Nat.one_lt_two)]
      split
      next newline => simp [newline]
      next other => simp [other, lastLineEnd_le text (i + 1) i (Nat.lt_succ_self i)]

theorem lastLineEnd_pos (text : Bytes) (target i : Nat) (some_target : 0 < target) :
    0 < lastLineEnd text target i := by
  induction i with
  | zero => exact some_target
  | succ i ih =>
      rw [lastLineEnd]
      split
      next =>
        split
        next => exact Nat.succ_pos _
        next => exact ih
      next => exact some_target

theorem lastLineEnd_le_succ (text : Bytes) (target : Nat) (some_target : 0 < target) :
    lastLineEnd text target target ≤ target + 1 := by
  cases target with
  | zero => exact absurd some_target (Nat.lt_irrefl 0)
  | succ i =>
      rw [lastLineEnd, if_pos (Nat.div_lt_self some_target Nat.one_lt_two)]
      split
      next => exact Nat.le_refl _
      next => exact Nat.le_succ_of_le (lastLineEnd_le text (i + 1) i (Nat.lt_succ_self i))

section

variable {rest : Bytes} {size overlap : Nat}

theorem nextChunkLen_le_length (some_size : 0 < size) : nextChunkLen rest size ≤ rest.length := by
  unfold nextChunkLen
  split
  next => exact Nat.le_refl _
  next long => exact (lastLineEnd_le_succ rest size some_size).trans (Nat.lt_of_not_le long)

theorem nextChunkLen_pos (some_size : 0 < size) (filled : rest ≠ []) :
    0 < nextChunkLen rest size := by
  unfold nextChunkLen
  split
  next => exact List.length_pos_of_ne_nil filled
  next => exact lastLineEnd_pos rest size size some_size

theorem nextChunkLen_le_size (some_size : 0 < size) :
    nextChunkLen rest size ≤ size ↔ rest[size]? ≠ some 10 := by
  unfold nextChunkLen
  split
  next short => simp [short]
  next => exact lastLineEnd_target rest size some_size

theorem chunkLen_le_length (fits : overlap < size) : chunkLen rest size overlap ≤ rest.length := by
  unfold chunkLen
  split
  next raised => exact raised.2
  next => exact nextChunkLen_le_length (Nat.zero_lt_of_lt fits)

theorem chunkLen_pos (fits : overlap < size) (filled : rest ≠ []) :
    0 < chunkLen rest size overlap := by
  unfold chunkLen
  split
  next => exact Nat.succ_pos overlap
  next => exact nextChunkLen_pos (Nat.zero_lt_of_lt fits) filled

theorem chunkLen_le_size (fits : overlap < size) :
    chunkLen rest size overlap ≤ size ↔ rest[size]? ≠ some 10 := by
  rw [← nextChunkLen_le_size (Nat.zero_lt_of_lt fits)]
  unfold chunkLen
  split
  next raised => exact ⟨fun _ => raised.1.trans fits.le, fun _ => fits⟩
  next => exact Iff.rfl

end

/-! ## The rounds of the loop -/

section

variable (text : Bytes) (size overlap : Nat)

def lengthAt (offset : Nat) : Nat :=
  chunkLen (text.drop offset) size overlap

def chunkAt (offset : Nat) : Chunk :=
  ⟨(text.drop offset).take (lengthAt text size overlap offset), offset,
    offset + lengthAt text size overlap offset⟩

/-- One round of the loop goes on to the next: the chunk at the offset does not reach the end. -/
def Advances (offset next : Nat) : Prop :=
  offset + lengthAt text size overlap offset < text.length ∧
    next = offset + (lengthAt text size overlap offset - overlap)

/-- The offsets at which a round of the loop begins. -/
def Begins : Nat → Prop :=
  Relation.ReflTransGen (Advances text size overlap) 0

/-- No round begins at an offset with a newline exactly the chunk size after it. -/
def Clear : Prop :=
  ∀ offset, Begins text size overlap offset → text[offset + size]? ≠ some 10

/-- The chunks cover the text, each one starting the overlap before the end of the last one. -/
structure Covers (chunks : List Chunk) : Prop where
  present : text ≠ [] → chunks ≠ []
  first : ∀ chunk ∈ chunks.head?, chunk.start = 0
  last : ∀ chunk ∈ chunks.getLast?, chunk.stop = text.length
  exact : ∀ chunk ∈ chunks, chunk.stop ≤ text.length ∧
    chunk.text = (text.take chunk.stop).drop chunk.start
  filled : ∀ chunk ∈ chunks, chunk.text ≠ []
  steps : chunks.IsChain fun chunk next =>
    next.start + overlap = chunk.stop ∧ chunk.start < next.start

end

section

variable {text : Bytes} {size overlap offset next : Nat}

theorem lengthAt_pos (fits : overlap < size) (inside : offset < text.length) :
    0 < lengthAt text size overlap offset :=
  chunkLen_pos fits (List.ne_nil_of_length_pos (by simp [inside]))

theorem lengthAt_le (fits : overlap < size) (inside : offset ≤ text.length) :
    offset + lengthAt text size overlap offset ≤ text.length := by
  have short : lengthAt text size overlap offset ≤ (text.drop offset).length :=
    chunkLen_le_length fits
  rw [List.length_drop] at short
  omega

theorem overlap_lt_lengthAt (fits : overlap < size)
    (more : offset + lengthAt text size overlap offset < text.length) :
    overlap < lengthAt text size overlap offset := by
  refine overlap_lt_chunkLen fits fun reached => ?_
  rw [List.length_drop] at reached
  exact absurd more (by unfold lengthAt; omega)

theorem lengthAt_le_size (fits : overlap < size) :
    lengthAt text size overlap offset ≤ size ↔ text[offset + size]? ≠ some 10 := by
  rw [← List.getElem?_drop]
  exact chunkLen_le_size fits

theorem splitFrom_drop (fits : overlap < size) (inside : offset < text.length) :
    splitFrom size overlap fits offset (text.drop offset) =
      if text.length ≤ offset + lengthAt text size overlap offset then
        some [chunkAt text size overlap offset]
      else
        (splitFrom size overlap fits (offset + (lengthAt text size overlap offset - overlap))
          (text.drop (offset + (lengthAt text size overlap offset - overlap)))).map
            (chunkAt text size overlap offset :: ·) := by
  have filled : text.drop offset ≠ [] := List.ne_nil_of_length_pos (by simp [inside])
  have whole : (text.drop offset).length ≤ lengthAt text size overlap offset ↔
      text.length ≤ offset + lengthAt text size overlap offset := by
    rw [List.length_drop]
    omega
  rw [splitFrom, if_neg filled, if_neg (chunkLen_pos fits filled).ne', ← List.drop_drop]
  change (if _ : (text.drop offset).length ≤ lengthAt text size overlap offset then _ else _) = _
  split
  next reached => rw [if_pos (whole.mp reached)]; rfl
  next more => rw [if_neg (more ∘ whole.mpr)]; rfl

theorem Advances.inside (fits : overlap < size)
    (advances : Advances text size overlap offset next) :
    next < text.length ∧ offset < next ∧
      next + overlap = offset + lengthAt text size overlap offset := by
  obtain ⟨more, rfl⟩ := advances
  have long := overlap_lt_lengthAt fits more
  omega

theorem Begins.inside (fits : overlap < size) (filled : text ≠ [])
    (begins : Begins text size overlap offset) : offset < text.length := by
  induction begins with
  | refl => exact List.length_pos_of_ne_nil filled
  | tail _ advances => exact (advances.inside fits).1

/-! ## The chunks -/

/-- The chunks of a run of the loop from an offset on: one for each round. -/
structure Rounds (text : Bytes) (size overlap offset : Nat) (chunks : List Chunk) : Prop where
  first : chunks.head? = some (chunkAt text size overlap offset)
  last : ∀ chunk ∈ chunks.getLast?, chunk.stop = text.length
  all : ∀ chunk, chunk ∈ chunks ↔ ∃ start,
    Relation.ReflTransGen (Advances text size overlap) offset start ∧
      chunk = chunkAt text size overlap start
  steps : chunks.IsChain fun chunk next =>
    next.start + overlap = chunk.stop ∧ chunk.start < next.start

theorem Rounds.done (fits : overlap < size) (inside : offset < text.length)
    (reached : text.length ≤ offset + lengthAt text size overlap offset) :
    Rounds text size overlap offset [chunkAt text size overlap offset] where
  first := rfl
  last := by
    intro chunk member
    obtain rfl : chunkAt text size overlap offset = chunk := Option.some.inj member
    exact Nat.le_antisymm (lengthAt_le fits inside.le) reached
  all := by
    intro chunk
    rw [List.mem_singleton]
    constructor
    · intro same
      exact ⟨offset, .refl, same⟩
    · rintro ⟨start, begins, same⟩
      rcases begins.cases_head with here | ⟨next, advances, _⟩
      · exact here ▸ same
      · exact absurd advances.1 (Nat.not_lt.mpr reached)
  steps := .singleton _

theorem Rounds.step (fits : overlap < size)
    (advances : Advances text size overlap offset next) {chunks : List Chunk}
    (rest : Rounds text size overlap next chunks) :
    Rounds text size overlap offset (chunkAt text size overlap offset :: chunks) where
  first := rfl
  last := by
    intro chunk member
    have filled : chunks ≠ [] := by
      intro none
      have first := rest.first
      rw [none] at first
      exact absurd first (by simp)
    rw [List.getLast?_cons_of_ne_nil filled] at member
    exact rest.last chunk member
  all := by
    intro chunk
    rw [List.mem_cons, rest.all]
    constructor
    · rintro (same | ⟨start, begins, same⟩)
      · exact ⟨offset, .refl, same⟩
      · exact ⟨start, .head advances begins, same⟩
    · rintro ⟨start, begins, same⟩
      rcases begins.cases_head with here | ⟨other, first, begins⟩
      · exact .inl (here ▸ same)
      · obtain rfl : other = next := first.2.trans advances.2.symm
        exact .inr ⟨start, begins, same⟩
  steps := by
    refine List.IsChain.cons rest.steps fun second member => ?_
    obtain rfl : chunkAt text size overlap next = second :=
      Option.some.inj (rest.first.symm.trans member)
    have moved := advances.inside fits
    exact ⟨moved.2.2, moved.2.1⟩

theorem splitFrom_rounds (fits : overlap < size) (offset : Nat) (inside : offset < text.length) :
    ∃ chunks, splitFrom size overlap fits offset (text.drop offset) = some chunks ∧
      Rounds text size overlap offset chunks := by
  rw [splitFrom_drop fits inside]
  split
  next reached => exact ⟨_, rfl, .done fits inside reached⟩
  next more =>
    have advances : Advances text size overlap offset
        (offset + (lengthAt text size overlap offset - overlap)) := ⟨Nat.lt_of_not_le more, rfl⟩
    have moved := advances.inside fits
    obtain ⟨chunks, split, rounds⟩ := splitFrom_rounds fits _ moved.1
    exact ⟨_, by rw [split]; rfl, rounds.step fits advances⟩
termination_by text.length - offset

theorem chunkAt_text (offset : Nat) : (chunkAt text size overlap offset).text =
    (text.take (chunkAt text size overlap offset).stop).drop offset := by
  change (text.drop offset).take _ = (text.take (offset + _)).drop offset
  rw [List.drop_take, Nat.add_sub_cancel_left]

theorem chunkAt_length (fits : overlap < size) (inside : offset ≤ text.length) :
    (chunkAt text size overlap offset).text.length = lengthAt text size overlap offset := by
  change ((text.drop offset).take _).length = _
  rw [List.length_take, List.length_drop]
  exact Nat.min_eq_left (Nat.le_sub_of_add_le' (lengthAt_le fits inside))

theorem Rounds.covers (fits : overlap < size) (filled : text ≠ []) {chunks : List Chunk}
    (rounds : Rounds text size overlap 0 chunks) : Covers text overlap chunks where
  present := by
    intro _ none
    have first := rounds.first
    rw [none] at first
    exact absurd first (by simp)
  first := by
    intro chunk member
    obtain rfl : chunkAt text size overlap 0 = chunk :=
      Option.some.inj (rounds.first.symm.trans member)
    rfl
  last := rounds.last
  exact := by
    intro chunk member
    obtain ⟨start, begins, rfl⟩ := (rounds.all chunk).mp member
    exact ⟨lengthAt_le fits (Begins.inside fits filled begins).le, chunkAt_text start⟩
  filled := by
    intro chunk member
    obtain ⟨start, begins, rfl⟩ := (rounds.all chunk).mp member
    have inside := Begins.inside fits filled begins
    refine List.ne_nil_of_length_pos ?_
    rw [chunkAt_length fits inside.le]
    exact lengthAt_pos fits inside
  steps := rounds.steps

/-- Every chunk keeps to the size if and only if no newline follows one that is full. -/
theorem Rounds.bounded (fits : overlap < size) (filled : text ≠ []) {chunks : List Chunk}
    (rounds : Rounds text size overlap 0 chunks) :
    (∀ chunk ∈ chunks, chunk.text.length ≤ size) ↔ Clear text size overlap := by
  have lengths : ∀ {start}, Begins text size overlap start →
      ((chunkAt text size overlap start).text.length ≤ size ↔ text[start + size]? ≠ some 10) := by
    intro start begins
    rw [chunkAt_length fits (Begins.inside fits filled begins).le]
    exact lengthAt_le_size fits
  constructor
  · intro bounded start begins
    exact (lengths begins).mp (bounded _ ((rounds.all _).mpr ⟨start, begins, rfl⟩))
  · intro clear chunk member
    obtain ⟨start, begins, rfl⟩ := (rounds.all chunk).mp member
    exact (lengths begins).mpr (clear start begins)

end

/-- Splitting covers the text, and keeps to the chunk size if and only if no round of the loop
begins at an offset with a newline exactly the chunk size after it. -/
theorem splitText_covers (text : Bytes) (options : Option SplitterOptions)
    (fits : effectiveChunkOverlap options < effectiveChunkSize options) :
    ∃ chunks, splitText text options = some chunks ∧
      Covers text (effectiveChunkOverlap options) chunks ∧
      ((∀ chunk ∈ chunks, chunk.text.length ≤ effectiveChunkSize options) ↔
        Clear text (effectiveChunkSize options) (effectiveChunkOverlap options)) := by
  rw [splitText, dif_pos fits]
  by_cases empty : text = []
  · subst empty
    refine ⟨[], by rw [splitFrom, if_pos rfl], ?_, ?_⟩
    · exact ⟨fun filled => absurd rfl filled, by simp, by simp, by simp, by simp, .nil⟩
    · exact iff_of_true (by simp) fun offset _ => by simp
  · obtain ⟨chunks, split, rounds⟩ := splitFrom_rounds fits 0 (List.length_pos_of_ne_nil empty)
    exact ⟨chunks, split, rounds.covers fits empty, rounds.bounded fits empty⟩

/-- Two bytes to a chunk, and a text of two bytes and a newline. -/
theorem splitText_covers_sample :
    ∃ chunks, splitText [97, 98, 10] (some ⟨2, 0⟩) = some chunks ∧
      Covers [97, 98, 10] 0 chunks ∧
      ((∀ chunk ∈ chunks, chunk.text.length ≤ 2) ↔ Clear [97, 98, 10] 2 0) :=
  splitText_covers [97, 98, 10] (some ⟨2, 0⟩) (by decide)

/-- The newline makes the only chunk three bytes long. -/
theorem splitText_exceeds : ¬∃ chunks, splitText [97, 98, 10] (some ⟨2, 0⟩) = some chunks ∧
    ∀ chunk ∈ chunks, chunk.text.length ≤ 2 := by
  have split : splitText [97, 98, 10] (some ⟨2, 0⟩) = some [⟨[97, 98, 10], 0, 3⟩] := by
    rw [splitText, dif_pos (by decide), splitFrom, if_neg (by decide), if_neg (by decide),
      dif_pos (by decide)]
    rfl
  rintro ⟨chunks, same, bounded⟩
  obtain rfl : [⟨[97, 98, 10], 0, 3⟩] = chunks := Option.some.inj (split.symm.trans same)
  exact absurd (bounded _ (List.mem_singleton_self _)) (by decide)

end TurboAgent.VectorStore
