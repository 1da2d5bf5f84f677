import TurboAgent.Logic.Wp
import TurboAgent.Workspace.Model

/-!
# The calls of the file system

One rule for each call, and what the loops over them do: reading gives the whole content of a
file that fits, and writing leaves the whole content in the staging file.
-/

namespace TurboAgent.Workspace

open Logic Runtime

theorem error_ne_ok : ToolStatus.error ≠ .ok := by
  decide

/-! ## The world -/

section

variable (world : World) (well : Bool) (content : Bytes → Bytes)

@[simp] theorem note_true : world.note true = world := by
  cases world
  simp [World.note]

@[simp] theorem note_files : (world.note well).files = world.files := rfl

@[simp] theorem note_wrapped : (world.note well).wrapped = world.wrapped := rfl

@[simp] theorem note_reader : (world.note well).reader = world.reader := rfl

@[simp] theorem note_writer : (world.note well).writer = world.writer := rfl

@[simp] theorem note_false_troubled : (world.note false).troubled = true := Bool.or_true _

theorem note_troubled (troubled : world.troubled = true) : (world.note well).troubled = true := by
  rw [World.note, troubled, Bool.true_or]

@[simp] theorem filled_wrapped : (world.filled content).wrapped = world.wrapped := by
  unfold World.filled
  split <;> rfl

@[simp] theorem filled_troubled : (world.filled content).troubled = world.troubled := by
  unfold World.filled
  split <;> rfl

@[simp] theorem filled_writer : (world.filled content).writer = world.writer := by
  unfold World.filled
  split <;> rfl

theorem filled_files {files : Bytes → Option FileNode} {place : Bytes} {node : FileNode}
    (opened : world.writer = some place)
    (present : world.files = Function.update files place (some node)) :
    (world.filled content).files =
      Function.update files place (some { node with content := content node.content }) := by
  rw [World.filled, opened]
  change Function.update world.files place _ = _
  rw [present, Function.update_self, Function.update_idem, Option.map_some]

end

/-! ## The calls -/

section

variable {config : Config} {α : Type} {post : α → World → Prop} {world : World}

theorem wp_control {rest : ToolStatus → Call α} (holds : ∀ status, status ≠ .error →
      (machine config).wp () (rest status) post (world.note (status == .ok))) :
    (machine config).wp () (control >>= rest) post world := by
  intro reading after performed
  obtain rfl : after = _ := performed
  exact holds _ (checkControl_ne_error reading)

/-- A call that ends when the check gives another status than `ok`, and else goes on. -/
theorem wp_checked {stop rest : ToolStatus → Call α} (stopped : ∀ status, status ≠ .ok →
      (machine config).wp () (stop status) post (world.note false))
    (goesOn : (machine config).wp () (rest .ok) post world) :
    (machine config).wp ()
      (control >>= fun status => if status ≠ .ok then stop status else rest status) post world := by
  refine wp_control fun status _ => ?_
  split
  next interrupted =>
    rw [beq_eq_false_iff_ne.mpr interrupted]
    exact stopped status interrupted
  next clear =>
    rw [not_not.mp clear, beq_self_eq_true, note_true]
    exact goesOn

variable {path : Bytes} {rest : Bool → Call α}

theorem wp_openRead (fails : (machine config).wp () (rest false) post (world.note false))
    (opens : ∀ place node, config.locate path = some place → world.files place = some node →
      (machine config).wp () (rest true) post { world with reader := some node.content }) :
    (machine config).wp () (openRead path >>= rest) post world := by
  rintro opened after (⟨rfl, rfl⟩ | ⟨rfl, place, node, located, present, rfl⟩)
  · exact fails
  · exact opens place node located present

theorem wp_readFile {size : Nat} {left : Bytes} {rest : Option Bytes → Call α}
    (opened : world.reader = some left)
    (fails : (machine config).wp () (rest none) post (world.note false))
    (reads : ∀ bytes more, left = bytes ++ more → bytes.length ≤ size →
      (bytes = [] → more = []) →
      (machine config).wp () (rest (some bytes)) post { world with reader := some more }) :
    (machine config).wp () (readFile size >>= rest) post world := by
  rintro answer after (⟨rfl, rfl⟩ | ⟨bytes, more, rfl, split, short, last, rfl⟩)
  · exact fails
  · exact reads bytes more (Option.some.inj (opened.symm.trans split)) short last

theorem wp_closeRead (holds : ∀ closed, (machine config).wp () (rest closed) post
      ({ world with reader := none }.note closed)) :
    (machine config).wp () (closeRead >>= rest) post world := by
  rintro closed after rfl
  exact holds closed

theorem wp_statPath {rest : StatAnswer → Call α}
    (fails : (machine config).wp () (rest .refused) post (world.note false))
    (answers : ∀ place, config.locate path = some place →
      (machine config).wp () (rest (match world.files place with
        | none => .missing
        | some node => .found node.regular node.mode)) post world) :
    (machine config).wp () (statPath path >>= rest) post world := by
  rintro answer after (⟨rfl, rfl⟩ | ⟨place, located, rfl, rfl⟩)
  · exact fails
  · exact answers place located

theorem wp_newUuid {rest : Option Bytes → Call α}
    (holds : ∀ uuid, (machine config).wp () (rest uuid) post (world.note uuid.isSome)) :
    (machine config).wp () (newUuid >>= rest) post world := by
  rintro uuid after rfl
  exact holds uuid

theorem wp_createFile {mode : Nat}
    (fails : (machine config).wp () (rest false) post (world.note false))
    (creates : ∀ place, config.locate path = some place → world.files place = none →
      (machine config).wp () (rest true) post { world with
        files := Function.update world.files place (some ⟨[], true, mode⟩)
        writer := some place }) :
    (machine config).wp () (createFile path mode >>= rest) post world := by
  rintro created after (⟨rfl, rfl⟩ | ⟨rfl, place, located, absent, rfl⟩)
  · exact fails
  · exact creates place located absent

theorem wp_writeFile {bytes : Bytes} {rest : Int → Call α}
    (fails : ∀ written content, Int.toNat written = 0 →
      (machine config).wp () (rest written) post ((world.filled content).note false))
    (writes : ∀ written, 0 < Int.toNat written → Int.toNat written ≤ bytes.length →
      (machine config).wp () (rest written) post
        (world.filled (· ++ bytes.take (Int.toNat written)))) :
    (machine config).wp () (writeFile bytes >>= rest) post world := by
  rintro written after (⟨none, content, rfl⟩ | ⟨some, short, rfl⟩)
  · exact fails written content none
  · exact writes written some short

theorem wp_closeWrite (fails : ∀ content, (machine config).wp () (rest false) post
      ({ world.filled content with writer := none }.note false))
    (closes : (machine config).wp () (rest true) post { world with writer := none }) :
    (machine config).wp () (closeWrite >>= rest) post world := by
  rintro closed after (⟨rfl, content, rfl⟩ | ⟨rfl, rfl⟩)
  · exact fails content
  · exact closes

theorem wp_renameFile {source target : Bytes}
    (fails : (machine config).wp () (rest false) post (world.note false))
    (renames : ∀ old new node, config.locate source = some old →
      config.locate target = some new → world.files old = some node →
      (machine config).wp () (rest true) post { world with
        files := Function.update (Function.update world.files old none) new (some node) }) :
    (machine config).wp () (renameFile source target >>= rest) post world := by
  rintro renamed after (⟨rfl, rfl⟩ | ⟨rfl, old, new, node, source, target, present, rfl⟩)
  · exact fails
  · exact renames old new node source target present

theorem wp_unlinkFile (fails : (machine config).wp () (rest false) post (world.note false))
    (unlinks : ∀ place, config.locate path = some place →
      (machine config).wp () (rest true) post
        { world with files := Function.update world.files place none }) :
    (machine config).wp () (unlinkFile path >>= rest) post world := by
  rintro unlinked after (⟨rfl, rfl⟩ | ⟨rfl, place, located, rfl⟩)
  · exact fails
  · exact unlinks place located

theorem wp_sizes {minuend subtrahend : Nat} {rest : PUnit → Call α} (fits : subtrahend ≤ minuend)
    (holds : (machine config).wp () (rest ⟨⟩) post world) :
    (machine config).wp () (sizes minuend subtrahend >>= rest) post world := by
  rintro ⟨⟩ after rfl
  rw [decide_eq_false (Nat.not_lt.mpr fits), Bool.or_false]
  exact holds

end

/-! ## Reading -/

def Readable (config : Config) (content : Bytes) : Prop :=
  content.length ≤ config.maxWriteBytes ∧ workspaceText config content = true

/-- What reading comes to: the content of a file that can be edited, or a reason why not. -/
structure Reading (config : Config) (path : Bytes) (files : Bytes → Option FileNode)
    (result : ToolStatus × Bytes) (after : World) : Prop where
  unchanged : after.files = files
  sizes : after.wrapped = false
  read : result.1 = .ok → after.troubled = false ∧ ∃ place node,
    config.locate path = some place ∧ files place = some node ∧
      Readable config node.content ∧ result.2 = node.content
  refused : result.1 ≠ .ok → after.troubled = true ∨
    ∀ place node, config.locate path = some place → files place = some node →
      ¬Readable config node.content

/-- Nothing has happened yet that would keep the call from its end. -/
structure World.Calm (world : World) (files : Bytes → Option FileNode) : Prop where
  files : world.files = files
  untroubled : world.troubled = false
  sizes : world.wrapped = false

section

variable {config : Config} {files : Bytes → Option FileNode} {world : World}

/-- The loop reads the rest of a file behind the text so far. -/
structure LoopEnd (config : Config) (files : Bytes → Option FileNode) (content : Bytes)
    (result : ToolStatus × Bytes) (after : World) : Prop where
  unchanged : after.files = files
  sizes : after.wrapped = false
  read : result.1 = .ok → after.troubled = false ∧ Readable config content ∧ result.2 = content
  refused : result.1 ≠ .ok → after.troubled = true ∨ ¬Readable config content

theorem readLoop_wp {content text left : Bytes} {world : World} (whole : content = text ++ left)
    (short : text.length ≤ config.maxWriteBytes) (calm : world.Calm files)
    (opened : world.reader = some left) :
    (machine config).wp () (readLoop config text) (LoopEnd config files content) world := by
  have bounded := config.bounded
  rw [readLoop]
  refine wp_checked (fun status interrupted => ?_) ?_
  · exact ⟨calm.files, calm.sizes, fun ok => absurd ok interrupted,
      fun _ => .inl (note_false_troubled _)⟩
  · refine wp_readFile opened ?_ fun bytes more split _ last => ?_
    · exact ⟨calm.files, calm.sizes, fun ok => absurd ok error_ne_ok,
        fun _ => .inl (note_false_troubled _)⟩
    · by_cases none : bytes = []
      · subst none
        obtain rfl := last rfl
        obtain rfl : content = text := by rw [whole, split, List.append_nil, List.append_nil]
        simp only [dif_pos]
        refine ⟨calm.files, calm.sizes, fun ok => ⟨calm.untroubled, ⟨short, ?_⟩, rfl⟩, fun failed =>
          .inr fun readable => failed (if_pos readable.2)⟩
        by_contra invalid
        exact absurd ((if_neg invalid).symm.trans ok) error_ne_ok
      · simp only [dif_neg none]
        refine wp_sizes short ?_
        rw [sizeSub_eq (by omega) short]
        have longer : content.length = text.length + bytes.length + more.length := by
          rw [whole, split, List.length_append, List.length_append, Nat.add_assoc]
        split
        next large =>
          refine ⟨calm.files, calm.sizes, fun ok => absurd ok error_ne_ok,
            fun _ => .inr fun readable => ?_⟩
          have fits := readable.1
          omega
        next fits =>
          refine readLoop_wp ?_ ?_ ⟨calm.files, calm.untroubled, calm.sizes⟩ rfl
          · rw [whole, split, List.append_assoc]
          · rw [List.length_append]
            omega
termination_by left.length
decreasing_by
  have some_bytes : 0 < bytes.length := List.length_pos_of_ne_nil none
  rw [split, List.length_append]
  omega

theorem workspaceRead_wp (path : Bytes) (calm : world.Calm files) :
    (machine config).wp () (workspaceRead config path) (Reading config path files) world := by
  unfold workspaceRead
  refine wp_checked (fun status interrupted => ?_) ?_
  · exact ⟨calm.files, calm.sizes, fun ok => absurd ok interrupted,
      fun _ => .inl (note_false_troubled _)⟩
  · refine wp_openRead ?_ fun place node located present => ?_
    · exact ⟨calm.files, calm.sizes, fun ok => absurd ok error_ne_ok,
        fun _ => .inl (note_false_troubled _)⟩
    · rw [if_neg (by decide)]
      rw [calm.files] at present
      -- A file is at one place, so that what is wrong with this one is wrong with every one.
      have unreadable : ¬Readable config node.content → ∀ other (file : FileNode),
          config.locate path = some other → files other = some file →
          ¬Readable config file.content := by
        intro bad other file located' present'
        obtain rfl := Option.some.inj (located.symm.trans located')
        obtain rfl := Option.some.inj (present.symm.trans present')
        exact bad
      refine Machine.wp_bind (Machine.wp_mono (readLoop_wp (List.nil_append _).symm (Nat.zero_le _)
        ⟨calm.files, calm.untroubled, calm.sizes⟩ rfl) fun result after ended => ?_)
      refine wp_closeRead fun closed => ?_
      split
      next failed =>
        refine ⟨ended.unchanged, ended.sizes, fun ok => absurd ok failed, fun _ => ?_⟩
        rcases ended.refused failed with trouble | bad
        · exact .inl (note_troubled _ _ trouble)
        · exact .inr (unreadable bad)
      next fine =>
        obtain ⟨untroubled, readable, same⟩ := ended.read (not_not.mp fine)
        cases closed with
        | false =>
            exact ⟨ended.unchanged, ended.sizes, fun ok => absurd ok error_ne_ok,
              fun _ => .inl (note_false_troubled _)⟩
        | true =>
            rw [if_neg (by decide), note_true]
            refine wp_control fun status _ =>
              ⟨ended.unchanged, ended.sizes, fun ok => ?_, fun failed => ?_⟩
            · change status = .ok at ok
              subst ok
              exact ⟨by rw [beq_self_eq_true, note_true]; exact untroubled,
                place, node, located, present, readable, same⟩
            · rw [beq_eq_false_iff_ne.mpr failed]
              exact .inl (note_false_troubled _)

end

/-! ## Writing -/

structure Staging (files : Bytes → Option FileNode) (place : Bytes) (node : FileNode)
    (world : World) : Prop where
  files : world.files = Function.update files place (some node)
  sizes : world.wrapped = false

structure Writing (files : Bytes → Option FileNode) (place content : Bytes) (mode : Nat)
    (result : Option ToolStatus) (after : World) : Prop where
  staging : ∃ node, Staging files place node after ∧
    (result = some .ok → node = ⟨content, true, mode⟩)
  opened : after.writer = some place
  written : result = some .ok → after.troubled = false
  failed : result ≠ some .ok → after.troubled = true

theorem writeLoop_wp {config : Config} {files : Bytes → Option FileNode} {place content : Bytes}
    {mode : Nat} (small : content.length < 2 ^ 64) {offset : Nat} (inside : offset ≤ content.length)
    {world : World} (staging : Staging files place ⟨content.take offset, true, mode⟩ world)
    (untroubled : world.troubled = false) (opened : world.writer = some place) :
    (machine config).wp () (writeLoop content offset) (Writing files place content mode) world := by
  rw [writeLoop]
  split
  next more =>
    refine wp_sizes inside ?_
    refine wp_checked (fun status interrupted => ?_) ?_
    · refine ⟨⟨_, ⟨staging.files, staging.sizes⟩, fun ok => absurd (Option.some.inj ok) interrupted⟩,
        opened, fun ok => absurd (Option.some.inj ok) interrupted, fun _ => note_false_troubled _⟩
    · refine wp_writeFile (fun written wrong zero => ?_) fun written some_bytes short => ?_
      · rw [dif_pos (by omega)]
        exact ⟨⟨_, ⟨filled_files world wrong opened staging.files,
            (filled_wrapped world wrong).trans staging.sizes⟩, fun ok => absurd ok (by simp)⟩,
          (filled_writer world wrong).trans opened, fun ok => absurd ok (by simp),
          fun _ => note_false_troubled _⟩
      · rw [dif_neg (by omega)]
        rw [List.length_take, List.length_drop] at short
        refine writeLoop_wp small (by omega) ⟨?_, (filled_wrapped world _).trans staging.sizes⟩
          ((filled_troubled world _).trans untroubled) ((filled_writer world _).trans opened)
        rw [filled_files world _ opened staging.files]
        have further : content.take offset ++ ((content.drop offset).take
            (min (sizeSub content.length offset) ioChunk)).take (Int.toNat written) =
            content.take (offset + Int.toNat written) := by
          rw [List.take_take, Nat.min_eq_left (by omega), ← List.take_add]
        rw [further]
  next done =>
    rw [List.take_of_length_le (Nat.le_of_not_lt done)] at staging
    exact ⟨⟨_, staging, fun _ => rfl⟩, opened, fun _ => untroubled, fun failed => absurd rfl failed⟩
termination_by content.length - offset

end TurboAgent.Workspace
