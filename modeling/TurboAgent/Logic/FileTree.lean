import Mathlib

/-!
# Trees of files

Directories and files under one root, without links.  A path is resolved name by name, from the
root or from the working directory: `.` stays in place, `..` goes up, and every name before the
last one must be that of a directory.  Names and paths have a greatest length.

A call fails with the error that its path meets first.  Rights, space and failing devices are
left out, and so is the slash at the end of a path to a file.
-/

namespace TurboAgent.Logic.FileTree

/-- Names and paths are byte strings. -/
abbrev Name := List UInt8

/-- The byte between the names of a path. -/
def slash : UInt8 := 47

/-- The name of the directory itself. -/
def dot : Name := [46]

/-- The name of the directory above. -/
def dotdot : Name := [46, 46]

/-- A place in the tree: the names on the way to it, from the innermost one outwards. -/
abbrev Place := List Name

/-- What can be at a place. -/
inductive Node (C : Type) where
  | directory
  | file (content : C)
  deriving DecidableEq

/-- Why a call fails. -/
inductive Errno where
  | eexist
  | eisdir
  | enametoolong
  | enoent
  | enotdir
  | enotempty
  deriving DecidableEq

/-- What the calls depend on besides the tree.  The length of a path counts its terminator. -/
structure System where
  (nameMax pathMax : Nat)
  workingDirectory : Place
  deriving DecidableEq

/-- What is below the root. -/
structure Disk (C : Type) where
  nodes : AList fun _ : Place => Node C

variable {C : Type}

namespace Disk

/-- What is at a place.  The root is a directory. -/
def node (disk : Disk C) (place : Place) : Option (Node C) :=
  if place = [] then some .directory else disk.nodes.lookup place

/-- Puts a node at a place. -/
def set (disk : Disk C) (place : Place) (node : Node C) : Disk C :=
  ⟨disk.nodes.insert place node⟩

/-- Leaves nothing at a place. -/
def erase (disk : Disk C) (place : Place) : Disk C :=
  ⟨disk.nodes.erase place⟩

/-- The names in a directory. -/
def entries (disk : Disk C) (place : Place) : List Name :=
  disk.nodes.keys.filterMap fun key =>
    match key with
    | [] => none
    | name :: parent => if parent = place then some name else none

end Disk

/-- The place that a name stands for in a directory. -/
def step (place : Place) (name : Name) : Place :=
  if name = dot then place else if name = dotdot then place.tail else name :: place

/-- The names of a path. -/
def names (path : Name) : List Name :=
  (path.splitOnP (· == slash)).filter (· ≠ [])

/-- A name that stands for an entry of a directory. -/
structure IsName (name : Name) : Prop where
  nonempty : name ≠ []
  plain : slash ∉ name
  notDot : name ≠ dot
  notDotdot : name ≠ dotdot

section Calls

variable (system : System)

/-- Where the resolution of a path starts. -/
def start (path : Name) : Place :=
  if path.head? = some slash then [] else system.workingDirectory

namespace Disk

/-- The directory that a sequence of names leads to. -/
def walk (disk : Disk C) : Place → List Name → Except Errno Place
  | place, [] => .ok place
  | place, name :: rest =>
      if system.nameMax < name.length then .error .enametoolong
      else
        match disk.node (step place name) with
        | none => .error .enoent
        | some (.file _) => .error .enotdir
        | some .directory => disk.walk (step place name) rest

/-- The place that a path names, whether something is there or not. -/
def locate (disk : Disk C) (path : Name) : Except Errno Place :=
  if path = [] then .error .enoent
  else if system.pathMax ≤ path.length then .error .enametoolong
  else
    match (names path).getLast? with
    | none => .ok (start system path)
    | some last =>
        match disk.walk system (start system path) (names path).dropLast with
        | .error error => .error error
        | .ok parent =>
            if system.nameMax < last.length then .error .enametoolong
            else .ok (step parent last)

/-- `mkdir`. -/
def mkdir (disk : Disk C) (path : Name) : Except Errno (Disk C) :=
  match disk.locate system path with
  | .error error => .error error
  | .ok place =>
      match disk.node place with
      | some _ => .error .eexist
      | none => .ok (disk.set place .directory)

/-- `open` for writing, with what is then written. -/
def write (disk : Disk C) (path : Name) (content : C) : Except Errno (Disk C) :=
  match disk.locate system path with
  | .error error => .error error
  | .ok place =>
      match disk.node place with
      | some .directory => .error .eisdir
      | _ => .ok (disk.set place (.file content))

/-- `open` for reading, with what is then read.  A directory cannot be read. -/
def read (disk : Disk C) (path : Name) : Except Errno C :=
  match disk.locate system path with
  | .error error => .error error
  | .ok place =>
      match disk.node place with
      | none => .error .enoent
      | some .directory => .error .eisdir
      | some (.file content) => .ok content

/-- `opendir` with the names that `readdir` gives, which come in any order. -/
def readDirectory (disk : Disk C) (path : Name) : Except Errno (List Name) :=
  match disk.locate system path with
  | .error error => .error error
  | .ok place =>
      match disk.node place with
      | none => .error .enoent
      | some (.file _) => .error .enotdir
      | some .directory => .ok (dot :: dotdot :: disk.entries place)

/-- `remove`.  A directory must be empty, and the root is never removed. -/
def remove (disk : Disk C) (path : Name) : Except Errno (Disk C) :=
  match disk.locate system path with
  | .error error => .error error
  | .ok place =>
      match disk.node place with
      | none => .error .enoent
      | some (.file _) => .ok (disk.erase place)
      | some .directory =>
          if place = [] ∨ disk.entries place ≠ [] then .error .enotempty
          else .ok (disk.erase place)

/-- The path names a directory. -/
structure Resolves (disk : Disk C) (path : Name) (place : Place) : Prop where
  nonempty : path ≠ []
  walks : disk.walk system (start system path) (names path) = .ok place

end Disk

end Calls

/-- Directories stay directories. -/
def Disk.Grows (disk after : Disk C) : Prop :=
  ∀ place, disk.node place = some .directory → after.node place = some .directory

/-! ## Places -/

namespace Disk

variable {disk after : Disk C} {place other : Place} {node : Node C}

theorem ne_nil_of_node (absent : disk.node place ≠ some .directory) : place ≠ [] := by
  rintro rfl
  exact absent rfl

theorem node_set (named : place ≠ []) (other : Place) :
    (disk.set place node).node other = if other = place then some node else disk.node other := by
  unfold Disk.node Disk.set
  by_cases same : other = place
  · rw [same, if_neg named, if_pos rfl]
    exact AList.lookup_insert _
  · rw [if_neg same]
    dsimp only
    rw [AList.lookup_insert_ne same]

theorem node_erase (named : place ≠ []) (other : Place) :
    (disk.erase place).node other = if other = place then none else disk.node other := by
  unfold Disk.node Disk.erase
  by_cases same : other = place
  · rw [same, if_neg named, if_pos rfl]
    exact AList.lookup_erase _ _
  · rw [if_neg same]
    dsimp only
    rw [AList.lookup_erase_ne same]

theorem mem_entries {name : Name} :
    name ∈ disk.entries place ↔ ∃ node, disk.node (name :: place) = some node := by
  unfold Disk.entries Disk.node
  rw [List.mem_filterMap, if_neg (List.cons_ne_nil _ _), ← Option.isSome_iff_exists,
    AList.lookup_isSome, AList.mem_keys]
  constructor
  · rintro ⟨key, member, selected⟩
    cases key with
    | nil => cases selected
    | cons first parent =>
        dsimp only at selected
        split at selected
        next here =>
          cases selected
          rwa [← here]
        next => cases selected
  · intro member
    exact ⟨_, member, if_pos rfl⟩

theorem entries_nodup (disk : Disk C) (place : Place) : (disk.entries place).Nodup := by
  apply List.Nodup.filterMap _ disk.nodes.keys_nodup
  intro left right name fromLeft fromRight
  cases left with
  | nil => cases fromLeft
  | cons leftName leftParent =>
      cases right with
      | nil => cases fromRight
      | cons rightName rightParent =>
          dsimp only at fromLeft fromRight
          split at fromLeft
          next leftHere =>
            split at fromRight
            next rightHere =>
              rw [Option.mem_some_iff] at fromLeft fromRight
              rw [fromLeft, fromRight, leftHere, rightHere]
            next => cases fromRight
          next => cases fromLeft

theorem Grows.refl (disk : Disk C) : disk.Grows disk := fun _ directory => directory

theorem grows_set (absent : disk.node place ≠ some .directory) (node : Node C) :
    disk.Grows (disk.set place node) := by
  intro other directory
  have elsewhere : other ≠ place := by
    rintro rfl
    exact absent directory
  rw [node_set (ne_nil_of_node absent), if_neg elsewhere, directory]

theorem grows_erase (absent : disk.node place ≠ some .directory) :
    disk.Grows (disk.erase place) := by
  intro other directory
  have elsewhere : other ≠ place := by
    rintro rfl
    exact absent directory
  rw [node_erase (ne_nil_of_node absent), if_neg elsewhere, directory]

end Disk

/-! ## Paths -/

theorem IsName.step {name : Name} (isName : IsName name) (place : Place) :
    step place name = name :: place := by
  rw [FileTree.step, if_neg isName.notDot, if_neg isName.notDotdot]

theorem names_append (left right : Name) :
    names (left ++ slash :: right) = names left ++ names right := by
  simp [names, List.splitOnP_append_cons]

theorem IsName.names {name : Name} (isName : IsName name) : names name = [name] := by
  have plain : ∀ byte ∈ name, (byte == slash) = false := by
    intro byte member
    rw [beq_eq_false_iff_ne]
    rintro rfl
    exact isName.plain member
  rw [FileTree.names, List.splitOnP_eq_singleton plain]
  simp [isName.nonempty]

/-- A path that goes on with one more name. -/
def below (path name : Name) : Name :=
  path ++ slash :: name

theorem names_below {name : Name} (isName : IsName name) (path : Name) :
    names (below path name) = names path ++ [name] := by
  rw [below, names_append, isName.names]

section Resolution

variable {system : System} {disk after : Disk C} {path name : Name} {place : Place}

theorem start_below (nonempty : path ≠ []) (name : Name) :
    start system (below path name) = start system path := by
  obtain ⟨byte, rest, rfl⟩ := List.exists_cons_of_ne_nil nonempty
  rfl

theorem below_ne_nil (path name : Name) : below path name ≠ [] := by
  simp [below]

namespace Disk

theorem walk_append (disk : Disk C) (place : Place) (before later : List Name) :
    disk.walk system place (before ++ later) =
      match disk.walk system place before with
      | .error error => .error error
      | .ok between => disk.walk system between later := by
  induction before generalizing place with
  | nil => rfl
  | cons name before ih =>
      rw [List.cons_append, walk, walk]
      split
      next => rfl
      cases disk.node (step place name) with
      | none => rfl
      | some node =>
          cases node with
          | file content => rfl
          | directory => exact ih _

/-- A walk that succeeds still does so when the disk has grown. -/
theorem Grows.walk (grows : disk.Grows after) {sequence : List Name} {origin : Place}
    (walks : disk.walk system origin sequence = .ok place) :
    after.walk system origin sequence = .ok place := by
  induction sequence generalizing origin with
  | nil => exact walks
  | cons name sequence ih =>
      rw [Disk.walk] at walks ⊢
      split at walks
      next => cases walks
      next short =>
        rw [if_neg short]
        cases here : disk.node (step origin name) with
        | none =>
            rw [here] at walks
            cases walks
        | some node =>
            cases node with
            | file content =>
                rw [here] at walks
                cases walks
            | directory =>
                rw [here] at walks
                rw [grows _ here]
                exact ih walks

theorem Resolves.grows (resolves : disk.Resolves system path place) (grows : disk.Grows after) :
    after.Resolves system path place :=
  ⟨resolves.nonempty, grows.walk resolves.walks⟩

/-- An entry of a directory that a path names. -/
theorem Resolves.locate (resolves : disk.Resolves system path place) (isName : IsName name)
    (shortName : name.length ≤ system.nameMax)
    (shortPath : (below path name).length < system.pathMax) :
    disk.locate system (below path name) = .ok (name :: place) := by
  rw [Disk.locate, if_neg (below_ne_nil path name), if_neg (Nat.not_le.mpr shortPath),
    names_below isName, List.getLast?_concat, List.dropLast_concat,
    start_below resolves.nonempty, resolves.walks]
  dsimp only
  rw [if_neg (Nat.not_lt.mpr shortName), isName.step]

/-- A directory in a directory that a path names. -/
theorem Resolves.below (resolves : disk.Resolves system path place) (isName : IsName name)
    (shortName : name.length ≤ system.nameMax)
    (directory : disk.node (name :: place) = some .directory) :
    disk.Resolves system (below path name) (name :: place) := by
  refine ⟨below_ne_nil path name, ?_⟩
  rw [names_below isName, start_below resolves.nonempty, walk_append, resolves.walks]
  dsimp only
  rw [Disk.walk, if_neg (Nat.not_lt.mpr shortName), isName.step, directory]
  rfl

/-- Below a name that nothing has there is no place. -/
theorem Resolves.locate_absent {last : Name} (resolves : disk.Resolves system path place)
    (isName : IsName name) (isLast : IsName last) (shortName : name.length ≤ system.nameMax)
    (shortPath : (FileTree.below (FileTree.below path name) last).length < system.pathMax)
    (absent : disk.node (name :: place) = none) :
    disk.locate system (FileTree.below (FileTree.below path name) last) = .error .enoent := by
  rw [Disk.locate, if_neg (below_ne_nil _ _), if_neg (Nat.not_le.mpr shortPath),
    names_below isLast, List.getLast?_concat, List.dropLast_concat,
    start_below (below_ne_nil _ _), start_below resolves.nonempty, names_below isName,
    walk_append, resolves.walks]
  dsimp only
  rw [Disk.walk, if_neg (Nat.not_lt.mpr shortName), isName.step, absent]

/-- The path of a place where a directory is. -/
theorem resolves_of_locate (located : disk.locate system path = .ok place)
    (directory : disk.node place = some .directory) : disk.Resolves system path place := by
  rw [Disk.locate] at located
  split at located
  next => cases located
  next nonempty =>
    refine ⟨nonempty, ?_⟩
    split at located
    next => cases located
    cases last : (FileTree.names path).getLast? with
    | none =>
        rw [last] at located
        cases located
        rw [List.getLast?_eq_none_iff.mp last]
        rfl
    | some name =>
        rw [last] at located
        dsimp only at located
        have split := List.dropLast_append_getLast? name last
        rw [← split, walk_append]
        cases parent : disk.walk system (start system path) (FileTree.names path).dropLast with
        | error error =>
            rw [parent] at located
            cases located
        | ok parent =>
            rw [parent] at located
            dsimp only at located ⊢
            split at located
            next => cases located
            next short =>
              cases located
              rw [Disk.walk, if_neg short, directory]
              rfl

/-- A place that is found is still found when the disk has grown. -/
theorem Grows.locate (grows : disk.Grows after) (located : disk.locate system path = .ok place) :
    after.locate system path = .ok place := by
  rw [Disk.locate] at located ⊢
  split at located
  next => cases located
  next nonempty =>
    rw [if_neg nonempty]
    split at located
    next => cases located
    next short =>
      rw [if_neg short]
      cases last : (FileTree.names path).getLast? with
      | none =>
          rw [last] at located
          exact located
      | some name =>
          rw [last] at located
          dsimp only at located ⊢
          cases parent : disk.walk system (start system path) (FileTree.names path).dropLast with
          | error error =>
              rw [parent] at located
              cases located
          | ok parent =>
              rw [parent] at located
              rw [grows.walk parent]
              exact located

/-- The place of a directory that a path names. -/
theorem Resolves.unique {other : Place} (resolves : disk.Resolves system path place)
    (located : disk.locate system path = .ok other) : other = place := by
  have walks := resolves.walks
  rw [Disk.locate, if_neg resolves.nonempty] at located
  split at located
  next => cases located
  cases last : (FileTree.names path).getLast? with
  | none =>
      rw [last] at located
      rw [List.getLast?_eq_none_iff.mp last] at walks
      cases located
      cases walks
      rfl
  | some name =>
      rw [last] at located
      rw [← List.dropLast_append_getLast? name last, walk_append] at walks
      cases parent : disk.walk system (start system path) (FileTree.names path).dropLast with
      | error error =>
          rw [parent] at walks
          cases walks
      | ok parent =>
          rw [parent] at located walks
          dsimp only at located walks
          rw [Disk.walk] at walks
          split at located
          next => cases located
          next short =>
            cases located
            rw [if_neg short] at walks
            split at walks
            next => cases walks
            next => cases walks
            next =>
              cases walks
              rfl

/-- Only below a directory is there a place for a further name. -/
theorem resolves_of_locate_below (isName : IsName name) (nonempty : path ≠ [])
    (located : disk.locate system (FileTree.below path name) = .ok place) :
    ∃ parent, disk.Resolves system path parent ∧ place = name :: parent ∧
      name.length ≤ system.nameMax := by
  rw [Disk.locate, if_neg (below_ne_nil path name)] at located
  split at located
  next => cases located
  rw [names_below isName, List.getLast?_concat, List.dropLast_concat,
    start_below nonempty] at located
  dsimp only at located
  cases walks : disk.walk system (start system path) (FileTree.names path) with
  | error error =>
      rw [walks] at located
      cases located
  | ok parent =>
      rw [walks] at located
      dsimp only at located
      split at located
      next => cases located
      next short =>
        cases located
        exact ⟨parent, ⟨nonempty, walks⟩, isName.step parent, Nat.not_lt.mp short⟩

end Disk

end Resolution

/-! ## Directories that are made -/

section Directories

variable {system : System} {disk after : Disk C} {path : Name}

theorem Disk.walk_ne_eexist (place : Place) (sequence : List Name) :
    disk.walk system place sequence ≠ .error .eexist := by
  induction sequence generalizing place with
  | nil => simp [Disk.walk]
  | cons name sequence ih =>
      rw [Disk.walk]
      split
      next => simp
      cases disk.node (step place name) with
      | none => simp
      | some node =>
          cases node with
          | file content => simp
          | directory => exact ih _

theorem Disk.locate_ne_eexist : disk.locate system path ≠ .error .eexist := by
  rw [Disk.locate]
  split
  next => simp
  split
  next => simp
  cases (names path).getLast? with
  | none => simp
  | some last =>
      dsimp only
      cases walks : disk.walk system (start system path) (names path).dropLast with
      | error error =>
          intro isExist
          rw [Except.error.injEq] at isExist
          exact Disk.walk_ne_eexist _ _ (isExist ▸ walks)
      | ok parent =>
          dsimp only
          split <;> simp

/-- What is there after `mkdir` has succeeded or has found its place taken. -/
theorem Disk.mkdir_cases (made : disk.mkdir system path = .ok after ∨
      disk.mkdir system path = .error .eexist ∧ after = disk) :
    ∃ place, disk.locate system path = .ok place ∧ disk.Grows after ∧
      ∀ other, after.node other = if other = place ∧ disk.node place = none then
        some .directory else disk.node other := by
  unfold Disk.mkdir at made
  cases located : disk.locate system path with
  | error error =>
      rw [located] at made
      rcases made with made | ⟨failed, -⟩
      · cases made
      · cases failed
        exact absurd located Disk.locate_ne_eexist
  | ok place =>
      rw [located] at made
      refine ⟨place, rfl, ?_⟩
      cases taken : disk.node place with
      | none =>
          dsimp only at made
          rw [taken] at made
          rcases made with made | ⟨failed, -⟩
          · cases made
            have absent : disk.node place ≠ some .directory := by simp [taken]
            refine ⟨Disk.grows_set absent _, fun other => ?_⟩
            rw [Disk.node_set (Disk.ne_nil_of_node absent)]
            simp
          · cases failed
      | some node =>
          dsimp only at made
          rw [taken] at made
          rcases made with made | ⟨-, rfl⟩
          · cases made
          · exact ⟨Disk.Grows.refl _, fun other => by simp⟩

end Directories

end TurboAgent.Logic.FileTree
