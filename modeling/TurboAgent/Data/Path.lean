import Mathlib

/-!
# Lexical paths

A path text is a sequence of segments between separators; both slashes separate.
Its lexical resolution drops `.` and lets `..` cancel the name before it.  What is
left of a relative path is a number of steps up from an unknown directory and the
names below; an absolute path has no steps up, since the root is its own parent.

A location lies below another one when it does so from every directory the paths may
start in, which `Location.Below` decides on the resolved forms.
-/

namespace TurboAgent.Path

def isSeparator (ch : Char) : Bool :=
  ch == '/' || ch == '\\'

def components (text : List Char) : List (List Char) :=
  (text.splitOnP isSeparator).filter (· ≠ [])

def parent : List Char := ['.', '.']

/-- A segment that stays in a resolved path as a name. -/
structure IsName (segment : List Char) : Prop where
  nonempty : segment ≠ []
  plain : ∀ ch ∈ segment, isSeparator ch = false
  notParent : segment ≠ parent

structure Location where
  absolute : Bool
  up : Nat
  names : List (List Char)
  deriving DecidableEq

namespace Location

def step (location : Location) (segment : List Char) : Location :=
  if segment = ['.'] then location
  else if segment = parent then
    if location.names ≠ [] then { location with names := location.names.dropLast }
    else if location.absolute then location
    else { location with up := location.up + 1 }
  else { location with names := location.names ++ [segment] }

/-- Whether a location is the given root or lies below it, wherever the paths
start. -/
def Below (location root : Location) : Prop :=
  location.absolute = root.absolute ∧
  ((location.up = root.up ∧ root.names <+: location.names) ∨
    (location.up < root.up ∧ root.names = []))

instance (location root : Location) : Decidable (Below location root) :=
  inferInstanceAs (Decidable (_ ∧ _))

structure WellFormed (location : Location) : Prop where
  names : ∀ name ∈ location.names, IsName name
  rooted : location.absolute = true → location.up = 0

def segments (location : Location) : List (List Char) :=
  List.replicate location.up parent ++ location.names

end Location

def resolve (text : List Char) : Location :=
  (components text).foldl Location.step ⟨text.head?.any isSeparator, 0, []⟩

def joinSegments : List (List Char) → List Char
  | [] => []
  | [segment] => segment
  | segment :: next :: rest => segment ++ '/' :: joinSegments (next :: rest)

def Location.render (location : Location) : List Char :=
  (if location.absolute then ['/'] else []) ++ joinSegments location.segments

/-! ## Segments of a text -/

theorem splitOnP_plain (text : List Char) :
    ∀ segment ∈ text.splitOnP isSeparator, ∀ ch ∈ segment, isSeparator ch = false := by
  induction text with
  | nil => simp
  | cons first text ih =>
      rw [List.splitOnP_cons_eq_if_modifyHead]
      split
      next =>
        intro segment member
        rcases List.mem_cons.mp member with rfl | member
        · simp
        · exact ih segment member
      next ordinary =>
        cases pieces : text.splitOnP isSeparator with
        | nil => simp
        | cons head tail =>
            rw [pieces] at ih
            intro segment member
            rcases List.mem_cons.mp member with rfl | member
            · intro ch found
              rcases List.mem_cons.mp found with rfl | found
              · simpa using ordinary
              · exact ih head List.mem_cons_self ch found
            · exact ih segment (List.mem_cons_of_mem _ member)

variable {text : List Char}

theorem mem_components {segment : List Char} (member : segment ∈ components text) :
    segment ≠ [] ∧ ∀ ch ∈ segment, isSeparator ch = false := by
  obtain ⟨inside, kept⟩ := List.mem_filter.mp member
  exact ⟨by simpa using kept, splitOnP_plain text segment inside⟩

theorem components_separator {ch : Char} (separates : isSeparator ch = true) :
    components (ch :: text) = components text := by
  simp [components, List.splitOnP_cons_eq_if_modifyHead, separates]

theorem components_dropSeparators (text : List Char) :
    components (text.dropWhile isSeparator) = components text := by
  induction text with
  | nil => rfl
  | cons ch text ih =>
      cases separates : isSeparator ch with
      | true =>
          rw [List.dropWhile_cons_of_pos separates, ih, components_separator separates]
      | false => rw [List.dropWhile_cons_of_neg (by simp [separates])]

theorem components_first (text : List Char) (starts : text.head?.any isSeparator = false)
    (nonempty : text ≠ []) :
    components text = text.takeWhile (!isSeparator ·) ::
      components (text.dropWhile (!isSeparator ·)) := by
  have plain : ∀ ch ∈ text.takeWhile (!isSeparator ·), isSeparator ch = false := by
    intro ch member
    simpa using List.mem_takeWhile_imp member
  have first : text.takeWhile (!isSeparator ·) ≠ [] := by
    cases text with
    | nil => exact absurd rfl nonempty
    | cons ch text =>
        simp only [List.head?_cons, Option.any_some] at starts
        simp [starts]
  conv_lhs => rw [← List.takeWhile_append_dropWhile (p := (!isSeparator ·)) (l := text)]
  cases rest : text.dropWhile (!isSeparator ·) with
  | nil =>
      simp only [List.append_nil]
      rw [components, List.splitOnP_eq_singleton plain]
      simp [first, components]
  | cons sep tail =>
      have separates : isSeparator sep = true := by
        have head := List.head?_dropWhile_not (!isSeparator ·) text
        simpa [rest] using head
      rw [components_separator separates, components,
        List.splitOnP_append_cons_of_forall_mem plain sep separates]
      simp [first, components]

/-! ## Resolved locations -/

namespace Location

@[simp] theorem step_absolute (location : Location) (segment : List Char) :
    (location.step segment).absolute = location.absolute := by
  unfold Location.step
  split
  next => rfl
  split
  next =>
    split
    next => rfl
    next => split <;> rfl
  next => rfl

theorem fold_absolute (segments : List (List Char)) (location : Location) :
    (segments.foldl Location.step location).absolute = location.absolute := by
  induction segments generalizing location with
  | nil => rfl
  | cons segment segments ih => rw [List.foldl_cons, ih, step_absolute]

theorem WellFormed.step {location : Location} {segment : List Char}
    (formed : location.WellFormed) (nonempty : segment ≠ [])
    (plain : ∀ ch ∈ segment, isSeparator ch = false) :
    (location.step segment).WellFormed := by
  unfold Location.step
  split
  next => exact formed
  split
  next =>
    split
    next =>
      refine ⟨?_, formed.rooted⟩
      intro name member
      exact formed.names name (List.dropLast_subset _ member)
    next =>
      split
      next => exact formed
      next relative => exact ⟨formed.names, fun absolute => absurd absolute relative⟩
  next notParent =>
    refine ⟨?_, formed.rooted⟩
    exact List.forall_mem_append.mpr ⟨formed.names,
        List.forall_mem_singleton.mpr ⟨nonempty, plain, notParent⟩⟩

theorem WellFormed.fold {segments : List (List Char)}
    (valid : ∀ segment ∈ segments, segment ≠ [] ∧ ∀ ch ∈ segment, isSeparator ch = false)
    {location : Location} (formed : location.WellFormed) :
    (segments.foldl Location.step location).WellFormed := by
  induction segments generalizing location with
  | nil => exact formed
  | cons segment segments ih =>
      have head := valid segment List.mem_cons_self
      exact ih (fun other member => valid other (List.mem_cons_of_mem _ member))
        (formed.step head.1 head.2)

theorem parent_plain : parent ≠ [] ∧ ∀ ch ∈ parent, isSeparator ch = false := by
  constructor
  · simp [parent]
  · intro ch member
    have dot : ch = '.' := by simpa [parent] using member
    rw [dot]
    rfl

theorem segments_valid {location : Location} (formed : location.WellFormed) :
    ∀ segment ∈ location.segments,
      segment ≠ [] ∧ ∀ ch ∈ segment, isSeparator ch = false := by
  intro segment member
  rcases List.mem_append.mp member with up | named
  · rw [List.eq_of_mem_replicate up]
    exact parent_plain
  · have name := formed.names segment named
    exact ⟨name.nonempty, name.plain⟩

end Location

theorem resolve_wellFormed (text : List Char) : (resolve text).WellFormed := by
  apply Location.WellFormed.fold fun _ => mem_components
  constructor
  · intro name member
    cases member
  · intro _
    rfl

theorem replicate_parent_prefix {up up' : Nat} {first : List Char}
    {rest names : List (List Char)} (firstNamed : first ≠ parent)
    (named : ∀ name ∈ names, name ≠ parent)
    (continued : List.replicate up parent ++ first :: rest <+:
      List.replicate up' parent ++ names) :
    up' = up ∧ first :: rest <+: names := by
  induction up generalizing up' with
  | zero =>
      cases up' with
      | zero => exact ⟨rfl, by simpa using continued⟩
      | succ up' =>
          simp only [List.replicate_zero, List.nil_append, List.replicate_succ,
            List.cons_append, List.cons_prefix_cons] at continued
          exact absurd continued.1 firstNamed
  | succ up ih =>
      cases up' with
      | zero =>
          simp only [List.replicate_succ, List.replicate_zero, List.nil_append,
            List.cons_append] at continued
          have member := continued.subset List.mem_cons_self
          exact absurd rfl (named parent member)
      | succ up' =>
          simp only [List.replicate_succ, List.cons_append, List.cons_prefix_cons,
            true_and] at continued
          obtain ⟨same, tail⟩ := ih continued
          exact ⟨by rw [same], tail⟩

variable {location : Location}

/-- Below a root with a name, the segments of the location continue those of the
root. -/
theorem below_iff_segments {root : Location} (formed : location.WellFormed)
    (formedRoot : root.WellFormed) (named : root.names ≠ []) :
    location.Below root ↔
      location.absolute = root.absolute ∧ root.segments <+: location.segments := by
  obtain ⟨first, rest, names⟩ := List.exists_cons_of_ne_nil named
  have firstName := formedRoot.names first (by simp [names])
  constructor
  · rintro ⟨absolute, ⟨up, tail⟩ | ⟨_, unnamed⟩⟩
    · refine ⟨absolute, ?_⟩
      rw [Location.segments, Location.segments, up]
      exact (List.prefix_append_right_inj _).mpr tail
    · exact absurd unnamed named
  · rintro ⟨absolute, continued⟩
    rw [Location.segments, Location.segments, names] at continued
    refine ⟨absolute, .inl ?_⟩
    rw [names]
    exact replicate_parent_prefix firstName.notParent
      (fun name member => (formed.names name member).notParent) continued

/-! ## Text of a location -/

/-- The part of a joined text after its first segment. -/
def joinRest (segments : List (List Char)) : List Char :=
  if segments = [] then [] else '/' :: joinSegments segments

theorem joinSegments_cons (segment : List Char) (segments : List (List Char)) :
    joinSegments (segment :: segments) = segment ++ joinRest segments := by
  cases segments with
  | nil => simp [joinSegments, joinRest]
  | cons next rest => simp [joinSegments, joinRest]

theorem joinSegments_concat (segments : List (List Char)) (last : List Char) :
    joinSegments (segments ++ [last]) =
      if segments = [] then last else joinSegments segments ++ '/' :: last := by
  induction segments with
  | nil => rfl
  | cons segment segments ih =>
      rw [List.cons_append, joinSegments_cons, joinSegments_cons, joinRest, joinRest, ih]
      cases segments with
      | nil => simp
      | cons next rest => simp

/-- What may follow a segment in a joined text. -/
def Boundary (text : List Char) : Prop :=
  text = [] ∨ text.head? = some '/'

theorem joinRest_boundary (segments : List (List Char)) : Boundary (joinRest segments) := by
  unfold joinRest
  split
  next => exact .inl rfl
  next => exact .inr rfl

theorem segment_unique {left right leftRest rightRest : List Char}
    (leftPlain : ∀ ch ∈ left, ch ≠ '/') (rightPlain : ∀ ch ∈ right, ch ≠ '/')
    (leftBoundary : Boundary leftRest) (rightBoundary : Boundary rightRest)
    (same : left ++ leftRest = right ++ rightRest) :
    left = right ∧ leftRest = rightRest := by
  induction left generalizing right with
  | nil =>
      cases right with
      | nil => exact ⟨rfl, same⟩
      | cons ch right =>
          rw [List.nil_append] at same
          subst same
          rcases leftBoundary with empty | slash
          · cases empty
          · have := rightPlain ch List.mem_cons_self
            exact absurd (Option.some.inj slash) this
  | cons ch left ih =>
      cases right with
      | nil =>
          rw [List.nil_append] at same
          subst same
          rcases rightBoundary with empty | slash
          · cases empty
          · have := leftPlain ch List.mem_cons_self
            exact absurd (Option.some.inj slash) this
      | cons ch' right =>
          rw [List.cons_append, List.cons_append] at same
          obtain ⟨head, tail⟩ := List.cons.inj same
          obtain ⟨equal, rest⟩ := ih
            (fun other member => leftPlain other (List.mem_cons_of_mem _ member))
            (fun other member => rightPlain other (List.mem_cons_of_mem _ member)) tail
          exact ⟨by rw [head, equal], rest⟩

/-- Segments of which none is empty or holds a slash. -/
def PlainSegments (segments : List (List Char)) : Prop :=
  ∀ segment ∈ segments, segment ≠ [] ∧ ∀ ch ∈ segment, ch ≠ '/'

variable {segments : List (List Char)}

/-- Continuing a text at a segment boundary is continuing the list of segments. -/
theorem joinSegments_prefix_iff {root : List (List Char)} (nonempty : root ≠ [])
    (plainRoot : PlainSegments root) (plain : PlainSegments segments) :
    (∃ rest, joinSegments segments = joinSegments root ++ rest ∧ Boundary rest) ↔
      root <+: segments := by
  induction root generalizing segments with
  | nil => exact absurd rfl nonempty
  | cons first root ih =>
      have firstPlain := plainRoot first List.mem_cons_self
      cases segments with
      | nil =>
          constructor
          · rintro ⟨rest, same, _⟩
            rw [joinSegments_cons] at same
            simp only [joinSegments, List.append_assoc] at same
            exact absurd (List.append_eq_nil_iff.mp same.symm).1 firstPlain.1
          · intro impossible
            cases List.prefix_nil.mp impossible
      | cons segment segments =>
          have segmentPlain := plain segment List.mem_cons_self
          have tailPlain : PlainSegments segments :=
            fun other member => plain other (List.mem_cons_of_mem _ member)
          have tailPlainRoot : PlainSegments root :=
            fun other member => plainRoot other (List.mem_cons_of_mem _ member)
          rw [joinSegments_cons, joinSegments_cons, List.cons_prefix_cons]
          constructor
          · rintro ⟨rest, same, boundary⟩
            rw [List.append_assoc] at same
            have rootBoundary : Boundary (joinRest root ++ rest) := by
              unfold joinRest
              split
              next => exact boundary
              next => exact .inr rfl
            obtain ⟨equal, tail⟩ := segment_unique segmentPlain.2 firstPlain.2
              (joinRest_boundary segments) rootBoundary same
            refine ⟨equal.symm, ?_⟩
            cases root with
            | nil => exact List.nil_prefix
            | cons next root =>
                cases segments with
                | nil => simp [joinRest] at tail
                | cons segment segments =>
                    simp only [joinRest, reduceCtorEq, if_false, List.cons_append,
                      List.cons.injEq, true_and] at tail
                    exact (ih (by simp) tailPlainRoot tailPlain).mp ⟨rest, tail, boundary⟩
          · rintro ⟨rfl, tail⟩
            cases root with
            | nil =>
                refine ⟨joinRest segments, ?_, joinRest_boundary segments⟩
                simp [joinRest]
            | cons next root =>
                obtain ⟨rest, same, boundary⟩ :=
                  (ih (by simp) tailPlainRoot tailPlain).mpr tail
                refine ⟨rest, ?_, boundary⟩
                cases segments with
                | nil => cases List.prefix_nil.mp tail
                | cons segment segments => simp [joinRest, same]

theorem joinSegments_ne_nil (nonempty : segments ≠ []) (plain : PlainSegments segments) :
    joinSegments segments ≠ [] := by
  obtain ⟨segment, rest, rfl⟩ := List.exists_cons_of_ne_nil nonempty
  have first := (plain segment List.mem_cons_self).1
  rw [joinSegments_cons]
  simp [first]

theorem joinSegments_head (plain : PlainSegments segments) :
    (joinSegments segments).head? ≠ some '/' := by
  cases segments with
  | nil => simp [joinSegments]
  | cons segment segments =>
      obtain ⟨nonempty, noSlash⟩ := plain segment List.mem_cons_self
      obtain ⟨ch, rest, rfl⟩ := List.exists_cons_of_ne_nil nonempty
      rw [joinSegments_cons]
      simpa using noSlash ch List.mem_cons_self

theorem Location.WellFormed.plainSegments (formed : location.WellFormed) :
    PlainSegments location.segments := by
  intro segment member
  obtain ⟨nonempty, plain⟩ := Location.segments_valid formed segment member
  refine ⟨nonempty, ?_⟩
  intro ch found slash
  have ordinary := plain ch found
  rw [slash] at ordinary
  exact absurd ordinary (by decide)

/-- A text comparison decides whether a location is below a root that has a name. -/
theorem render_prefix_iff {root : Location} (formed : location.WellFormed)
    (formedRoot : root.WellFormed) (named : root.names ≠ []) :
    (∃ rest, location.render = root.render ++ rest ∧ Boundary rest) ↔
      location.Below root := by
  have plain := formed.plainSegments
  have plainRoot := formedRoot.plainSegments
  have nonempty : root.segments ≠ [] := by
    simp [Location.segments, named]
  rw [below_iff_segments formed formedRoot named,
    ← joinSegments_prefix_iff nonempty plainRoot plain]
  unfold Location.render
  cases absoluteRoot : root.absolute with
  | true =>
      cases absolute : location.absolute with
      | true => simp
      | false =>
          constructor
          · rintro ⟨rest, same, _⟩
            have head := joinSegments_head plain
            simp only [Bool.false_eq_true, if_false, if_true, List.nil_append] at same
            rw [same] at head
            exact absurd rfl head
          · rintro ⟨impossible, _⟩
            cases impossible
  | false =>
      cases absolute : location.absolute with
      | true =>
          constructor
          · rintro ⟨rest, same, _⟩
            have head := joinSegments_head plainRoot
            simp only [Bool.false_eq_true, if_false, if_true, List.nil_append] at same
            obtain ⟨ch, tail, text⟩ :=
              List.exists_cons_of_ne_nil (joinSegments_ne_nil nonempty plainRoot)
            rw [text] at same head
            simp only [List.head?_cons] at head
            exact absurd (congrArg some (List.cons.inj same).1.symm) head
          · rintro ⟨impossible, _⟩
            cases impossible
      | false => simp

theorem components_append_separator {left right : List Char} {ch : Char}
    (separates : isSeparator ch = true) :
    components (left ++ ch :: right) = components left ++ components right := by
  simp [components, List.splitOnP_append_cons _ _ separates]

theorem resolve_append {segment : List Char} (nonempty : text ≠ [])
    (single : components segment = [segment]) :
    resolve (text ++ '/' :: segment) = (resolve text).step segment := by
  have head : (text ++ '/' :: segment).head? = text.head? := by
    obtain ⟨first, rest, rfl⟩ := List.exists_cons_of_ne_nil nonempty
    rfl
  unfold resolve
  rw [head, components_append_separator (by decide), single, List.foldl_append]
  rfl

theorem Location.below_refl (location : Location) : location.Below location :=
  ⟨rfl, .inl ⟨rfl, List.prefix_rfl⟩⟩

theorem not_below_of_step_parent (named : location.names ≠ []) :
    ¬(location.step parent).Below location := by
  have stepped : location.step parent =
      { location with names := location.names.dropLast } := by
    rw [Location.step, if_neg (by decide), if_pos rfl, if_pos named]
  rw [stepped]
  rintro ⟨_, ⟨_, continued⟩ | ⟨_, unnamed⟩⟩
  · have shorter := continued.length_le
    have positive := List.length_pos_iff.mpr named
    rw [List.length_dropLast] at shorter
    omega
  · exact named unnamed

end TurboAgent.Path
