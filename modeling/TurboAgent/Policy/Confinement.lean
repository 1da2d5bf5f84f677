import TurboAgent.Data.Path
import TurboAgent.Policy.Model

/-!
# Workspace confinement

Normalization computes the text of the lexical resolution: its buffer always holds
the rendering of the location resolved so far.  The comparison of the two texts is
right for every root whose resolution has a name.  It is wrong for all other roots,
and an action with several path arguments has only one of them checked.
-/

namespace TurboAgent.Policy

open TurboAgent.Path

/-! ## The buffer -/

def rootText (absolute : Bool) : List Char :=
  if absolute then ['/'] else []

/-- The rendering of a location, ready for one more segment. -/
def opened (location : Location) : List Char :=
  location.render ++ if location.segments = [] then [] else ['/']

theorem render_eq (location : Location) :
    location.render = rootText location.absolute ++ joinSegments location.segments := rfl

variable {location : Location} {last : List Char}

theorem render_concat {prior : Location} (segments : location.segments = prior.segments ++ [last])
    (absolute : location.absolute = prior.absolute) : location.render = opened prior ++ last := by
  rw [render_eq, absolute, segments, joinSegments_concat, opened, render_eq]
  split
  next empty => simp [empty, joinSegments]
  next => simp

theorem segments_push (location : Location) (name : List Char) :
    ({ location with names := location.names ++ [name] } : Location).segments =
      location.segments ++ [name] := by
  simp [Location.segments]

theorem segments_up (unnamed : location.names = []) :
    ({ location with up := location.up + 1 } : Location).segments =
      location.segments ++ [parent] := by
  simp [Location.segments, unnamed, List.replicate_succ']

theorem componentStart_eq {before segment : List Char} {rootLen : Nat}
    (plain : ∀ ch ∈ segment, ch ≠ '/') (above : rootLen ≤ before.length)
    (starts : before.length = rootLen ∨ before.getLast? = some '/') (count : Nat)
    (inside : count ≤ segment.length) :
    componentStart (before ++ segment) rootLen (before.length + count) = before.length := by
  induction count with
  | zero =>
      cases position : before.length with
      | zero => rfl
      | succ position =>
          rw [Nat.add_zero, componentStart, if_neg]
          rintro ⟨below, notSlash⟩
          rcases starts with same | slash
          · omega
          · apply notSlash
            rw [List.getElem?_append_left (by omega), ← slash, List.getLast?_eq_getElem?,
              position, Nat.add_sub_cancel]
  | succ count ih =>
      have here : (before ++ segment)[before.length + count]? = segment[count]? := by
        rw [List.getElem?_append_right (Nat.le_add_right _ _), Nat.add_sub_cancel_left]
      have stored : segment[count]? = some segment[count] := List.getElem?_eq_getElem inside
      rw [← Nat.add_assoc, componentStart, if_pos]
      · exact ih (Nat.le_of_succ_le inside)
      · refine ⟨by omega, ?_⟩
        rw [here, stored]
        intro slash
        exact plain _ (List.getElem_mem inside) (Option.some.inj slash)

/-- Length of the text before the first segment. -/
def rootLength (absolute : Bool) : Nat :=
  (rootText absolute).length

theorem opened_above (location : Location) :
    rootLength location.absolute ≤ (opened location).length := by
  simp only [opened, render_eq, rootLength, List.length_append]
  omega

theorem opened_starts (location : Location) :
    (opened location).length = rootLength location.absolute ∨
      (opened location).getLast? = some '/' := by
  unfold opened
  split
  next empty => exact .inl (by simp [render_eq, empty, joinSegments, rootLength])
  next => exact .inr (by simp)

theorem componentStart_opened (plain : ∀ ch ∈ last, ch ≠ '/') :
    componentStart (opened location ++ last) (rootLength location.absolute)
      (opened location ++ last).length = (opened location).length := by
  rw [List.length_append]
  exact componentStart_eq plain (opened_above location) (opened_starts location) _
    (Nat.le_refl _)

theorem lastComponentIsParent_opened (location : Location) (nonempty : last ≠ [])
    (plain : ∀ ch ∈ last, ch ≠ '/') :
    lastComponentIsParent (opened location ++ last) (rootLength location.absolute) =
      decide (last = parent) := by
  have above := opened_above location
  have positive := List.length_pos_iff.mpr nonempty
  rw [lastComponentIsParent, if_neg (by rw [List.length_append]; omega)]
  rw [componentStart_opened plain]
  dsimp only
  rw [List.getElem?_append_right (Nat.le_refl _),
    List.getElem?_append_right (Nat.le_add_right _ _)]
  simp only [List.length_append, Nat.add_sub_cancel_left, Nat.sub_self]
  match last with
  | [first] => simp [parent]
  | [first, second] => simp [parent, Bool.beq_eq_decide_eq]
  | first :: second :: third :: rest => simp [parent]

theorem take_opened (plain : ∀ ch ∈ last, ch ≠ '/') :
    (let stop := componentStart (opened location ++ last) (rootLength location.absolute)
        (opened location ++ last).length;
      (opened location ++ last).take
        (if rootLength location.absolute < stop then stop - 1
          else rootLength location.absolute)) = location.render := by
  rw [componentStart_opened plain]
  dsimp only
  have whole : location.render.length ≤ (opened location).length := by
    simp [opened]
  have render : location.render.length = rootLength location.absolute +
      (joinSegments location.segments).length := by
    rw [render_eq, List.length_append, rootLength]
  by_cases empty : location.segments = []
  · have same : opened location = location.render := by
      simp [opened, empty]
    rw [empty, joinSegments, List.length_nil, Nat.add_zero] at render
    rw [same, render, if_neg (Nat.lt_irrefl _), ← render]
    exact List.take_left
  · have longer : opened location = location.render ++ ['/'] := by
      simp [opened, empty]
    rw [longer, List.length_append, List.length_singleton, if_pos (by omega),
      Nat.add_sub_cancel, List.append_assoc]
    exact List.take_left

theorem render_ends {before : List (List Char)} (segments : location.segments = before ++ [last]) :
    ∃ text, location.render = text ++ last := by
  rw [render_eq, segments, joinSegments_concat]
  split
  next => exact ⟨rootText location.absolute, rfl⟩
  refine ⟨rootText location.absolute ++ (joinSegments before ++ ['/']), ?_⟩
  simp

theorem separated_render (formed : location.WellFormed) :
    separated location.render = opened location := by
  unfold separated opened
  rcases List.eq_nil_or_concat location.segments with empty | ⟨before, last, segments⟩
  · rw [render_eq, empty]
    cases location.absolute <;> simp [rootText, joinSegments]
  · rw [List.concat_eq_append] at segments
    obtain ⟨nonempty, plain⟩ := formed.plainSegments last (by rw [segments]; simp)
    obtain ⟨text, render⟩ := render_ends segments
    have final : location.render[location.render.length - 1]? = some (last.getLast nonempty) := by
      rw [← List.getLast?_eq_getElem?, render, List.getLast?_append_of_ne_nil _ nonempty,
        List.getLast?_eq_some_getLast nonempty]
    rw [if_pos, if_neg (by simp [segments])]
    rw [final]
    refine ⟨?_, ?_⟩
    · have positive := List.length_pos_iff.mpr nonempty
      rw [render, List.length_append]
      omega
    · intro slash
      exact plain _ (List.getLast_mem nonempty) (Option.some.inj slash)

theorem appendParent_opened (location : Location) (name : IsName last) :
    appendParent location.absolute (rootLength location.absolute)
      (opened location ++ last) = location.render := by
  have plain : ∀ ch ∈ last, ch ≠ '/' := by
    intro ch member slash
    have ordinary := name.plain ch member
    rw [slash] at ordinary
    exact absurd ordinary (by decide)
  have above := opened_above location
  have positive := List.length_pos_iff.mpr name.nonempty
  rw [appendParent, if_pos]
  · exact take_opened plain
  · refine ⟨?_, .inr ?_⟩
    · rw [List.length_append]
      omega
    · rw [lastComponentIsParent_opened location name.nonempty plain]
      exact decide_eq_false name.notParent

theorem appendParent_unnamed (formed : location.WellFormed) (unnamed : location.names = []) :
    appendParent location.absolute (rootLength location.absolute) location.render =
      if location.absolute then location.render else opened location ++ parent := by
  have stays : ¬(rootLength location.absolute < location.render.length ∧
      (location.absolute = true ∨
        lastComponentIsParent location.render (rootLength location.absolute) = false)) := by
    rintro ⟨longer, pops⟩
    have segments : location.segments = List.replicate location.up parent := by
      simp [Location.segments, unnamed]
    cases up : location.up with
    | zero => simp [render_eq, segments, up, joinSegments, rootLength] at longer
    | succ up' =>
        have relative : location.absolute = false := by
          rw [← Bool.not_eq_true]
          intro absolute
          rw [formed.rooted absolute] at up
          cases up
        rw [relative] at pops
        have render : location.render = opened ⟨location.absolute, up', []⟩ ++ parent := by
          refine render_concat ?_ rfl
          simp [Location.segments, unnamed, up, List.replicate_succ']
        have plain : ∀ ch ∈ parent, ch ≠ '/' := by
          intro ch member slash
          rw [slash] at member
          simp [parent] at member
        have final := lastComponentIsParent_opened ⟨location.absolute, up', []⟩
          Location.parent_plain.1 plain
        rw [← render, relative] at final
        rw [final] at pops
        simp at pops
  rw [appendParent, if_neg stays, separated_render formed, parent]

/-- One component of the source text takes the buffer from the rendering of a
location to the rendering of the next one. -/
theorem appendComponent_render {component : List Char} (formed : location.WellFormed)
    (plain : ∀ ch ∈ component, isSeparator ch = false) :
    appendComponent location.absolute (rootLength location.absolute) location.render
      component = (location.step component).render := by
  have copied : component.map normalizePathChar = component := by
    have each : ∀ ch ∈ component, normalizePathChar ch = id ch := by
      intro ch member
      have ordinary : isPathSeparator ch = false := plain ch member
      simp [normalizePathChar, ordinary]
    rw [List.map_congr_left each, List.map_id]
  unfold appendComponent Location.step
  split
  next => rfl
  split
  next isParent =>
    rw [if_pos (show component = parent from isParent)]
    rcases List.eq_nil_or_concat location.names with unnamed | ⟨names, last, named⟩
    · rw [appendParent_unnamed formed unnamed, if_neg (not_not.mpr unnamed)]
      split
      next => rfl
      have extended := segments_up unnamed
      exact (render_concat extended rfl).symm
    · rw [List.concat_eq_append] at named
      have name := formed.names last (by rw [named]; simp)
      have split : location.segments =
          ({ location with names } : Location).segments ++ [last] := by
        simp [Location.segments, named]
      have render := render_concat split rfl
      rw [if_pos (by simp [named]), render, named, List.dropLast_concat]
      exact appendParent_opened { location with names } name
  next notParent =>
    rw [if_neg (show component ≠ parent from notParent), separated_render formed, copied]
    have extended := segments_push location component
    exact (render_concat extended rfl).symm

theorem appendComponents_render (formed : location.WellFormed) (fuel : Nat) (path : List Char)
    (enough : path.length ≤ fuel) :
    appendComponents location.absolute (rootLength location.absolute) fuel path
      location.render = ((components path).foldl Location.step location).render := by
  induction fuel generalizing path location with
  | zero =>
      have empty := List.eq_nil_of_length_eq_zero (Nat.le_zero.mp enough)
      rw [empty]
      rfl
  | succ fuel ih =>
      have shorter := (List.dropWhile_suffix (l := path) isSeparator).length_le
      rw [← components_dropSeparators path]
      unfold appendComponents
      split
      next done =>
        rw [show path.dropWhile isSeparator = [] from done]
        rfl
      next ch rest remaining =>
        have remains : path.dropWhile isSeparator = ch :: rest := remaining
        have ordinary : isSeparator ch = false := by
          have head := List.head?_dropWhile_not isSeparator path
          simpa [remains] using head
        rw [remains] at shorter
        rw [remains]
        have valid := components_first (ch :: rest) (by simpa using ordinary) (by simp)
        have member : (ch :: rest).takeWhile (!isSeparator ·) ∈ components (ch :: rest) := by
          rw [valid]
          exact List.mem_cons_self
        obtain ⟨nonempty, plain⟩ := mem_components member
        have smaller : ((ch :: rest).dropWhile (!isSeparator ·)).length ≤ fuel := by
          have tail := (List.dropWhile_suffix (l := rest) (!isSeparator ·)).length_le
          rw [List.dropWhile_cons_of_pos (by simp [ordinary])]
          simp only [List.length_cons] at shorter
          omega
        have next := ih (formed.step nonempty plain) _ smaller
        rw [Location.step_absolute, ← appendComponent_render formed plain] at next
        rw [valid, List.foldl_cons]
        exact next

theorem trimSlashes_render (formed : location.WellFormed) :
    trimSlashes location.render (rootLength location.absolute) location.render.length =
      location.render := by
  cases length : location.render.length with
  | zero => exact (List.eq_nil_of_length_eq_zero length).symm
  | succ position =>
      rw [trimSlashes, if_neg, ← length, List.take_length]
      rintro ⟨above, slash⟩
      rcases List.eq_nil_or_concat location.segments with empty | ⟨before, last, segments⟩
      · rw [← length, render_eq, empty, joinSegments, List.append_nil, rootLength] at above
        exact Nat.lt_irrefl _ above
      · rw [List.concat_eq_append] at segments
        obtain ⟨nonempty, plain⟩ := formed.plainSegments last (by rw [segments]; simp)
        obtain ⟨text, render⟩ := render_ends segments
        have final : location.render.getLast? = some '/' := by
          rw [List.getLast?_eq_getElem?, length, Nat.add_sub_cancel, slash]
        rw [render, List.getLast?_append_of_ne_nil _ nonempty,
          List.getLast?_eq_some_getLast nonempty] at final
        exact plain _ (List.getLast_mem nonempty) (Option.some.inj final)

theorem normalizePath_eq (path : List Char) : normalizePath path = (resolve path).render := by
  have start : Location.WellFormed ⟨path.head?.any isSeparator, 0, []⟩ := by
    constructor
    · intro name member
      cases member
    · intro _
      rfl
  have rest : components (if path.head?.any isSeparator then path.dropWhile isSeparator
      else path) = components path := by
    split
    next => exact components_dropSeparators path
    next => rfl
  have bounded : (if path.head?.any isSeparator then path.dropWhile isSeparator
      else path).length ≤ path.length := by
    split
    next => exact (List.dropWhile_suffix isSeparator).length_le
    next => exact Nat.le_refl _
  have looped := appendComponents_render start path.length _ bounded
  have begun : Location.render ⟨path.head?.any isSeparator, 0, []⟩ =
      rootText (path.head?.any isSeparator) := by
    simp [render_eq, Location.segments, joinSegments]
  rw [rest, begun] at looped
  have trimmed := trimSlashes_render (resolve_wellFormed path)
  have absolute : (resolve path).absolute = path.head?.any isSeparator :=
    Location.fold_absolute _ _
  rw [absolute] at trimmed
  have whole : appendComponents (path.head?.any isSeparator)
      (rootLength (path.head?.any isSeparator)) path.length
      (if path.head?.any isSeparator then path.dropWhile isSeparator else path)
      (rootText (path.head?.any isSeparator)) = (resolve path).render := looped
  unfold normalizePath
  dsimp only
  exact (congrArg (fun buffer : List Char => trimSlashes buffer
    (rootLength (path.head?.any isSeparator)) buffer.length) whole).trans trimmed

/-! ## Confinement -/

def Inside (root path : String) : Prop :=
  (resolve path.toList).Below (resolve root.toList)

instance (root path : String) : Decidable (Inside root path) :=
  inferInstanceAs (Decidable (Location.Below _ _))

def Confines (policy : AgentPolicy) (root : CString) : Prop :=
  policy.workspaceRoot = some root ∧ policy.allowOutsideWorkspace = false

theorem prefix_test_iff (root path : List Char) :
    (decide (root.length ≤ path.length) && path.take root.length == root &&
      (path[root.length]? == none || path[root.length]? == some '/')) = true ↔
      ∃ rest, path = root ++ rest ∧ Boundary rest := by
  constructor
  · intro accepted
    simp only [Bool.and_eq_true, beq_iff_eq, Bool.or_eq_true] at accepted
    obtain ⟨⟨_, same⟩, next⟩ := accepted
    refine ⟨path.drop root.length, ?_, ?_⟩
    · have joined := List.take_append_drop root.length path
      rw [same] at joined
      exact joined.symm
    · rw [Boundary, List.head?_drop]
      rcases next with ended | slash
      · exact .inl (List.drop_eq_nil_iff.mpr (List.getElem?_eq_none_iff.mp ended))
      · exact .inr slash
  · rintro ⟨rest, rfl, boundary⟩
    rcases boundary with rfl | slash
    · simp
    · simp [List.getElem?_append_right, ← List.head?_eq_getElem?, slash]

variable {policy : AgentPolicy} {root : CString}

theorem validatePath_iff (confines : Confines policy root) (path : String) :
    validatePath (some policy) path = true ↔ path.toList ≠ [] ∧
      ((resolve root.val.toList).render = [] ∨
        ∃ rest, (resolve path.toList).render = (resolve root.val.toList).render ++ rest ∧
          Boundary rest) := by
  rw [← prefix_test_iff, ← normalizePath_eq, ← normalizePath_eq]
  simp only [validatePath, confines.1, confines.2, Bool.false_eq_true, if_false]
  by_cases empty : path.toList = []
  · simp [empty]
  · rw [if_neg empty]
    by_cases unrooted : normalizePath root.val.toList = []
    · simp [empty, unrooted]
    · rw [if_neg (by simpa using unrooted)]
      simp only [empty, unrooted, ne_eq, not_false_eq_true, true_and, false_or]

theorem validatePath_exact (confines : Confines policy root)
    (named : (resolve root.val.toList).names ≠ []) (path : String) :
    validatePath (some policy) path = true ↔ Inside root.val path := by
  have formed := resolve_wellFormed path.toList
  have formedRoot := resolve_wellFormed root.val.toList
  have rendered : (resolve root.val.toList).render ≠ [] := by
    have text := joinSegments_ne_nil (by simp [Location.segments, named])
      formedRoot.plainSegments
    simp [render_eq, text]
  rw [validatePath_iff confines, render_prefix_iff formed formedRoot named]
  constructor
  · rintro ⟨_, unrooted | below⟩
    · exact absurd unrooted rendered
    · exact below
  · intro below
    refine ⟨?_, .inr below⟩
    -- the empty path resolves to the current directory, which has no name
    intro empty
    rw [Inside, empty] at below
    rcases below with ⟨_, ⟨_, continued⟩ | ⟨_, unnamed⟩⟩
    · exact named (List.prefix_nil.mp continued)
    · exact named unnamed

theorem validatePath_slash (confines : Confines policy root)
    (resolved : resolve root.val.toList = ⟨true, 0, []⟩) :
    validatePath (some policy) "/x" = false ∧ Inside root.val "/x" := by
  constructor
  · rw [← Bool.not_eq_true, validatePath_iff confines, resolved, ← prefix_test_iff]
    decide
  · rw [Inside, resolved]
    decide

theorem validatePath_dot (confines : Confines policy root)
    (resolved : resolve root.val.toList = ⟨false, 0, []⟩) :
    validatePath (some policy) "/x" = true ∧ ¬Inside root.val "/x" := by
  constructor
  · rw [validatePath_iff confines, resolved]
    exact ⟨by decide, .inl rfl⟩
  · rw [Inside, resolved]
    decide

theorem validatePath_parent {up : Nat} (confines : Confines policy root)
    (resolved : resolve root.val.toList = ⟨false, up + 1, []⟩) :
    validatePath (some policy) (root.val ++ "/..") = true ∧
      ¬Inside root.val (root.val ++ "/..") := by
  have nonempty : root.val.toList ≠ [] := by
    intro empty
    rw [empty] at resolved
    exact absurd (congrArg Location.up resolved) (by simp [resolve, components])
  have text : (root.val ++ "/..").toList = root.val.toList ++ '/' :: parent := by
    rw [String.toList_append]
    rfl
  have above : resolve (root.val ++ "/..").toList = ⟨false, up + 2, []⟩ := by
    rw [text, resolve_append nonempty (by decide), resolved]
    rfl
  constructor
  · rw [validatePath_iff confines, above, resolved]
    refine ⟨by simp [text], .inr ⟨'/' :: parent, ?_, .inr rfl⟩⟩
    simp only [render_eq, Location.segments, List.append_nil, rootText]
    rw [List.replicate_succ' (n := up + 1), joinSegments_concat]
    simp
  · rw [Inside, above, resolved]
    rintro ⟨_, ⟨same, _⟩ | ⟨less, _⟩⟩
    · simp at same
    · simp at less

theorem validatePath_wrong (confines : Confines policy root)
    (unnamed : (resolve root.val.toList).names = []) :
    ∃ path, ¬(validatePath (some policy) path = true ↔ Inside root.val path) := by
  have formed := resolve_wellFormed root.val.toList
  generalize resolved : resolve root.val.toList = location at unnamed formed
  obtain ⟨absolute, up, names⟩ := location
  simp only at unnamed
  subst unnamed
  cases absolute with
  | true =>
      rw [show up = 0 from formed.rooted rfl] at resolved
      obtain ⟨rejected, inside⟩ := validatePath_slash confines resolved
      exact ⟨"/x", by simp [rejected, inside]⟩
  | false =>
      cases up with
      | zero =>
          obtain ⟨accepted, outside⟩ := validatePath_dot confines resolved
          exact ⟨"/x", by simp [accepted, outside]⟩
      | succ up =>
          obtain ⟨accepted, outside⟩ := validatePath_parent confines resolved
          exact ⟨root.val ++ "/..", by simp [accepted, outside]⟩

/-! ## Actions -/

def Carries (args : Option Json) (present : Set PathArgument) : Prop :=
  ∀ argument, argument ∈ present ↔ (pathArgument args argument).isSome

variable {args : Option Json} {path : String}

theorem validatePath_of_allow {definition : Option ActionDefinition}
    (allowed : (checkAction (some policy) definition args).1 = .allow)
    (selected : getPathArg args = some path) : validatePath (some policy) path = true := by
  unfold checkAction at allowed
  dsimp only at allowed
  split at allowed
  next => cases allowed
  split at allowed
  next => cases allowed
  next valid => simpa [selected] using valid

theorem getPathArg_of_only {argument : PathArgument}
    (given : pathArgument args argument = some path)
    (only : ∀ other, (pathArgument args other).isSome → other = argument) :
    getPathArg args = some path := by
  have absent : ∀ other, other ≠ argument → pathArgument args other = none := by
    intro other distinct
    by_contra present
    exact distinct (only other (Option.isSome_iff_ne_none.mpr present))
  cases argument with
  | path => simp [getPathArg, given]
  | workdir => simp [getPathArg, given, absent .path]
  | rootDir => simp [getPathArg, given, absent .path, absent .workdir]
  | cwd => simp [getPathArg, given, absent .path, absent .workdir, absent .rootDir]

/-- Position of an argument in the order of selection. -/
def PathArgument.rank : PathArgument → Nat
  | .path => 0
  | .workdir => 1
  | .rootDir => 2
  | .cwd => 3

theorem getPathArg_first {argument : PathArgument} (given : pathArgument args argument = some path) :
    ∃ first, first.rank ≤ argument.rank ∧ getPathArg args = pathArgument args first ∧
      (pathArgument args first).isSome := by
  unfold getPathArg
  split
  next found => exact ⟨.path, Nat.zero_le _, found.symm, by simp [found]⟩
  next noPath =>
    split
    next found =>
      refine ⟨.workdir, ?_, found.symm, by simp [found]⟩
      cases argument <;> simp_all [PathArgument.rank]
    next noWorkdir =>
      split
      next found =>
        refine ⟨.rootDir, ?_, found.symm, by simp [found]⟩
        cases argument <;> simp_all [PathArgument.rank]
      next noRootDir =>
        cases argument with
        | path => simp [noPath] at given
        | workdir => simp [noWorkdir] at given
        | rootDir => simp [noRootDir] at given
        | cwd => exact ⟨.cwd, Nat.le_refl _, rfl, by simp [given]⟩

/-- All path arguments, in the order of selection. -/
def PathArgument.all : List PathArgument :=
  [.path, .workdir, .rootDir, .cwd]

/-- Arguments of an action with the given path arguments and nothing else. -/
def pathArguments (present : PathArgument → Bool) (value : PathArgument → String) : Json :=
  .object ((PathArgument.all.filter present).map fun argument =>
    (argument.key, .string (value argument)))

theorem findField_arguments (arguments : List PathArgument)
    (value : PathArgument → String) (argument : PathArgument) :
    Json.findField (arguments.map fun other => (other.key, .string (value other)))
      argument.key = if argument ∈ arguments then some (.string (value argument)) else none := by
  induction arguments with
  | nil => rfl
  | cons first arguments ih =>
      have keys : first.key = argument.key ↔ argument = first := by
        cases first <;> cases argument <;> decide
      rw [List.map_cons, Json.findField, ih]
      by_cases same : argument = first
      · subst same
        simp
      · simp [keys, same]

theorem findField_command (arguments : List PathArgument) (value : PathArgument → String) :
    Json.findField (arguments.map fun other => (other.key, .string (value other)))
      "command" = none := by
  induction arguments with
  | nil => rfl
  | cons first arguments ih =>
      rw [List.map_cons, Json.findField, ih, if_neg]
      cases first <;> decide

theorem pathArgument_pathArguments (present : PathArgument → Bool)
    {value : PathArgument → String} (plain : ∀ argument, noNul (value argument) = true)
    (argument : PathArgument) :
    pathArgument (some (pathArguments present value)) argument =
      if present argument then some (value argument) else none := by
  have listed : argument ∈ PathArgument.all := by
    cases argument <;> decide
  have found := findField_arguments (PathArgument.all.filter present) value argument
  rw [pathArgument, Option.bind_some]
  split
  next given =>
    rw [if_pos (List.mem_filter.mpr ⟨listed, given⟩)] at found
    exact Json.getString_of_field found (plain argument)
  next missing =>
    rw [if_neg (by simp [missing])] at found
    simp [Json.getString, Json.field, pathArguments, found]

/-- An observing action with these arguments is allowed when its selected path is. -/
theorem checkAction_pathArguments {present : PathArgument → Bool} {value : PathArgument → String}
    (approves : policy.autoApproveSafe = true)
    (valid : ∀ path, getPathArg (some (pathArguments present value)) = some path →
      validatePath (some policy) path = true) :
    (checkAction (some policy) (some ⟨.observe, false⟩)
      (some (pathArguments present value))).1 = .allow := by
  have selected : ((getPathArg (some (pathArguments present value))).any
      fun path => !validatePath (some policy) path) = false := by
    cases chosen : getPathArg (some (pathArguments present value)) with
    | none => rfl
    | some path => simp [valid path chosen]
  have command : (pathArguments present value).getString "command" = none := by
    have missing := findField_command (PathArgument.all.filter present) value
    simp [Json.getString, Json.field, pathArguments, missing]
  simp [checkAction, selected, command, approves]

/-- With two path arguments present, one that leaves the root can hide behind one that
stays inside. -/
theorem checkAction_wrong (named : (resolve root.val.toList).names ≠ [])
    {present : Set PathArgument} {first second : PathArgument} (firstPresent : first ∈ present)
    (secondPresent : second ∈ present) (order : first.rank < second.rank) :
    ∃ policy definition args, Confines policy root ∧ Carries args present ∧
      (checkAction (some policy) definition args).1 = .allow ∧
      ∃ path, pathArgument args second = some path ∧ ¬Inside root.val path := by
  classical
  have nonempty : root.val.toList ≠ [] := by
    intro empty
    rw [empty] at named
    exact named rfl
  have text : (root.val ++ "/..").toList = root.val.toList ++ '/' :: parent := by
    rw [String.toList_append]
    rfl
  have outside : ¬Inside root.val (root.val ++ "/..") := by
    rw [Inside, text, resolve_append nonempty (by decide)]
    exact not_below_of_step_parent named
  have plainOutside : noNul (root.val ++ "/..") = true := by
    have plain := root.property
    simp only [noNul, Bool.not_eq_true', List.contains_eq_mem, decide_eq_false_iff_not] at plain ⊢
    rw [text, List.mem_append]
    rintro (inRoot | inStep)
    · exact plain inRoot
    · revert inStep
      decide
  -- the later argument leaves the root, all others name the root itself
  let value : PathArgument → String :=
    fun argument => if argument = second then root.val ++ "/.." else root.val
  have plain : ∀ argument, noNul (value argument) = true := by
    intro argument
    simp only [value]
    split
    next => exact plainOutside
    next => exact root.property
  let policy : AgentPolicy := { default with workspaceRoot := some root }
  let args := pathArguments (fun argument => decide (argument ∈ present)) value
  have confines : Confines policy root := ⟨rfl, rfl⟩
  have given := pathArgument_pathArguments (fun argument => decide (argument ∈ present)) plain
  refine ⟨policy, some ⟨.observe, false⟩, some args, confines, ?_, ?_, ?_⟩
  · intro argument
    rw [given]
    by_cases member : argument ∈ present <;> simp [member]
  · apply checkAction_pathArguments rfl
    intro path selected
    have firstGiven : pathArgument (some args) first = some (value first) := by
      rw [given]
      simp [firstPresent]
    obtain ⟨chosen, rank, same, isSome⟩ := getPathArg_first firstGiven
    have notSecond : chosen ≠ second := by
      intro equal
      rw [equal] at rank
      omega
    rw [validatePath_exact confines named]
    rw [same, given] at selected
    split at selected
    next =>
      simp only [value, if_neg notSecond] at selected
      rw [← Option.some.inj selected]
      exact Location.below_refl _
    next => cases selected
  · refine ⟨root.val ++ "/..", ?_, outside⟩
    rw [given]
    simp [secondPresent, value]

def rooted (root : CString) : AgentPolicy :=
  { default with workspaceRoot := some root }

/-- Confinement fails at the current directory, at a parent directory, at the root
directory, and for a second path argument. -/
theorem confinement_counterexample :
    (validatePath (some (rooted ⟨".", by decide⟩)) "/etc/passwd" = true ∧
      ¬Inside "." "/etc/passwd") ∧
    (validatePath (some (rooted ⟨"..", by decide⟩)) "../.." = true ∧
      ¬Inside ".." "../..") ∧
    (validatePath (some (rooted ⟨"/", by decide⟩)) "/etc" = false ∧ Inside "/" "/etc") ∧
    ((checkAction (some (rooted ⟨"/work", by decide⟩)) (some ⟨.observe, false⟩)
        (some (.object [("path", .string "/work/a"), ("cwd", .string "/etc")]))).1 = .allow ∧
      pathArgument (some (.object [("path", .string "/work/a"), ("cwd", .string "/etc")]))
        .cwd = some "/etc" ∧
      ¬Inside "/work" "/etc") := by
  decide +kernel

/-- Confinement holds for a root and a set of path arguments exactly when the resolved
root has a name and the action carries at most one path argument. -/
theorem confinement_iff (root : CString) (present : Set PathArgument) :
    ((∀ policy path, Confines policy root →
        (validatePath (some policy) path = true ↔ Inside root.val path)) ∧
      (∀ policy definition args, Confines policy root → Carries args present →
        (checkAction (some policy) definition args).1 = .allow →
          ∀ argument path, pathArgument args argument = some path → Inside root.val path)) ↔
    (resolve root.val.toList).names ≠ [] ∧ present.Subsingleton := by
  constructor
  · rintro ⟨exact, confined⟩
    have named : (resolve root.val.toList).names ≠ [] := by
      intro unnamed
      have confines : Confines { default with workspaceRoot := some root } root := ⟨rfl, rfl⟩
      obtain ⟨path, wrong⟩ := validatePath_wrong confines unnamed
      exact wrong (exact _ path confines)
    refine ⟨named, ?_⟩
    have ordered : ∀ first ∈ present, ∀ second ∈ present, ¬first.rank < second.rank := by
      intro first firstPresent second secondPresent order
      obtain ⟨policy, definition, args, confines, carries, allowed, path, given, outside⟩ :=
        checkAction_wrong named firstPresent secondPresent order
      exact outside (confined policy definition args confines carries allowed second path given)
    intro first firstPresent second secondPresent
    have before := ordered first firstPresent second secondPresent
    have after := ordered second secondPresent first firstPresent
    cases first <;> cases second <;> first | rfl | simp [PathArgument.rank] at before after
  · rintro ⟨named, single⟩
    refine ⟨fun policy path confines => validatePath_exact confines named path, ?_⟩
    intro policy definition args confines carries allowed argument path given
    have member : argument ∈ present := (carries argument).mpr (by simp [given])
    have only : ∀ other, (pathArgument args other).isSome → other = argument := by
      intro other isSome
      exact single ((carries other).mpr isSome) member
    have selected := getPathArg_of_only given only
    exact (validatePath_exact confines named path).mp (validatePath_of_allow allowed selected)

end TurboAgent.Policy
