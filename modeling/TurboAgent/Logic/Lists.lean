import Mathlib

/-!
# Lists of results

Facts about partial maps over lists, about lists put together from pieces, and about sorted
lists.
-/

namespace TurboAgent.Lists

variable {α β γ : Type} {f : α → Option β} {x : α} {xs : List α} {ys : List β}

/-- A partial map over a list that gives a result gives one for the head and the tail. -/
theorem mapM_cons_some (mapped : (x :: xs).mapM f = some ys) :
    ∃ y rest, f x = some y ∧ xs.mapM f = some rest ∧ ys = y :: rest := by
  rw [List.mapM_cons] at mapped
  obtain ⟨y, here, mapped⟩ := Option.bind_eq_some_iff.mp mapped
  obtain ⟨rest, there, mapped⟩ := Option.bind_eq_some_iff.mp mapped
  cases mapped
  exact ⟨y, rest, here, there, rfl⟩

/-- What is read off the results is what is read off the list. -/
theorem flatMap_of_mapM {g : β → List γ} {h : α → List γ}
    (each : ∀ x ∈ xs, ∀ y, f x = some y → g y = h x) (mapped : xs.mapM f = some ys) :
    ys.flatMap g = xs.flatMap h := by
  induction xs generalizing ys with
  | nil =>
      cases mapped
      rfl
  | cons x xs ih =>
      obtain ⟨y, rest, here, there, rfl⟩ := mapM_cons_some mapped
      rw [List.flatMap_cons, List.flatMap_cons, each x List.mem_cons_self y here,
        ih (fun x member => each x (List.mem_cons_of_mem _ member)) there]

/-- Every result is one of an element. -/
theorem mem_of_mapM {y : β} (mapped : xs.mapM f = some ys) (member : y ∈ ys) :
    ∃ x ∈ xs, f x = some y := by
  induction xs generalizing ys with
  | nil =>
      cases mapped
      exact nomatch member
  | cons x xs ih =>
      obtain ⟨first, rest, here, there, rfl⟩ := mapM_cons_some mapped
      rcases List.mem_cons.mp member with rfl | later
      · exact ⟨x, List.mem_cons_self, here⟩
      · obtain ⟨other, among, result⟩ := ih there later
        exact ⟨other, List.mem_cons_of_mem x among, result⟩

/-- Results that are the elements themselves. -/
theorem eq_of_mapM {f : α → Option α} {ys : List α} (each : ∀ x ∈ xs, ∀ y, f x = some y → y = x)
    (mapped : xs.mapM f = some ys) : ys = xs := by
  have read : ys.flatMap (fun y => [y]) = xs.flatMap (fun x => [x]) :=
    flatMap_of_mapM (fun x member y result => by rw [each x member y result]) mapped
  simpa using read

/-- A partial map over a list fails, or gives the results of all elements. -/
theorem mapM_eq_filterMap (f : α → Option β) (xs : List α) :
    xs.mapM f = if xs.all fun x => (f x).isSome then some (xs.filterMap f) else none := by
  induction xs with
  | nil => rfl
  | cons x xs ih =>
      rw [List.mapM_cons, ih]
      cases here : f x with
      | none => simp [here]
      | some y =>
          simp only [List.all_cons, here, Option.isSome_some, Bool.true_and,
            List.filterMap_cons_some here]
          split <;> rfl

theorem mapM_congr {g : α → Option β} (same : ∀ x ∈ xs, f x = g x) : xs.mapM f = xs.mapM g := by
  induction xs with
  | nil => rfl
  | cons x xs ih =>
      rw [List.mapM_cons, List.mapM_cons, same x List.mem_cons_self,
        ih fun x member => same x (List.mem_cons_of_mem _ member)]

theorem mapM_isSome : (xs.mapM f).isSome = true ↔ ∀ x ∈ xs, (f x).isSome = true := by
  rw [mapM_eq_filterMap, ← List.all_eq_true]
  split_ifs with all <;> simp [all]

theorem mapM_eq_some : xs.mapM f = some ys ↔ List.Forall₂ (fun x y => f x = some y) xs ys := by
  constructor
  · intro mapped
    induction xs generalizing ys with
    | nil =>
        cases mapped
        exact .nil
    | cons x xs ih =>
        obtain ⟨y, rest, here, there, rfl⟩ := mapM_cons_some mapped
        exact .cons here (ih there)
  · intro each
    induction each with
    | nil => rfl
    | cons here _ ih =>
        rw [List.mapM_cons, here, ih]
        rfl

/-- A partial map after a partial map, element by element or list by list. -/
theorem mapM_bind (f : α → Option β) (g : β → Option γ) (xs : List α) :
    (xs.mapM fun x => (f x).bind g) = (xs.mapM f).bind fun ys => ys.mapM g := by
  induction xs with
  | nil => rfl
  | cons x xs ih =>
      rw [List.mapM_cons, List.mapM_cons, ih]
      cases here : f x with
      | none => rfl
      | some y =>
      cases there : xs.mapM f with
      | none =>
          dsimp
          cases g y <;> rfl
      | some ys =>
          dsimp
          rw [List.mapM_cons]
          rfl

/-- A fold that may fail, by its first step. -/
theorem foldlM_cons_some {step : β → α → Option β} {start result : β} :
    (x :: xs).foldlM step start = some result ↔
      ∃ next, step start x = some next ∧ xs.foldlM step next = some result := by
  rw [List.foldlM_cons]
  exact Option.bind_eq_some_iff

/-- What every step keeps, the fold keeps. -/
theorem foldlM_keeps (Kept : β → Prop) {step : β → α → Option β}
    (each : ∀ x ∈ xs, ∀ before next, step before x = some next → Kept before → Kept next)
    {start result : β} (ran : xs.foldlM step start = some result) (kept : Kept start) :
    Kept result := by
  induction xs generalizing start with
  | nil =>
      cases ran
      exact kept
  | cons x xs ih =>
      obtain ⟨next, first, rest⟩ := foldlM_cons_some.mp ran
      exact ih (fun x member => each x (List.mem_cons_of_mem _ member)) rest
        (each x (List.mem_cons_self ..) start next first kept)

/-- Over a list in another order it fails as well, or gives its results in another order. -/
theorem mapM_perm {ys : List α} (perm : xs.Perm ys) :
    Option.Rel List.Perm (xs.mapM f) (ys.mapM f) := by
  rw [mapM_eq_filterMap, mapM_eq_filterMap, perm.all_eq]
  split
  next => exact .some (perm.filterMap f)
  next => exact .none

/-- What holds of the elements and of the one behind them. -/
theorem forall_mem_snoc {p : α → Prop} (front : ∀ y ∈ xs, p y) (last : p x) :
    ∀ y ∈ xs ++ [x], p y :=
  List.forall_mem_append.mpr ⟨front, List.forall_mem_singleton.mpr last⟩

theorem nodup_snoc (distinct : xs.Nodup) (fresh : x ∉ xs) : (xs ++ [x]).Nodup := by
  rw [← List.concat_eq_append]
  exact distinct.concat fresh

variable {R : α → β → Prop}

/-- Two passes over a list, the second over what the first one made of it. -/
theorem forall₂_zip {S : α × β → γ → Prop} {zs : List γ} (first : List.Forall₂ R xs ys)
    (second : List.Forall₂ S (xs.zip ys) zs) :
    List.Forall₂ (fun x z => ∃ y, R x y ∧ S (x, y) z) xs zs := by
  induction first generalizing zs with
  | nil =>
      cases second
      exact .nil
  | cons here _ ih =>
      cases second with
      | cons there rest => exact .cons ⟨_, here, there⟩ (ih rest)

theorem forall₂_right (each : List.Forall₂ R xs ys) {y : β} (member : y ∈ ys) :
    ∃ x ∈ xs, R x y := by
  induction each with
  | nil => cases member
  | @cons x _ _ _ here _ ih =>
      rcases List.mem_cons.mp member with rfl | later
      · exact ⟨x, List.mem_cons_self, here⟩
      · obtain ⟨x, inside, related⟩ := ih later
        exact ⟨x, List.mem_cons_of_mem _ inside, related⟩

theorem forall₂_left (each : List.Forall₂ R xs ys) (member : x ∈ xs) : ∃ y, R x y := by
  obtain ⟨y, -, related⟩ := forall₂_right each.flip member
  exact ⟨y, related⟩

theorem forall₂_imp_mem {S : α → β → Prop} (imp : ∀ x ∈ xs, ∀ y, R x y → S x y)
    (each : List.Forall₂ R xs ys) : List.Forall₂ S xs ys := by
  induction each with
  | nil => exact .nil
  | cons here _ ih =>
      rw [List.forall_mem_cons] at imp
      exact .cons (imp.1 _ here) (ih imp.2)

theorem length_flatMap_le {f g : α → List β} (le : ∀ x ∈ xs, (f x).length ≤ (g x).length) :
    (xs.flatMap f).length ≤ (xs.flatMap g).length := by
  induction xs with
  | nil => exact Nat.le_refl _
  | cons x xs ih =>
      rw [List.flatMap_cons, List.flatMap_cons, List.length_append, List.length_append]
      exact Nat.add_le_add (le x List.mem_cons_self)
        (ih fun x member => le x (List.mem_cons_of_mem _ member))

/-- Pieces that are nowhere longer give the same list only when they are the same. -/
theorem flatMap_eq_iff {f g : α → List β} (le : ∀ x ∈ xs, (f x).length ≤ (g x).length) :
    xs.flatMap f = xs.flatMap g ↔ ∀ x ∈ xs, f x = g x := by
  induction xs with
  | nil => simp
  | cons x xs ih =>
      have here := le x List.mem_cons_self
      have rest := fun x member => le x (List.mem_cons_of_mem _ member)
      rw [List.flatMap_cons, List.flatMap_cons, List.forall_mem_cons, ← ih rest]
      constructor
      · intro same
        have lengths := congrArg List.length same
        rw [List.length_append, List.length_append] at lengths
        have shorter := length_flatMap_le rest
        exact List.append_inj same (by omega)
      · rintro ⟨first, others⟩
        rw [first, others]

/-- At every place two related lists have related elements, or none. -/
theorem forall₂_getElem (related : List.Forall₂ R xs ys) (index : Nat) :
    (xs[index]? = none ∧ ys[index]? = none) ∨
      ∃ x y, xs[index]? = some x ∧ ys[index]? = some y ∧ R x y := by
  induction related generalizing index with
  | nil => exact Or.inl ⟨rfl, rfl⟩
  | cons here _ ih =>
      cases index with
      | zero => exact Or.inr ⟨_, _, rfl, rfl, here⟩
      | succ index => exact ih index

variable {f : α → β}

/-- Whose image is kept when an element is put in the place of another. -/
theorem map_set_same {index : Nat} {put : α} (place : xs[index]? = some x) (same : f put = f x) :
    (xs.set index put).map f = xs.map f := by
  have image : (xs.map f)[index]? = some (f x) := by
    rw [List.getElem?_map, place, Option.map_some]
  rw [List.map_set, same]
  apply List.ext_getElem?
  intro position
  rw [List.getElem?_set]
  split
  next here =>
    rw [← here, image, if_pos (List.getElem?_eq_some_iff.mp image).1]
  next => rfl

/-- Whose image is kept when an element is modified. -/
theorem map_modify_same {change : α → α} (same : ∀ x, f (change x) = f x) (xs : List α)
    (index : Nat) : (xs.modify index change).map f = xs.map f := by
  apply List.ext_getElem?
  intro position
  rw [List.getElem?_map, List.getElem?_map, List.getElem?_modify]
  cases xs[position]? with
  | none => rfl
  | some x =>
      simp only [Option.map_eq_map, Option.map_some]
      split
      next => rw [same]
      next => rfl

/-- What is in a list after an element was put in the place of another, when images are
distinct. -/
theorem mem_set_of_nodup {index : Nat} {put other : α} (distinct : (xs.map f).Nodup)
    (place : xs[index]? = some x) (member : other ∈ xs.set index put) :
    other = put ∨ other ∈ xs ∧ f other ≠ f x := by
  obtain ⟨position, found⟩ := List.mem_iff_getElem?.mp member
  rw [List.getElem?_set] at found
  split at found
  next =>
    split at found
    next => exact .inl (Option.some.inj found).symm
    next => cases found
  next elsewhere =>
    refine .inr ⟨List.mem_of_getElem? found, ?_⟩
    intro same
    have inside : index < (xs.map f).length := by
      rw [List.length_map]
      exact (List.getElem?_eq_some_iff.mp place).1
    apply elsewhere
    apply (List.getElem?_inj inside distinct).mp
    rw [List.getElem?_map, List.getElem?_map, place, found]
    exact congrArg some same.symm

/-- Distinct things with one image are at most one thing. -/
theorem eq_singleton_of_image (image : α → β) (value : β) {items : List α} {item : α}
    (distinct : (items.map image).Nodup) (member : item ∈ items)
    (same : ∀ other ∈ items, image other = value) : items = [item] := by
  have images : items.map image = List.replicate items.length value :=
    List.eq_replicate_iff.mpr ⟨List.length_map _, fun _ listed =>
      let ⟨other, here, equal⟩ := List.mem_map.mp listed
      equal ▸ same other here⟩
  rw [images, List.nodup_replicate] at distinct
  obtain ⟨first, rfl⟩ := List.length_eq_one_iff.mp
    (Nat.le_antisymm distinct (List.length_pos_of_mem member))
  rw [List.mem_singleton.mp member]

end TurboAgent.Lists
