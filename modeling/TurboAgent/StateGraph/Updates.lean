import TurboAgent.StateGraph.Channel

/-!
# Updates of a state

When an update is accepted, without the loop: every key of it names a channel whose reducer
admits the value of the key next to the current one.  A refused update has still changed the
state, unless it is its first key that is refused.
-/

namespace TurboAgent

namespace StateGraph

/-! ## One channel -/

/-- The current value of a channel is missing, null or of a kind. -/
def BlankOr (kind : Kind) (current : Option Json) : Prop :=
  ∀ value, current = some value → jsonType value = .null ∨ jsonType value = kind

def Admits (channel : Channel) (current : Option Json) (update : Json) : Prop :=
  match channel.reducer with
  | .replace | .lastNonNull => validateChannelValue channel update = .ok
  | .append => BlankOr .array current ∧
      ∀ child ∈ children update, validateChannelValue channel child = .ok
  | .mergeObject => BlankOr .object current ∧ jsonType update = .object
  | .add => BlankOr .number current ∧ jsonType update = .number

def elements : Option Json → List Json
  | some (.array known) => known
  | _ => []

def members : Option Json → List (String × Json)
  | some (.object known) => known
  | _ => []

/-- The number that a value is, and zero for others. -/
def summand : Option Json → Int × Nat
  | some (.number mantissa exponent) => (mantissa, exponent)
  | _ => (0, 0)

variable (library : JsonLibrary)

/-- What an admitted update makes of the current value. -/
def reduced (channel : Channel) (current : Option Json) (update : Json) : Json :=
  match channel.reducer with
  | .replace => update
  | .lastNonNull => if jsonType update = .null then channelBaseValue channel current else update
  | .append => .array (elements current ++ children update)
  | .mergeObject => .object (mergeFields (members (some update)) (members current))
  | .add =>
      let sum := library.plus (summand current) (summand (some update))
      .number sum.1 sum.2

variable {library} {channel : Channel} {current : Option Json} {update merged : Json}

theorem appendChildren_eq_ok {added result : List Json} :
    appendChildren channel added result = .ok merged ↔
      (∀ child ∈ added, validateChannelValue channel child = .ok) ∧
        merged = .array (result ++ added) := by
  induction added generalizing result with
  | nil => simp [appendChildren, eq_comm]
  | cons child added ih =>
      rw [appendChildren, List.forall_mem_cons]
      split
      next valid => simp [ih, valid]
      next invalid => simp [invalid]

theorem appendValues_eq_ok :
    appendValues channel current update = .ok merged ↔
      (BlankOr .array current ∧ ∀ child ∈ children update, validateChannelValue channel child = .ok) ∧
        merged = .array (elements current ++ children update) := by
  cases current with
  | none => simp [appendValues, appendChildren_eq_ok, BlankOr, elements]
  | some value =>
      cases value <;> simp [appendValues, appendChildren_eq_ok, BlankOr, jsonType, elements]

theorem mergeObjectValues_eq_ok :
    mergeObjectValues current update = .ok merged ↔
      (BlankOr .object current ∧ jsonType update = .object) ∧
        merged = .object (mergeFields (members (some update)) (members current)) := by
  cases update with
  | object fields =>
      cases current with
      | none => simp [mergeObjectValues, BlankOr, jsonType, members, eq_comm]
      | some value =>
          cases value <;> simp [mergeObjectValues, BlankOr, jsonType, members, eq_comm]
  | _ => simp [mergeObjectValues, jsonType]

theorem addValues_eq_ok :
    addValues library current update = .ok merged ↔
      (BlankOr .number current ∧ jsonType update = .number) ∧
        merged = .number (library.plus (summand current) (summand (some update))).1
          (library.plus (summand current) (summand (some update))).2 := by
  cases update with
  | number mantissa exponent =>
      cases current with
      | none => simp [addValues, BlankOr, jsonType, summand, eq_comm]
      | some value => cases value <;> simp [addValues, BlankOr, jsonType, summand, eq_comm]
  | _ => simp [addValues, jsonType]

theorem reduceChannel_eq_ok :
    reduceChannel library channel current update = .ok merged ↔
      Admits channel current update ∧ merged = reduced library channel current update := by
  unfold reduceChannel Admits reduced
  cases channel.reducer with
  | replace =>
      dsimp only
      split
      next valid => simp [valid, eq_comm]
      next invalid => simp [invalid]
  | lastNonNull =>
      dsimp only
      split
      next valid => split <;> simp [valid, eq_comm]
      next invalid => simp [invalid]
  | append => exact appendValues_eq_ok
  | mergeObject => exact mergeObjectValues_eq_ok
  | add => exact addValues_eq_ok

theorem appendChildren_ne_ok {added result : List Json} :
    appendChildren channel added result ≠ .error .ok := by
  induction added generalizing result with
  | nil => simp [appendChildren]
  | cons child added ih =>
      rw [appendChildren]
      split
      next => exact ih
      next invalid => simpa using invalid

theorem reduceChannel_ne_ok : reduceChannel library channel current update ≠ .error .ok := by
  unfold reduceChannel
  cases channel.reducer with
  | replace =>
      dsimp only
      split
      next => simp
      next invalid => simpa using invalid
  | lastNonNull =>
      dsimp only
      split
      next => split <;> simp
      next invalid => simpa using invalid
  | append =>
      dsimp only [appendValues]
      split
      next => exact appendChildren_ne_ok
      next => exact appendChildren_ne_ok
      next => exact appendChildren_ne_ok
      next => simp
  | mergeObject =>
      dsimp only
      unfold mergeObjectValues
      split
      next => split <;> simp
      next => simp
  | add =>
      dsimp only
      unfold addValues
      split
      next => split <;> simp
      next => simp

theorem Admits.again (admits : Admits channel current update) :
    Admits channel (some (reduced library channel current update)) update := by
  unfold Admits reduced at *
  cases kind : channel.reducer with
  | replace => simpa only [kind] using admits
  | lastNonNull => simpa only [kind] using admits
  | append =>
      simp only [kind] at admits ⊢
      exact ⟨fun value stored => .inr (by cases stored; rfl), admits.2⟩
  | mergeObject =>
      simp only [kind] at admits ⊢
      exact ⟨fun value stored => .inr (by cases stored; rfl), admits.2⟩
  | add =>
      simp only [kind] at admits ⊢
      exact ⟨fun value stored => .inr (by cases stored; rfl), admits.2⟩

/-! ## All keys -/

variable {channels : List Channel} {state : Json}

def TakesKey (channels : List Channel) (state update : Json) (key : String) : Prop :=
  ∃ channel value, findChannel channels key = some channel ∧ update.field key = some value ∧
    Admits channel (state.field key) value

def Accepted (channels : List Channel) (state update : Json) : Prop :=
  state.isObject = true ∧ update.isObject = true ∧
    ∀ key ∈ update.keys, TakesKey channels state update key

/-- An update that is refused before anything of it is applied. -/
def RefusedAtOnce (channels : List Channel) (state update : Json) : Prop :=
  state.isObject = false ∨ update.isObject = false ∨
    ∃ key keys, update.keys = key :: keys ∧ ¬TakesKey channels state update key

variable (library) in
theorem applyKeys_cons {key : String} (keys : List String)
    (takes : TakesKey channels state update key) :
    ∃ channel value, findChannel channels key = some channel ∧ update.field key = some value ∧
      Admits channel (state.field key) value ∧
        applyKeys library channels update (key :: keys) state =
          applyKeys library channels update keys
            (state.set key (reduced library channel (state.field key) value)) := by
  obtain ⟨channel, value, found, stored, admits⟩ := takes
  refine ⟨channel, value, found, stored, admits, ?_⟩
  rw [applyKeys, stored]
  dsimp only
  rw [found]
  dsimp only
  rw [reduceChannel_eq_ok.mpr ⟨admits, rfl⟩]

variable (library) in
theorem applyKeys_refused {key : String} (keys : List String)
    (refused : ¬TakesKey channels state update key) :
    (applyKeys library channels update (key :: keys) state).1 ≠ .ok ∧
      (applyKeys library channels update (key :: keys) state).2 = state := by
  rw [applyKeys]
  split
  next => exact ⟨by simp, rfl⟩
  next value stored =>
    split
    next => exact ⟨by simp, rfl⟩
    next channel found =>
      split
      next status failed =>
        constructor
        · rintro rfl
          exact reduceChannel_ne_ok failed
        · rfl
      next merged reducedTo =>
        exact absurd ⟨channel, value, found, stored, (reduceChannel_eq_ok.mp reducedTo).1⟩ refused

theorem findChannel_more (more : List Channel) {key : String}
    (found : findChannel channels key = some channel) :
    findChannel (channels ++ more) key = some channel := by
  rw [findChannel] at found
  rw [findChannel, List.find?_append, found]
  rfl

theorem takesKey_set {key other : String} {value : Json} (object : state.isObject = true)
    (found : findChannel channels key = some channel) (stored : update.field key = some value)
    (admits : Admits channel (state.field key) value) :
    TakesKey channels (state.set key (reduced library channel (state.field key) value)) update
      other ↔ TakesKey channels state update other := by
  by_cases same : key = other
  · subst same
    constructor
    · intro _
      exact ⟨channel, value, found, stored, admits⟩
    · intro _
      refine ⟨channel, value, found, stored, ?_⟩
      rw [Json.field_set_same object]
      exact admits.again
  · unfold TakesKey
    rw [Json.field_set_other state _ same]

theorem applyKeys_eq_ok {keys : List String} (object : state.isObject = true) :
    (applyKeys library channels update keys state).1 = .ok ↔
      ∀ key ∈ keys, TakesKey channels state update key := by
  induction keys generalizing state with
  | nil => simp [applyKeys]
  | cons key keys ih =>
      rw [List.forall_mem_cons]
      by_cases takes : TakesKey channels state update key
      · obtain ⟨channel, value, found, stored, admits, step⟩ :=
          applyKeys_cons library keys takes
        rw [step, ih ((Json.isObject_set _ _ _).trans object), and_iff_right takes]
        apply forall₂_congr
        intro other _
        exact takesKey_set object found stored admits
      · have refused := applyKeys_refused library keys takes
        constructor
        · intro applied
          exact absurd applied refused.1
        · rintro ⟨taken, _⟩
          exact absurd taken takes

theorem applyUpdate_eq_ok :
    (applyUpdate library channels state update).1 = .ok ↔ Accepted channels state update := by
  unfold applyUpdate Accepted
  split
  next objects =>
    rw [Bool.and_eq_true] at objects
    rw [applyKeys_eq_ok objects.1]
    simp [objects]
  next notObjects =>
    simp only [reduceCtorEq, false_iff]
    rintro ⟨state, update, _⟩
    exact notObjects (by rw [state, update]; rfl)

theorem isObject_applyKeys (keys : List String) (state : Json) :
    (applyKeys library channels update keys state).2.isObject = state.isObject := by
  induction keys generalizing state with
  | nil => rfl
  | cons key keys ih =>
      rw [applyKeys]
      split
      next => rfl
      split
      next => rfl
      split
      next => rfl
      next => rw [ih, Json.isObject_set]

variable (library channels) in
theorem isObject_applyUpdate (state update : Json) :
    (applyUpdate library channels state update).2.isObject = state.isObject := by
  unfold applyUpdate
  split
  next => exact isObject_applyKeys _ _
  next => rfl

variable (library) in
theorem applyUpdate_refused (refused : RefusedAtOnce channels state update) :
    (applyUpdate library channels state update).1 ≠ .ok ∧
      (applyUpdate library channels state update).2 = state := by
  unfold applyUpdate
  split
  next objects =>
    rw [Bool.and_eq_true] at objects
    rcases refused with notObject | notObject | ⟨key, keys, first, notTaken⟩
    · exact absurd objects.1 (by simp [notObject])
    · exact absurd objects.2 (by simp [notObject])
    · rw [first]
      exact applyKeys_refused library keys notTaken
  next => exact ⟨by simp, rfl⟩

end StateGraph

end TurboAgent
