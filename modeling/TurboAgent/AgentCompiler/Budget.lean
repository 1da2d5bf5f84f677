import TurboAgent.AgentCompiler.Config

/-!
# The budget of arguments in `size_t`

The walk that measures arguments, with the counters that the code has.  It counts what the walk
in natural numbers counts: before a counter could wrap, the number of nodes ends the walk.
-/

namespace TurboAgent.AgentCompiler

/-- The limits on arguments in `turbo_agent_compiler_config_t`. -/
structure Limits where
  (maxArgumentBytes maxArgumentNodes maxArgumentDepth : UInt64)

/-- `*nodes` and `*bytes`, and whether a sum on the way was too large for `size_t`. -/
structure Counters where
  (nodes bytes : UInt64)
  wrapped : Bool
  deriving DecidableEq

/-- A sum that `size_t` does not hold. -/
def sumWraps (left : UInt64) (right : Nat) : Bool := UInt64.size ≤ left.toNat + right

def Counters.adding (counters : Counters) (left : UInt64) (right : Nat) : Counters :=
  { counters with wrapped := counters.wrapped || sumWraps left right }

section

variable (numberText : Int → Nat → List UInt8) (limits : Limits)

/-- `dag_budget_add` of a length that `strlen` or `json_number_text` gives. -/
def addBytes (amount : Nat) (counters : Counters) : Option Counters :=
  if limits.maxArgumentBytes < counters.bytes ∨
      (limits.maxArgumentBytes - counters.bytes).toNat < amount then
    none
  else some { counters.adding counters.bytes amount with
    bytes := counters.bytes + UInt64.ofNat amount }

/-- The part of `dag_arguments_within_limits` before the switch. -/
def addNode (depth : UInt64) (counters : Counters) : Option Counters :=
  if limits.maxArgumentDepth < depth ∨ limits.maxArgumentNodes ≤ counters.nodes then none
  else some { counters.adding counters.nodes 1 with nodes := counters.nodes + 1 }

mutual
/-- `dag_arguments_within_limits`. -/
def argumentsWithinLimits (depth : UInt64) (counters : Counters) : Json → Option Counters
  | .null => addNode limits depth counters
  | .bool _ => addNode limits depth counters
  | .number mantissa exponent =>
      (addNode limits depth counters).bind fun entered =>
        addBytes limits (numberText mantissa exponent).length entered
  | .string text =>
      (addNode limits depth counters).bind fun entered =>
        addBytes limits (utf8 (ToolSchema.cString text)).length entered
  | .array elements =>
      (addNode limits depth counters).bind fun entered =>
        elementArgumentsWithinLimits depth entered elements
  | .object fields =>
      (addNode limits depth counters).bind fun entered =>
        fieldArgumentsWithinLimits depth entered fields

def elementArgumentsWithinLimits (depth : UInt64) (counters : Counters) :
    List Json → Option Counters
  | [] => some counters
  | element :: elements =>
      (argumentsWithinLimits (depth + 1) (counters.adding depth 1) element).bind fun next =>
        elementArgumentsWithinLimits depth next elements

def fieldArgumentsWithinLimits (depth : UInt64) (counters : Counters) :
    List (String × Json) → Option Counters
  | [] => some counters
  | (key, value) :: fields =>
      (addBytes limits (utf8 (ToolSchema.cString key)).length counters).bind fun named =>
        (argumentsWithinLimits (depth + 1) (named.adding depth 1) value).bind fun next =>
          fieldArgumentsWithinLimits depth next fields
end

end

/-! ## The counters are numbers -/

def Limits.config (limits : Limits) : Config where
  allowedCapabilities := []
  denyUnlistedCapabilities := false
  maxSourceBytes := 0
  maxArgumentBytes := limits.maxArgumentBytes.toNat
  maxArgumentNodes := limits.maxArgumentNodes.toNat
  maxArgumentDepth := limits.maxArgumentDepth.toNat

def Usage.counters (usage : Usage) : Counters :=
  ⟨UInt64.ofNat usage.nodes, UInt64.ofNat usage.bytes, false⟩

section

variable {numberText : Int → Nat → List UInt8} {limits : Limits}

theorem toNat_ofNat_le {count : Nat} {limit : UInt64} (small : count ≤ limit.toNat) :
    (UInt64.ofNat count).toNat = count := by
  apply UInt64.toNat_ofNat_of_lt
  exact Nat.lt_of_le_of_lt small limit.toNat_lt

theorem adding_of_le {usage : Usage} {count amount : Nat} {limit : UInt64}
    (small : count + amount ≤ limit.toNat) :
    usage.counters.adding (UInt64.ofNat count) amount = usage.counters := by
  have held := toNat_ofNat_le (Nat.le_trans (Nat.le_add_right count amount) small)
  have below := limit.toNat_lt
  have exact : sumWraps (UInt64.ofNat count) amount = false := by
    simp only [sumWraps, held, decide_eq_false_iff_not, UInt64.size]
    omega
  simp only [Counters.adding, exact, Bool.or_false]

variable {usage : Usage}

theorem addBytes_eq (within : usage.Within limits.config) (amount : Nat) :
    addBytes limits amount usage.counters =
      (budgetAdd limits.config amount usage).map Usage.counters := by
  have small : usage.bytes ≤ limits.maxArgumentBytes.toNat := within.bytes
  have held : usage.counters.bytes.toNat = usage.bytes := toNat_ofNat_le small
  have noMore : ¬ limits.maxArgumentBytes < usage.counters.bytes := by
    rw [UInt64.lt_iff_toNat_lt, held]
    omega
  have rest : (limits.maxArgumentBytes - usage.counters.bytes).toNat =
      limits.maxArgumentBytes.toNat - usage.bytes := by
    rw [UInt64.toNat_sub_of_le _ _ (UInt64.not_lt.mp noMore), held]
  simp only [addBytes, budgetAdd, noMore, rest, false_or, Limits.config, Nat.not_lt.mpr small]
  split
  next => rfl
  next fits =>
    have sum : usage.bytes + amount ≤ limits.maxArgumentBytes.toNat := by omega
    have unwrapped := @adding_of_le usage _ _ _ sum
    simp only [Option.map_some, Usage.counters, UInt64.ofNat_add] at unwrapped ⊢
    rw [unwrapped]

variable {depth : Nat}

theorem addNode_eq (within : usage.Within limits.config) (shallow : depth ≤ usage.nodes) :
    addNode limits (UInt64.ofNat depth) usage.counters =
      (enterNode limits.config depth usage).map Usage.counters := by
  have few : usage.nodes ≤ limits.maxArgumentNodes.toNat := within.nodes
  have held : usage.counters.nodes.toNat = usage.nodes := toNat_ofNat_le few
  have deep : (UInt64.ofNat depth).toNat = depth := toNat_ofNat_le (Nat.le_trans shallow few)
  have alike : (limits.maxArgumentDepth < UInt64.ofNat depth ∨
      limits.maxArgumentNodes ≤ usage.counters.nodes) ↔
        (limits.config.maxArgumentDepth < depth ∨
          limits.config.maxArgumentNodes ≤ usage.nodes) := by
    rw [UInt64.lt_iff_toNat_lt, UInt64.le_iff_toNat_le, held, deep]
    rfl
  rw [addNode, enterNode]
  by_cases full : limits.config.maxArgumentDepth < depth ∨
      limits.config.maxArgumentNodes ≤ usage.nodes
  · rw [if_pos full, if_pos (alike.mpr full)]
    rfl
  · have sum : usage.nodes + 1 ≤ limits.maxArgumentNodes.toNat :=
      Nat.lt_of_not_le fun reached => full (.inr reached)
    have unwrapped := @adding_of_le usage _ _ _ sum
    rw [if_neg full, if_neg fun full' => full (alike.mp full')]
    simp only [Option.map_some, Usage.counters, UInt64.ofNat_add] at unwrapped ⊢
    rw [unwrapped]
    rfl

theorem enterNode_some {entered : Usage} (within : usage.Within limits.config)
    (shallow : depth ≤ usage.nodes) (enters : enterNode limits.config depth usage = some entered) :
    entered.Within limits.config ∧ depth ≤ limits.config.maxArgumentDepth ∧
      depth + 1 ≤ entered.nodes := by
  obtain ⟨rfl, near, fits⟩ := (enterNode_within within).mp enters
  exact ⟨fits, near, Nat.succ_le_succ shallow⟩

theorem addNode_walk {counts : Counters → Option Counters} {walk : Usage → Option Usage}
    (within : usage.Within limits.config) (shallow : depth ≤ usage.nodes)
    (alike : ∀ entered : Usage, entered.Within limits.config →
      depth ≤ limits.config.maxArgumentDepth → depth + 1 ≤ entered.nodes →
      counts entered.counters = (walk entered).map Usage.counters) :
    (addNode limits (UInt64.ofNat depth) usage.counters).bind counts =
      ((enterNode limits.config depth usage).bind walk).map Usage.counters := by
  rw [addNode_eq within shallow]
  cases enters : enterNode limits.config depth usage with
  | none => rfl
  | some entered =>
      obtain ⟨fits, near, below⟩ := enterNode_some within shallow enters
      exact alike entered fits near below

theorem adding_depth (within : usage.Within limits.config) (below : depth + 1 ≤ usage.nodes) :
    usage.counters.adding (UInt64.ofNat depth) 1 = usage.counters :=
  adding_of_le (Nat.le_trans below within.nodes)

mutual
theorem argumentsWithinLimits_eq {depth : Nat} {usage : Usage}
    (within : usage.Within limits.config) (shallow : depth ≤ usage.nodes) :
    (value : Json) →
      argumentsWithinLimits numberText limits (UInt64.ofNat depth) usage.counters value =
        (withinLimits numberText limits.config depth usage value).map Usage.counters
  | .null => addNode_eq within shallow
  | .bool _ => addNode_eq within shallow
  | .number _ _ => addNode_walk within shallow fun _ fits _ _ => addBytes_eq fits _
  | .string _ => addNode_walk within shallow fun _ fits _ _ => addBytes_eq fits _
  | .array elements =>
      addNode_walk within shallow fun _ fits near below =>
        elementArgumentsWithinLimits_eq fits near below elements
  | .object fields =>
      addNode_walk within shallow fun _ fits near below =>
        fieldArgumentsWithinLimits_eq fits near below fields

theorem elementArgumentsWithinLimits_eq {depth : Nat} {usage : Usage}
    (within : usage.Within limits.config) (near : depth ≤ limits.config.maxArgumentDepth)
    (below : depth + 1 ≤ usage.nodes) : (elements : List Json) →
      elementArgumentsWithinLimits numberText limits (UInt64.ofNat depth) usage.counters elements =
        (elementsWithinLimits numberText limits.config (depth + 1) usage elements).map
          Usage.counters
  | [] => rfl
  | element :: elements => by
      have here := argumentsWithinLimits_eq within below element
      rw [elementArgumentsWithinLimits, elementsWithinLimits, adding_depth within below]
      rw [UInt64.ofNat_add] at here
      cases walked : withinLimits numberText limits.config (depth + 1) usage element with
      | none =>
          rw [walked] at here
          exact congrArg (Option.bind · _) here
      | some next =>
          rw [walked] at here
          obtain ⟨rfl, -, fits⟩ := (withinLimits_eq_some within element).mp walked
          refine (congrArg (Option.bind · _) here).trans ?_
          exact elementArgumentsWithinLimits_eq fits near (Nat.le_add_right_of_le below) elements

theorem fieldArgumentsWithinLimits_eq {depth : Nat} {usage : Usage}
    (within : usage.Within limits.config) (near : depth ≤ limits.config.maxArgumentDepth)
    (below : depth + 1 ≤ usage.nodes) : (fields : List (String × Json)) →
      fieldArgumentsWithinLimits numberText limits (UInt64.ofNat depth) usage.counters fields =
        (fieldsWithinLimits numberText limits.config (depth + 1) usage fields).map Usage.counters
  | [] => rfl
  | (key, value) :: fields => by
      rw [fieldArgumentsWithinLimits, fieldsWithinLimits, addBytes_eq within]
      cases counted : budgetAdd limits.config (utf8 (ToolSchema.cString key)).length usage with
      | none => rfl
      | some named =>
          obtain ⟨rfl, small⟩ := (budgetAdd_eq_some within.bytes).mp counted
          have fits : Usage.Within
              ⟨usage.nodes, usage.bytes + (utf8 (ToolSchema.cString key)).length⟩ limits.config :=
            ⟨within.nodes, small⟩
          have here := argumentsWithinLimits_eq fits below value
          rw [Option.map_some, Option.bind_some, Option.bind_some, adding_depth fits below]
          rw [UInt64.ofNat_add] at here
          cases walked : withinLimits numberText limits.config (depth + 1) _ value with
          | none =>
              rw [walked] at here
              exact congrArg (Option.bind · _) here
          | some next =>
              rw [walked] at here
              obtain ⟨rfl, -, fits'⟩ := (withinLimits_eq_some fits value).mp walked
              refine (congrArg (Option.bind · _) here).trans ?_
              exact fieldArgumentsWithinLimits_eq fits' near (Nat.le_add_right_of_le below) fields
end

end

/-! ## Exactness -/

/-- A text without NUL, or an object whose keys have none. -/
def PlainTexts : Json → Prop
  | .string text => noNul text = true
  | .object fields => ∀ field ∈ fields, noNul field.1 = true
  | _ => True

section

open ToolSchema (Everywhere cString cString_eq)

variable {numberText : Int → Nat → List UInt8}

-- Nothing is lost when texts without NUL are read as C strings.
mutual
theorem textBytes_plain : (value : Json) → Everywhere PlainTexts value →
    textBytes numberText cString value = textBytes numberText id value
  | .null, _ => rfl
  | .bool _, _ => rfl
  | .number _ _, _ => rfl
  | .string text, plain => by
      rw [textBytes, textBytes, cString_eq plain.here]
      rfl
  | .array elements, plain =>
      elementsTextBytes_plain elements fun _ member => plain.inside (.element member)
  | .object fields, plain =>
      fieldsTextBytes_plain fields plain.here fun _ member => plain.inside (.field member)

theorem elementsTextBytes_plain : (elements : List Json) →
    (∀ element ∈ elements, Everywhere PlainTexts element) →
    elementsTextBytes numberText cString elements = elementsTextBytes numberText id elements
  | [], _ => rfl
  | element :: elements, plain => by
      obtain ⟨first, others⟩ := List.forall_mem_cons.mp plain
      rw [elementsTextBytes, elementsTextBytes, textBytes_plain element first,
        elementsTextBytes_plain elements others]

theorem fieldsTextBytes_plain : (fields : List (String × Json)) →
    (∀ field ∈ fields, noNul field.1 = true) →
    (∀ field ∈ fields, Everywhere PlainTexts field.2) →
    fieldsTextBytes numberText cString fields = fieldsTextBytes numberText id fields
  | [], _, _ => rfl
  | (key, value) :: fields, named, plain => by
      obtain ⟨name, names⟩ := List.forall_mem_cons.mp named
      obtain ⟨first, others⟩ := List.forall_mem_cons.mp plain
      rw [fieldsTextBytes, fieldsTextBytes, cString_eq name, textBytes_plain value first,
        fieldsTextBytes_plain fields names others]
      rfl
end

end

/-- A value whose keys and strings have no NUL is admitted when its nodes, the bytes of its keys,
strings and number texts, and its depth are within the limits.  Whatever is admitted is counted
without a wrap. -/
theorem argumentsWithinLimits_exact (numberText : Int → Nat → List UInt8) (limits : Limits)
    (value : Json) :
    (ToolSchema.Everywhere PlainTexts value →
      ((argumentsWithinLimits numberText limits 0 ⟨0, 0, false⟩ value).isSome ↔
        nodeCount value ≤ limits.maxArgumentNodes.toNat ∧
        textBytes numberText id value ≤ limits.maxArgumentBytes.toNat ∧
        ToolSchema.depth value ≤ limits.maxArgumentDepth.toNat)) ∧
    ∀ counters, argumentsWithinLimits numberText limits 0 ⟨0, 0, false⟩ value = some counters →
      counters.wrapped = false ∧ counters.nodes.toNat = nodeCount value ∧
        (ToolSchema.Everywhere PlainTexts value →
          counters.bytes.toNat = textBytes numberText id value) := by
  have start : Usage.Within ⟨0, 0⟩ limits.config := ⟨Nat.zero_le _, Nat.zero_le _⟩
  have exact : argumentsWithinLimits numberText limits 0 ⟨0, 0, false⟩ value =
      (withinLimits numberText limits.config 0 ⟨0, 0⟩ value).map Usage.counters :=
    argumentsWithinLimits_eq start (Nat.zero_le 0) value
  rw [exact, Option.isSome_map]
  constructor
  · intro plain
    rw [← textBytes_plain value plain]
    exact withinLimits_isSome
  · intro counters admitted
    obtain ⟨usage, walked, rfl⟩ := Option.map_eq_some_iff.mp admitted
    obtain ⟨rfl, -, fits⟩ := (withinLimits_eq_some start value).mp walked
    simp only [Nat.zero_add] at fits ⊢
    refine ⟨rfl, toNat_ofNat_le fits.nodes, fun plain => ?_⟩
    rw [← textBytes_plain value plain]
    exact toNat_ofNat_le fits.bytes

/-- A number counts with its text: without any key and string it can be too large. -/
theorem numberText_counts :
    ¬((argumentsWithinLimits (fun _ _ => [49, 50, 51, 52, 53]) ⟨3, 1, 1⟩ 0 ⟨0, 0, false⟩
        (.number 12345 0)).isSome ↔
      nodeCount (.number 12345 0) ≤ (1 : UInt64).toNat ∧
      textBytes (fun _ _ => []) id (.number 12345 0) ≤ (3 : UInt64).toNat ∧
      ToolSchema.depth (.number 12345 0) ≤ (1 : UInt64).toNat) := by
  decide

end TurboAgent.AgentCompiler
