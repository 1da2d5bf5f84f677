import TurboAgent.AgentCompiler.Linear

/-!
# The end of a template

What a Change or Repair plan comes to once its workflow has run.  Two functions read the result of
the workflow: one of them goes straight to an outcome, the other one gives a verify status that is
finished in a second step.  They treat a workflow that succeeds without a readable verify result
differently, each as its header has it.
-/

namespace TurboAgent.AgentCompiler

/-- `turbo_agent_template_plan_s`, without its DAG. -/
structure TemplatePlan where
  kind : PlanTemplate
  (planVersion maxReplans : UInt32)

/-- `turbo_agent_verify_status_t`. -/
inductive VerifyStatus where
  | passed
  | semanticFailure
  | executionFailure
  deriving DecidableEq

/-- `turbo_agent_template_outcome_t`. -/
inductive TemplateOutcome where
  | completed
  | replanRequired
  | verifyFailed
  | replanLimitReached
  | executionFailed
  | invalidArgument
  deriving DecidableEq

/-- `turbo_agent_template_finish_verify`. -/
def finishVerify (plan : Option TemplatePlan) (status : VerifyStatus) : TemplateOutcome :=
  match plan with
  | none => .invalidArgument
  | some plan =>
      match status with
      | .passed => .completed
      | .executionFailure => .executionFailed
      | .semanticFailure =>
          if plan.kind ≠ .repair then .verifyFailed
          else if plan.planVersion ≤ plan.maxReplans then .replanRequired
          else .replanLimitReached

/-- `turbo_agent_template_verify_status_from_praktor_result`. -/
def verifyStatusFromPraktorResult (praktorResult : Option Json) : VerifyStatus :=
  match praktorResult with
  | some (.object fields) =>
      if Json.getString (.object fields) "workflow_status" ≠ some "success" then .executionFailure
      else
        match Json.findField fields "outputs" with
        | some (.object outputs) =>
            match Json.findField outputs "verify_result" with
            | some (.object verifyResult) =>
                match Json.findField verifyResult "verified" with
                | some (.bool verified) => if verified then .passed else .semanticFailure
                | _ => .executionFailure
            | _ => .executionFailure
        | _ => .executionFailure
  | _ => .executionFailure

/-- `turbo_agent_template_finish_praktor_result`. -/
def finishPraktorResult (plan : Option TemplatePlan) (executionResult : Option Json) :
    TemplateOutcome :=
  match plan, executionResult with
  | some plan, some (.object fields) =>
      if Json.getString (.object fields) "workflow_status" ≠ some "success" then
        finishVerify (some plan) .executionFailure
      else
        let outputs := Json.findField fields "outputs"
        let verifyResult := (outputs.filter Json.isObject).bind fun outputs =>
          outputs.field "verify_result"
        let verified := (verifyResult.filter Json.isObject).bind fun verifyResult =>
          verifyResult.field "verified"
        match verified with
        | some (.bool verified) =>
            finishVerify (some plan) (if verified then .passed else .semanticFailure)
        | _ => .verifyFailed
  | _, _ => .invalidArgument

def Succeeded (result : Json) : Prop := result.getString "workflow_status" = some "success"

/-- What the verify step of a workflow reports. -/
def Verified (result : Json) (verified : Bool) : Prop :=
  ∃ outputs verifyResult, result.field "outputs" = some (.object outputs) ∧
    Json.findField outputs "verify_result" = some (.object verifyResult) ∧
    Json.findField verifyResult "verified" = some (.bool verified)

section

variable {plan : TemplatePlan} {fields : List (String × Json)}

theorem verifyStatus_failed (failed : ¬Succeeded (.object fields)) :
    verifyStatusFromPraktorResult (some (.object fields)) = .executionFailure :=
  if_pos failed

theorem verifyStatus_verified (succeeded : Succeeded (.object fields)) {verified : Bool}
    (reported : Verified (.object fields) verified) :
    verifyStatusFromPraktorResult (some (.object fields)) =
      if verified then .passed else .semanticFailure := by
  obtain ⟨outputs, verifyResult, first, second, third⟩ := reported
  rw [Json.field] at first
  simp only [verifyStatusFromPraktorResult, first, second, third]
  exact if_neg (not_not.mpr succeeded)

theorem verifyStatus_silent (silent : ∀ verified, ¬Verified (.object fields) verified) :
    verifyStatusFromPraktorResult (some (.object fields)) = .executionFailure := by
  unfold verifyStatusFromPraktorResult
  dsimp only
  split
  next => rfl
  split
  next outputs first =>
    split
    next verifyResult second =>
      split
      next verified third => exact absurd ⟨outputs, verifyResult, first, second, third⟩ (silent verified)
      next => rfl
    next => rfl
  next => rfl

theorem finishPraktor_failed (failed : ¬Succeeded (.object fields)) :
    finishPraktorResult (some plan) (some (.object fields)) = .executionFailed :=
  if_pos failed

theorem finishPraktor_verified (succeeded : Succeeded (.object fields)) {verified : Bool}
    (reported : Verified (.object fields) verified) :
    finishPraktorResult (some plan) (some (.object fields)) =
      finishVerify (some plan) (if verified then .passed else .semanticFailure) := by
  obtain ⟨outputs, verifyResult, first, second, third⟩ := reported
  rw [Json.field] at first
  simp only [finishPraktorResult, first, Option.filter_some, Json.isObject, if_true,
    Option.bind_some, Json.field, second, third]
  exact if_neg (not_not.mpr succeeded)

theorem finishPraktor_silent (succeeded : Succeeded (.object fields))
    (silent : ∀ verified, ¬Verified (.object fields) verified) :
    finishPraktorResult (some plan) (some (.object fields)) = .verifyFailed := by
  unfold finishPraktorResult
  have success : Json.getString (.object fields) "workflow_status" = some "success" := succeeded
  dsimp only
  rw [if_neg (not_not.mpr success)]
  split
  next verified read =>
    -- Each step of the chain gives an object with a field.
    rw [Option.bind_eq_some_iff] at read
    obtain ⟨verifyResult, second, third⟩ := read
    obtain ⟨second, object'⟩ := Option.filter_eq_some_iff.mp second
    obtain ⟨outputs, first, second⟩ := Option.bind_eq_some_iff.mp second
    obtain ⟨first, object⟩ := Option.filter_eq_some_iff.mp first
    cases outputs with
    | object outputs =>
        cases verifyResult with
        | object verifyResult =>
            exact absurd ⟨outputs, verifyResult, first, second, third⟩ (silent verified)
        | _ => cases object'
    | _ => cases object
  next => rfl

end

/-- The two ways to the outcome of a plan agree on a result unless its workflow has succeeded and
its verify step reports nothing.  There the one fails the verification and the other one the execution,
and neither asks for another plan. -/
theorem finishers_agree (plan : TemplatePlan) (fields : List (String × Json)) :
    (finishPraktorResult (some plan) (some (.object fields)) =
        finishVerify (some plan) (verifyStatusFromPraktorResult (some (.object fields))) ↔
      (Succeeded (.object fields) → ∃ verified, Verified (.object fields) verified)) ∧
    (Succeeded (.object fields) → (∀ verified, ¬Verified (.object fields) verified) →
      finishPraktorResult (some plan) (some (.object fields)) = .verifyFailed ∧
      finishVerify (some plan) (verifyStatusFromPraktorResult (some (.object fields))) =
        .executionFailed) := by
  have apart : Succeeded (.object fields) → (∀ verified, ¬Verified (.object fields) verified) →
      finishPraktorResult (some plan) (some (.object fields)) = .verifyFailed ∧
      finishVerify (some plan) (verifyStatusFromPraktorResult (some (.object fields))) =
        .executionFailed := by
    intro succeeded silent
    rw [finishPraktor_silent succeeded silent, verifyStatus_silent silent]
    exact ⟨rfl, rfl⟩
  refine ⟨⟨fun same succeeded => ?_, fun reported => ?_⟩, apart⟩
  · by_contra silent
    obtain ⟨left, right⟩ := apart succeeded (not_exists.mp silent)
    rw [left, right] at same
    cases same
  · by_cases succeeded : Succeeded (.object fields)
    · obtain ⟨verified, reported⟩ := reported succeeded
      rw [finishPraktor_verified succeeded reported, verifyStatus_verified succeeded reported]
    · rw [finishPraktor_failed succeeded, verifyStatus_failed succeeded]
      rfl

/-- A repair that has two plans left, for a result without a verify result. -/
theorem finishers_differ :
    finishPraktorResult (some ⟨.repair, 1, 2⟩)
        (some (.object [("workflow_status", .string "success"), ("outputs",
          .object [("verify_result", .object [])])])) = .verifyFailed ∧
    finishVerify (some ⟨.repair, 1, 2⟩) (verifyStatusFromPraktorResult
        (some (.object [("workflow_status", .string "success"), ("outputs",
          .object [("verify_result", .object [])])]))) = .executionFailed := by
  decide

end TurboAgent.AgentCompiler
