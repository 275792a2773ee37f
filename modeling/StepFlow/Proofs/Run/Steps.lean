import StepFlow.Executor

/-!
# Running the steps of a flow

The executor runs the steps of a flow one after another, and each of them with its own flows at
hand. So what is shown of a run is shown by induction on the steps that are left and on the flows of
the step in front of them. `Action.steps_induction` is this induction, for whatever is to be shown.
The equations below take a run apart along it.
-/

namespace StepFlow

namespace Action

def flowIn : Action → Slot → Option Flow
  | .modal _ _ onResult _, .onResult => onResult
  | .request _ onSuccess _ _, .onSuccess => onSuccess
  | .request _ _ onError _, .onError => onError
  | _, _ => none

theorem nested_of_flowIn {a : Action} {slot : Slot} {flow : Flow} (h : a.flowIn slot = some flow) :
    ∃ name, (name, some flow) ∈ a.nested := by
  cases a with
  | simple o c => cases h
  | modal kind view onResult c =>
    cases slot with
    | onResult =>
      cases h
      exact ⟨"onResult", List.mem_singleton_self _⟩
    | onSuccess => cases h
    | onError => cases h
  | request source onSuccess onError c =>
    cases slot with
    | onResult => cases h
    | onSuccess =>
      cases h
      exact ⟨"onSuccess", List.mem_cons_self⟩
    | onError =>
      cases h
      exact ⟨"onError", List.mem_cons_of_mem _ (List.mem_singleton_self _)⟩

theorem sizeOf_steps_lt {a : Action} {slot : Slot} {flow : Flow} (h : a.flowIn slot = some flow) :
    sizeOf flow.steps < sizeOf a := by
  obtain ⟨steps, inkWell⟩ := flow
  cases a with
  | simple o c => cases h
  | modal kind view onResult c =>
    cases slot <;> cases h
    simp only [modal.sizeOf_spec, Option.some.sizeOf_spec, FlowOf.mk.sizeOf_spec]
    omega
  | request source onSuccess onError c =>
    cases slot <;> cases h <;>
      simp only [request.sizeOf_spec, Option.some.sizeOf_spec, FlowOf.mk.sizeOf_spec] <;> omega

/-- What holds of no steps, and of a step and those behind it if it holds of these and of the flows
of the step, holds of all steps. -/
theorem steps_induction {P : List Action → Prop} (nil : P [])
    (cons : ∀ (a : Action) (rest : List Action),
      (∀ slot flow, a.flowIn slot = some flow → P flow.steps) → P rest → P (a :: rest)) :
    ∀ steps : List Action, P steps
  | [] => nil
  | a :: rest =>
    cons a rest (fun _ flow _ => steps_induction nil cons flow.steps)
      (steps_induction nil cons rest)
termination_by steps => sizeOf steps
decreasing_by
  · have smaller := sizeOf_steps_lt ‹_›
    simp only [List.cons.sizeOf_spec]
    omega
  · simp only [List.cons.sizeOf_spec]
    omega

end Action

namespace Executor

variable {ex : Executor} {setting : Setting}

theorem runSteps_cons (scope : Scope World) (index : Nat) (a : Action) (rest : List Action) :
    ex.runSteps setting scope index (a :: rest) =
      (ex.runStep setting scope index a).bind fun first =>
        (ex.runSteps setting scope (index + 1) rest).mapResult first.add := rfl

/-- A flow that is owned is run for its steps alone. -/
theorem runNested_eq (a : Action) (slot : Slot) (scope : Scope World) :
    ex.runNested setting a slot scope =
      match a.flowIn slot with
      | none => pure ()
      | some flow => (ex.runSteps setting scope 0 flow.steps).mapResult fun _ => () := by
  have owned (flow : Option Flow) : ex.runSlot setting scope flow =
      match flow with
      | none => pure ()
      | some flow => (ex.runSteps setting scope 0 flow.steps).mapResult fun _ => () := by
    cases flow <;> rfl
  cases a <;> cases slot <;> first | exact owned _ | rfl

/-- A step is run with its flows at hand. -/
theorem runStep_eq (a : Action) (scope : Scope World) (index : Nat) :
    ex.runStep setting scope index a = ex.step setting scope index a (ex.runNested setting a) := by
  cases a with
  | simple o c =>
    refine congrArg (ex.step setting scope index _) (funext fun slot => ?_)
    cases slot <;> rfl
  | modal kind view onResult c =>
    refine congrArg (ex.step setting scope index _) (funext fun slot => ?_)
    cases slot <;> rfl
  | request source onSuccess onError c =>
    refine congrArg (ex.step setting scope index _) (funext fun slot => ?_)
    cases slot <;> rfl

end Executor

end StepFlow
