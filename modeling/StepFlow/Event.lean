import StepFlow.ActionError

/-!
# Events of a run

What a run tells those who follow it. Every execution of a flow and every dispatch of a step has an
identifier of its own; the steps of nested flows report under the execution that launched them.
-/

namespace StepFlow

/-- How many steps of a flow came to which end. -/
structure Counts where
  completed : Nat
  failed : Nat
  skipped : Nat
deriving DecidableEq, Repr

namespace Counts

def zero : Counts := ⟨0, 0, 0⟩

def oneCompleted : Counts := ⟨1, 0, 0⟩

def oneFailed : Counts := ⟨0, 1, 0⟩

def oneSkipped : Counts := ⟨0, 0, 1⟩

def add (a b : Counts) : Counts :=
  ⟨a.completed + b.completed, a.failed + b.failed, a.skipped + b.skipped⟩

end Counts

/-- A step as an event names it. -/
structure StepRef where
  executionId : String
  actionId : String
  /-- The name of the type. -/
  actionType : String
  /-- The place in the flow, from zero. -/
  index : Nat
deriving DecidableEq, Repr

inductive Event where
  | flowStarted (executionId : String) (steps : Nat)
  /-- The step is disabled, or of an unknown type and dropped. -/
  | actionSkipped (step : StepRef)
  /-- The step was handed to its processor. -/
  | actionStarted (step : StepRef)
  | actionCompleted (step : StepRef) (durationMs : Nat)
  | actionFailed (step : StepRef) (error : ActionError)
  /-- Every step was attempted. -/
  | flowCompleted (executionId : String) (summary : Counts)
deriving DecidableEq

namespace StepRef

def fields (step : StepRef) : List (String × Value) :=
  [("executionId", .string step.executionId), ("actionId", .string step.actionId),
    ("actionType", .string step.actionType), ("index", .ofNat step.index)]

end StepRef

def Counts.toValue (c : Counts) : Value :=
  .ofEntries [("completed", .ofNat c.completed), ("failed", .ofNat c.failed),
    ("skipped", .ofNat c.skipped)]

namespace Event

def kind : Event → String
  | .flowStarted _ _ => "flowStarted"
  | .actionSkipped _ => "actionSkipped"
  | .actionStarted _ => "actionStarted"
  | .actionCompleted _ _ => "actionCompleted"
  | .actionFailed _ _ => "actionFailed"
  | .flowCompleted _ _ => "flowCompleted"

def fields : Event → List (String × Value)
  | .flowStarted id steps => [("executionId", .string id), ("steps", .ofNat steps)]
  | .actionSkipped step | .actionStarted step => step.fields
  | .actionCompleted step durationMs => step.fields ++ [("durationMs", .ofNat durationMs)]
  | .actionFailed step error => step.fields ++ [("error", .string error.message)]
  | .flowCompleted id summary => [("executionId", .string id), ("summary", summary.toValue)]

def toValue (e : Event) : Value := .ofEntries (("event", .string e.kind) :: e.fields)

end Event

end StepFlow
