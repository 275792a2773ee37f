import StepFlow.Action
import StepFlow.Nested
import StepFlow.World

/-!
# Processors

A processor carries out the steps of one type. It gets the step and an invocation, which says in
which scope and region the step runs and under which identifiers. The last thing that a processor
can do is to launch one of the flows that the step owns, with further variables in scope; this is
its result, so that a processor itself never runs a step.
-/

namespace StepFlow

/-- What a processor gets for one step. -/
structure Invocation where
  host : Host
  scope : Scope World
  /-- The region that the flow was launched against. -/
  region : Option RegionId
  executionId : String
  actionId : String

/-- The places where a step can own a flow. -/
inductive Slot where
  | onResult
  | onSuccess
  | onError
deriving DecidableEq, Repr

/-- A flow to be run as the last part of a step, with variables that it sees. -/
structure Launch where
  slot : Slot
  bound : List (String × Value)

/-- Carries out the steps of one type. -/
structure Processor where
  type : ActionType
  description : String
  /-- A limit of its own for each step, in milliseconds. -/
  timeout : Option Nat
  run : Invocation → Action → Attempt (Option Launch)

namespace Invocation

def bindings (inv : Invocation) (w : World) : Bindings := inv.scope.lookup w

def evaluate {shape : Shape} (inv : Invocation) (field : ExprOr shape) :
    Attempt (Option shape.Carrier) :=
  ExceptT.lift (Task.read fun w => field.evaluate (inv.bindings w))

/-- The value of a field that may be absent, or a default. -/
def evaluateOr {shape : Shape} (inv : Invocation) (field : Option (ExprOr shape))
    (default : shape.Carrier) : Attempt shape.Carrier :=
  ExceptT.lift (Task.read fun w =>
    (field.bind fun field => field.evaluate (inv.bindings w)).getD default)

/-- The value of a field that the step cannot do without. -/
def require {shape : Shape} (inv : Invocation) (field : ExprOr shape) (name : String) :
    Attempt shape.Carrier := do
  match ← inv.evaluate field with
  | some a => pure a
  | none => throw (.invalidParameters (.unusable name))

/-- A document with every expression in it evaluated. -/
def document (inv : Invocation) (v : Value) : Attempt Value :=
  ExceptT.lift (Task.read fun w => Nested.evaluate (inv.bindings w) v)

/-- The region that a step targets: the flow's own one, or the nearest one of a name, where the name
of the application's region can also mean that. -/
def target (inv : Invocation) (name : Option String) : Attempt RegionId := do
  let regions ← ExceptT.lift (Task.read World.regions)
  match name with
  | none =>
    match inv.region with
    | some id => pure id
    | none => throw (.stateContextNotFound none)
  | some name =>
    match inv.region.bind fun id => regions.find? id name with
    | some id => pure id
    | none =>
      if name = appStateName then pure inv.host.appState
      else throw (.stateContextNotFound (some name))

/-- The names of updates with the values that they have before any of them is written. -/
def updates (inv : Invocation) (us : List StateUpdate) : Attempt (List (String × Value)) :=
  ExceptT.lift (Task.read fun w =>
    us.map fun u => (u.stateName, Nested.evaluate (inv.bindings w) u.newValue))

def change (id : RegionId) (change : Region → Region) : Attempt Unit :=
  ExceptT.lift (Task.modify (World.modifyRegion id change))

def perform (inv : Invocation) (e : Effect) : Attempt Value := inv.host.hand e

end Invocation

end StepFlow
