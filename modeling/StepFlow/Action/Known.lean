import StepFlow.Action.Descriptor

/-!
# Steps of unknown types

A step of a type that is neither built in nor registered by the host is unknown. Depending on the
policy, a flow is freed of such steps by leaving them out or by replacing each with a step that
does nothing and keeps the tag. Both reach nested flows, and a flow without steps is no flow,
whatever it was nested in.
-/

namespace StepFlow

/-- What becomes of steps of unknown types. -/
inductive UnknownPolicy where
  | drop
  | fallback
deriving DecidableEq, Repr

/-- The words for policies. -/
def UnknownPolicy.vocabulary : Vocabulary UnknownPolicy where
  all := [.drop, .fallback]
  word
    | .drop => "drop"
    | .fallback => "fallback"

/-- What is known about types of steps, and what becomes of unknown ones. -/
structure KnownTypes where
  policy : UnknownPolicy
  /-- The types that the host registered. -/
  host : List ActionType
deriving DecidableEq

namespace KnownTypes

def isKnown (known : KnownTypes) : ActionType → Bool
  | .builtIn _ => true
  | type => known.host.contains type

/-- What becomes of an operation: itself if its type is known. -/
def operation? (known : KnownTypes) : Operation → Option Operation
  | .custom tag fields =>
    if known.isKnown (ActionType.ofHostTag tag) then some (.custom tag fields)
    else
      match known.policy with
      | .drop => none
      | .fallback => some (.noop (some tag))
  | o => some o

mutual

def action? (known : KnownTypes) : Action → Option Action
  | .simple o c => (operation? known o).map fun o => .simple o c
  | .modal kind view onResult c => some (.modal kind view (slot known onResult) c)
  | .request source onSuccess onError c =>
    some (.request source (slot known onSuccess) (slot known onError) c)

def slot (known : KnownTypes) : Option (FlowOf Action) → Option (FlowOf Action)
  | none => none
  | some nested => flow? known nested

/-- What becomes of a flow; none if no step is left. -/
def flow? (known : KnownTypes) : FlowOf Action → Option (FlowOf Action)
  | ⟨actions, inkWell⟩ =>
    match steps known actions with
    | [] => none
    | first :: rest => some ⟨first :: rest, inkWell⟩

def steps (known : KnownTypes) : List Action → List Action
  | [] => []
  | a :: rest =>
    match action? known a with
    | some kept => kept :: steps known rest
    | none => steps known rest

end

end KnownTypes

/-- A flow without unknown steps, if any step is left. -/
def Flow.normalize (known : KnownTypes) (flow : Flow) : Option Flow := known.flow? flow

/-- Reads a flow and frees it of unknown steps. -/
def Flow.ofValueWith? (known : KnownTypes) (v : Value) : Option Flow :=
  (Flow.ofValue? v).bind (Flow.normalize known)

end StepFlow
