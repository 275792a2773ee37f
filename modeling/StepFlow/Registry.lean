import StepFlow.Processor.BuiltIn

/-!
# The registry of processors

A registry holds at most one processor for each type of step. An executor needs one for every
built-in type; `Registry.missing?` names the first that is not there.
-/

namespace StepFlow

/-- Processors, at most one for each type. -/
abbrev Registry : Type := List Processor

namespace Registry

def builtIn : Registry := BuiltIn.all.map Processor.ofBuiltIn

/-- Adds a processor, in place of any for the same type. -/
def register (registry : Registry) (p : Processor) : Registry :=
  p :: registry.filter fun q => q.type ≠ p.type

def find? (registry : Registry) (type : ActionType) : Option Processor :=
  List.find? (fun p => p.type = type) registry

def has (registry : Registry) (type : ActionType) : Bool := (registry.find? type).isSome

/-- The types that have a processor, the built-in ones first and the others by name. -/
def types (registry : Registry) : List ActionType :=
  (registry.map Processor.type).mergeSort ActionType.before

/-- The types of the host that have a processor. -/
def hostTypes (registry : Registry) : List ActionType :=
  (registry.map Processor.type).filter ActionType.isCustom

/-- The first built-in type without a processor. -/
def missing? (registry : Registry) : Option BuiltIn :=
  BuiltIn.all.find? fun type => !registry.has (.builtIn type)

theorem missing?_builtIn : builtIn.missing? = none := by decide +kernel

/-- Nothing goes missing when a processor is put in front. -/
theorem missing?_cons {registry : Registry} (h : registry.missing? = none) (p : Processor) :
    missing? (p :: registry) = none := by
  rw [missing?, List.find?_eq_none] at h ⊢
  intro type mem
  have found := h type mem
  rw [has, find?] at found ⊢
  rw [List.find?_cons]
  cases decide (p.type = .builtIn type) with
  | true => simp
  | false => exact found

end Registry

end StepFlow
