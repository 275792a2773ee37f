import StepFlow.Executor

/-!
# Registries that grow or are made over

A processor that is registered is found for its type in place of any before it. If each processor of
a registry is made over into one for the same type, the types that have a processor stay the same,
and steps are handed to the processors as they are made over.
-/

namespace StepFlow

namespace Registry

/-- A processor that is registered is found for its type; the others are found as before. -/
theorem find?_register (registry : Registry) (p : Processor) (type : ActionType) :
    (registry.register p).find? type = if p.type = type then some p else registry.find? type := by
  unfold register find?
  by_cases htype : p.type = type
  · rw [if_pos htype]
    exact List.find?_cons_of_pos (decide_eq_true htype)
  · rw [if_neg htype, List.find?_cons_of_neg (by simpa using htype), List.find?_filter]
    refine congrArg (List.find? · registry) (funext fun q => ?_)
    by_cases hq : q.type = type
    · simp [hq, Ne.symm htype]
    · simp [hq]

theorem find?_builtIn (type : BuiltIn) :
    builtIn.find? (.builtIn type) = some (Processor.ofBuiltIn type) := by
  cases type <;> rfl

/-- Processors for types of the host leave those of the built-in types alone. -/
theorem find?_registerAll {ps : List Processor} (custom : ∀ p ∈ ps, p.type.isCustom = true)
    (registry : Registry) (type : BuiltIn) :
    (ps.foldl register registry).find? (.builtIn type) = registry.find? (.builtIn type) := by
  induction ps generalizing registry with
  | nil => rfl
  | cons p rest ih =>
    have hne : p.type ≠ .builtIn type := by
      intro h
      have hp := custom p List.mem_cons_self
      rw [h] at hp
      cases hp
    rw [List.foldl_cons, ih fun q hq => custom q (List.mem_cons_of_mem _ hq), find?_register,
      if_neg hne]

section Map

variable (registry : Registry) (f : Processor → Processor) (same : ∀ p, (f p).type = p.type)

include same

theorem find?_map (type : ActionType) :
    find? (registry.map f) type = (registry.find? type).map f := by
  rw [find?, find?, List.find?_map]
  simp only [Function.comp_def, same]

theorem missing?_map : missing? (registry.map f) = registry.missing? := by
  simp only [missing?, has, find?_map registry f same, Option.isSome_map]

end Map

end Registry

theorem Executor.resolve_map (ex ex' : Executor) (f : Processor → Processor)
    (same : ∀ p, (f p).type = p.type) (registry : ex'.registry = ex.registry.map f)
    (config : ex'.config = ex.config) (type : ActionType) :
    ex'.resolve type = (ex.resolve type).map f := by
  rw [resolve, resolve, registry, config, ex.registry.find?_map f same,
    ex.registry.find?_map f same]
  cases ex.registry.find? type with
  | some p => rfl
  | none => cases ex.config.unknownActions <;> rfl

end StepFlow
