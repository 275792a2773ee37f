import StepFlow.Proofs.Action.Known
import StepFlow.Proofs.Registry
import StepFlow.Proofs.Run.Normalized

/-!
# Which processor a step is handed to

A flow that an executor reads has steps of known types only, at every depth: built-in types,
each of which has its own processor, and types of the host for which one is registered. So each
step is handed to a processor of the step's own type. What an executor would do with a step of
an unknown type, and what a processor would do with a step of another type, then makes no
difference to any run.
-/

namespace StepFlow

/-! ## Runs of the same steps by two executors -/

/-- The processor, made to do something else with steps that are not of its type. -/
def Processor.straying (p : Processor) (astray : Invocation → Action → Attempt (Option Launch)) :
    Processor :=
  { p with run := fun inv a => if a.type = p.type then p.run inv a else astray inv a }

namespace Executor

variable {ex ex' : Executor}

/-- Two executors hand a step to processors that do the same with it, within the same time. -/
def HandsAlike (ex ex' : Executor) (a : Action) : Prop :=
  ∃ p p', ex.resolve a.type = some p ∧ ex'.resolve a.type = some p' ∧
    ex.limitFor p = ex'.limitFor p' ∧ ∀ inv, p.run inv a = p'.run inv a

theorem step_congr {a : Action} (h : HandsAlike ex ex' a) (setting : Setting) (scope : Scope World)
    (index : Nat) {nested nested' : Slot → Scope World → Task World Unit}
    (hnested : nested = nested') :
    ex.step setting scope index a nested = ex'.step setting scope index a nested' := by
  obtain ⟨p, p', hp, hp', hlimit, hrun⟩ := h
  subst hnested
  simp only [step, hp, hp', dispatch, hlimit, attempt, hrun]

theorem runSteps_congr (setting : Setting) {actions : List Action}
    (scope : Scope World) (index : Nat)
    (h : ∀ a, FlowOf.Holds a ⟨actions, false⟩ → HandsAlike ex ex' a) :
    ex.runSteps setting scope index actions = ex'.runSteps setting scope index actions := by
  induction actions using Action.steps_induction generalizing scope index with
  | nil => rfl
  | cons a rest flows ih =>
    have first : ex.runStep setting scope index a = ex'.runStep setting scope index a := by
      rw [runStep_eq, runStep_eq]
      refine step_congr (h a (.own List.mem_cons_self)) setting scope index ?_
      funext slot inner
      rw [runNested_eq, runNested_eq]
      cases owned : a.flowIn slot with
      | none => rfl
      | some flow =>
        obtain ⟨name, nested⟩ := Action.nested_of_flowIn owned
        have inside := flows slot flow owned inner 0 fun b hb =>
          h b (.nested List.mem_cons_self nested (hb.mono (List.Subset.refl _)))
        exact congrArg (Task.mapResult _) inside
    have others := ih scope (index + 1) fun b hb => h b (hb.mono (List.subset_cons_self _ _))
    rw [runSteps_cons, runSteps_cons, first, others]

/-- A flow runs the same with two executors that hand its steps alike. -/
theorem execute_congr {flow : Flow} (h : ∀ a, flow.Holds a → HandsAlike ex ex' a) (host : Host)
    (caller : Option (Scope World)) (region : Option RegionId) :
    ex.execute host flow caller region = ex'.execute host flow caller region := by
  have hsteps (setting : Setting) (scope : Scope World) :
      ex.runSteps setting scope 0 flow.steps = ex'.runSteps setting scope 0 flow.steps := by
    apply runSteps_congr setting scope 0
    intro a ha
    exact h a (ha.mono (List.Subset.refl _))
  simp only [execute, hsteps]

/-! ## Executors that would go wrong -/

theorem find?_straying (registry : Registry)
    (astray : Processor → Invocation → Action → Attempt (Option Launch)) (type : ActionType) :
    Registry.find? (registry.map fun p => p.straying (astray p)) type =
      (registry.find? type).map fun p => p.straying (astray p) :=
  registry.find?_map (fun p => p.straying (astray p)) (fun _ => rfl) type

theorem missing?_straying (registry : Registry)
    (astray : Processor → Invocation → Action → Attempt (Option Launch)) :
    Registry.missing? (registry.map fun p => p.straying (astray p)) = registry.missing? :=
  registry.missing?_map (fun p => p.straying (astray p)) fun _ => rfl

/-- The executor with another policy for unknown types, and with processors that do something else
with steps that are not of their types. -/
def straying (ex : Executor) (policy : UnknownPolicy)
    (astray : Processor → Invocation → Action → Attempt (Option Launch)) : Executor where
  registry := ex.registry.map fun p => p.straying (astray p)
  config := { ex.config with unknownActions := policy }
  complete := (missing?_straying ex.registry astray).trans ex.complete
  valid := ex.valid

theorem resolve_of_find? {type : ActionType} {p : Processor}
    (h : ex.registry.find? type = some p) : ex.resolve type = some p := by
  rw [resolve, h]

/-- With a step that has a processor of its type, it makes no difference what
would be done otherwise. -/
theorem handsAlike_straying {a : Action} {p : Processor} (h : ex.registry.find? a.type = some p)
    (policy : UnknownPolicy)
    (astray : Processor → Invocation → Action → Attempt (Option Launch)) :
    HandsAlike ex (ex.straying policy astray) a := by
  have hfind : (ex.straying policy astray).registry.find? a.type =
      some (p.straying (astray p)) := by
    show Registry.find? (ex.registry.map _) a.type = _
    rw [find?_straying, h, Option.map_some]
  refine ⟨p, p.straying (astray p), resolve_of_find? h, resolve_of_find? hfind, rfl, ?_⟩
  intro inv
  exact (if_pos (type_of_find? h).symm).symm

theorem of_make {registry : Registry} {config : Config} (h : make registry config = .ok ex) :
    ex.registry = registry ∧ ex.config = config := by
  unfold make at h
  split at h
  · cases h
  · cases h
  · cases h
    exact ⟨rfl, rfl⟩

/-- In a flow that an executor reads, whose processors beside the built-in ones are all for types of
the host, every step has a processor of its own type, and for a built-in type this is the built-in
one. So it makes no difference to any run of the flow how the executor treats unknown types and what
its processors do with steps of other types: no run ever comes to that. -/
theorem dispatch_by_type (ps : List Processor) (config : Config) (ex : Executor) (document : Value)
    (flow : Flow) (custom : ∀ p ∈ ps, p.type.isCustom = true)
    (made : make (ps.foldl Registry.register Registry.builtIn) config = .ok ex)
    (read : ex.readFlow? document = some flow) :
    (∀ a, flow.Holds a → ∃ p, ex.registry.find? a.type = some p ∧ p.type = a.type ∧
      ∀ type, a.type = .builtIn type → p = Processor.ofBuiltIn type) ∧
    ∀ (policy : UnknownPolicy) (astray : Processor → Invocation → Action → Attempt (Option Launch))
      (host : Host) (caller : Option (Scope World)) (region : Option RegionId),
      (ex.straying policy astray).execute host flow caller region =
        ex.execute host flow caller region := by
  obtain ⟨hregistry, -⟩ := of_make made
  obtain ⟨source, -, hnormal⟩ := Option.bind_eq_some_iff.1 read
  have hown : ∀ a, flow.Holds a → ∃ p, ex.registry.find? a.type = some p := by
    intro a ha
    have hknown := KnownTypes.isKnown_of_holds ha hnormal
    rw [isKnown_eq_isSome] at hknown
    exact Option.isSome_iff_exists.1 hknown
  constructor
  · intro a ha
    obtain ⟨p, hp⟩ := hown a ha
    refine ⟨p, hp, type_of_find? hp, ?_⟩
    intro type htype
    rw [htype, hregistry, Registry.find?_registerAll custom, Registry.find?_builtIn] at hp
    exact (Option.some.inj hp).symm
  · intro policy astray host caller region
    refine (execute_congr ?_ host caller region).symm
    intro a ha
    obtain ⟨p, hp⟩ := hown a ha
    exact handsAlike_straying hp policy astray

/-- A step of the host under a tag in capitals, and a dialog whose flow had a step
of an unknown type. -/
theorem dispatch_by_type_dialog :
    let shout : Processor := .scripted (.ofHostTag "Action.shout") 5 none none
    let ex : Executor := ⟨[shout].foldl Registry.register Registry.builtIn, .default,
      by decide +kernel, by decide⟩
    let document : Value := .array [.object [("type", .string "ACTION.SHOUT")],
      .object [("onResult", .array [.object [("type", .string "vibrate")]]),
        ("type", .string "showDialog"), ("viewId", .string "ask")]]
    let lost : Action := .simple (.noop (some "vibrate")) none
    let flow : Flow := ⟨[.simple (.custom "ACTION.SHOUT" []) none,
      .modal .dialog ⟨.literal "ask", .null, true⟩ (some ⟨[lost], false⟩) none], false⟩
    (∀ p ∈ [shout], p.type.isCustom = true) ∧
    make ([shout].foldl Registry.register Registry.builtIn) .default = .ok ex ∧
    ex.readFlow? document = some flow ∧
    (∃ p, ex.registry.find? lost.type = some p ∧ p.type = lost.type ∧
      ∀ type, lost.type = .builtIn type → p = Processor.ofBuiltIn type) ∧
    (ex.straying .drop fun _ _ _ => throw (.executionFailed (.host "astray"))).execute
      (.silent 0) flow none none = ex.execute (.silent 0) flow none none := by
  intro shout ex document lost flow
  have custom : ∀ p ∈ [shout], p.type.isCustom = true := by
    intro p hp
    obtain rfl := List.mem_singleton.1 hp
    rfl
  have made : make ([shout].foldl Registry.register Registry.builtIn) .default = .ok ex := by
    rfl
  have read : ex.readFlow? document = some flow := by decide +kernel
  obtain ⟨hown, hrun⟩ := dispatch_by_type [shout] .default ex document flow custom made read
  have hlost : flow.Holds lost :=
    .nested (List.mem_cons_of_mem _ List.mem_cons_self) List.mem_cons_self (.own List.mem_cons_self)
  exact ⟨custom, made, read, hown lost hlost, hrun _ _ _ _ _⟩

end Executor

end StepFlow
