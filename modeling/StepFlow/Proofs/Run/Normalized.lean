import StepFlow.Proofs.Action.Known
import StepFlow.Proofs.ActionType
import StepFlow.Proofs.Run.Alike
import StepFlow.Proofs.Run.Steps

/-!
# Normalised flows mean the same

What becomes of steps of unknown types is decided twice: when a flow is normalised, which rewrites
it at every depth, and when a step is run for whose type there is no processor. The two come to the
same. A step that is left out would have been skipped, one that is replaced would have been run by
the processor that does nothing, and a flow that is gone has only steps that would have been
skipped. So a flow and its normal form, run from the same world, leave worlds that are alike.

A request without a flow for errors fails where one with such a flow goes on with it; where
normalising takes the flow away, the step fails instead of running steps that are all skipped.
-/

namespace StepFlow

namespace Executor

open World (Alike)

variable {ex : Executor} {setting : Setting} {w w' : World}

/-! ## Which processor runs a step -/

theorem type_of_find? {registry : Registry} {type : ActionType} {p : Processor}
    (h : registry.find? type = some p) : p.type = type := by
  simpa using List.find?_some h

/-- The known types are those that have a processor. -/
theorem isKnown_eq_isSome (ex : Executor) (type : ActionType) :
    ex.knownTypes.isKnown type = (ex.registry.find? type).isSome := by
  cases type with
  | builtIn type =>
    have hhas := List.find?_eq_none.1 ex.complete type (BuiltIn.mem_all type)
    rw [Bool.not_eq_true, Bool.not_eq_false'] at hhas
    exact hhas.symm
  | custom name =>
    show List.contains ex.registry.hostTypes (ActionType.custom name) = _
    rw [Bool.eq_iff_iff, List.contains_iff_mem, Registry.find?, List.find?_isSome]
    constructor
    · intro hmem
      obtain ⟨p, hp, htype⟩ := List.mem_map.1 (List.mem_filter.1 hmem).1
      exact ⟨p, hp, decide_eq_true htype⟩
    · rintro ⟨p, hp, htype⟩
      exact List.mem_filter.2 ⟨List.mem_map.2 ⟨p, hp, of_decide_eq_true htype⟩, rfl⟩

/-- A processor runs the steps of its type, or is the one that does nothing and
runs unknown steps. -/
theorem resolve_cases {type : ActionType} {p : Processor} (h : ex.resolve type = some p) :
    ex.registry.find? type = some p ∨
      ex.registry.find? type = none ∧ ex.registry.find? (.builtIn .noop) = some p := by
  unfold resolve at h
  cases hfind : ex.registry.find? type with
  | some q =>
    rw [hfind] at h
    exact .inl h
  | none =>
    rw [hfind] at h
    cases hpolicy : ex.config.unknownActions with
    | fallback =>
      rw [hpolicy] at h
      exact .inr ⟨rfl, h⟩
    | drop =>
      rw [hpolicy] at h
      cases h

/-- What normalising does with an operation: nothing, except for those of unknown types. -/
theorem operation?_cases (ex : Executor) (o : Operation) :
    ex.knownTypes.operation? o = some o ∨
      ∃ tag fields, o = .custom tag fields ∧ ex.registry.find? o.type = none ∧
        (ex.config.unknownActions = .drop ∧ ex.knownTypes.operation? o = none ∨
          ex.config.unknownActions = .fallback ∧
            ex.knownTypes.operation? o = some (.noop (some tag))) := by
  cases o with
  | custom tag fields =>
    have hknown := ex.isKnown_eq_isSome (.ofHostTag tag)
    rw [KnownTypes.operation?, hknown]
    cases hfind : ex.registry.find? (.ofHostTag tag) with
    | some p => exact .inl rfl
    | none =>
      refine .inr ⟨tag, fields, rfl, hfind, ?_⟩
      have hpolicy : ex.knownTypes.policy = ex.config.unknownActions := rfl
      rw [hpolicy]
      cases ex.config.unknownActions with
      | drop => exact .inl ⟨rfl, rfl⟩
      | fallback => exact .inr ⟨rfl, rfl⟩
  | _ => exact .inl rfl

/-- A step of an unknown type that is left out would be skipped. -/
theorem resolve_eq_none {o : Operation} (h : ex.knownTypes.operation? o = none) :
    ex.resolve o.type = none := by
  obtain hsame | ⟨tag, fields, -, hunknown, ⟨hpolicy, -⟩ | ⟨-, hnoop⟩⟩ := ex.operation?_cases o
  · cases h.symm.trans hsame
  · rw [resolve, hunknown, hpolicy]
  · cases h.symm.trans hnoop

/-- A step is run by the processor that runs what becomes of it. -/
theorem resolve_eq {o o' : Operation} (h : ex.knownTypes.operation? o = some o') :
    ex.resolve o.type = ex.resolve o'.type := by
  obtain hsame | ⟨tag, fields, -, hunknown, ⟨-, hnone⟩ | ⟨hpolicy, hnoop⟩⟩ := ex.operation?_cases o
  · cases h.symm.trans hsame
    rfl
  · cases h.symm.trans hnone
  · cases h.symm.trans hnoop
    rw [resolve, hunknown, hpolicy]
    show _ = ex.resolve (.builtIn .noop)
    rw [resolve, hpolicy]
    cases ex.registry.find? (.builtIn .noop) <;> rfl

/-- A step that a processor of its own runs is kept as it is, except for the flows that it owns. -/
theorem kept_simple {o : Operation} {c : Condition} {a : Action} {p : Processor}
    (hkept : ex.knownTypes.action? (.simple o c) = some a)
    (hfind : ex.registry.find? o.type = some p) :
    a = .simple o c := by
  obtain hsame | ⟨_, _, -, hunknown, -⟩ := ex.operation?_cases o
  · rw [KnownTypes.action?, hsame] at hkept
    exact (Option.some.inj hkept).symm
  · cases hfind.symm.trans hunknown

/-- What becomes of a step has its condition, and also its type, unless the step is an operation. -/
theorem kept_cases {known : KnownTypes} {a a' : Action} (hkept : known.action? a = some a') :
    a'.disableIf = a.disableIf ∧
      (a'.type = a.type ∨
        ∃ o o' c, a = .simple o c ∧ a' = .simple o' c ∧ known.operation? o = some o') := by
  cases a with
  | simple o c =>
    obtain ⟨o', ho, rfl⟩ := Option.map_eq_some_iff.1 hkept
    exact ⟨rfl, .inr ⟨o, o', c, rfl, rfl, ho⟩⟩
  | modal kind view onResult c =>
    cases hkept
    exact ⟨rfl, .inl rfl⟩
  | request source onSuccess onError c =>
    cases hkept
    exact ⟨rfl, .inl rfl⟩

theorem type_of_kept {a a' : Action} {p : Processor} (hkept : ex.knownTypes.action? a = some a')
    (hfind : ex.registry.find? a.type = some p) : a'.type = a.type := by
  obtain ⟨-, htype | ⟨o, o', c, rfl, rfl, -⟩⟩ := kept_cases hkept
  · exact htype
  · rw [kept_simple hkept hfind]

theorem isDisabled_of_kept {look : Bindings} {known : KnownTypes} {a a' : Action}
    (hkept : known.action? a = some a') : a'.isDisabled look = a.isDisabled look := by
  rw [Action.isDisabled, Action.isDisabled, (kept_cases hkept).1]

theorem resolve_of_kept {a a' : Action} (hkept : ex.knownTypes.action? a = some a') :
    ex.resolve a.type = ex.resolve a'.type := by
  obtain ⟨-, htype | ⟨o, o', c, rfl, rfl, ho⟩⟩ := kept_cases hkept
  · rw [htype]
  · exact resolve_eq ho

/-! ## What a processor does with what becomes of a step -/

/-- How a step ends beside what becomes of it: in the same way, or with a flow for errors that
normalising takes away, where the other fails. -/
inductive Launched (known : KnownTypes) : Action → Except ActionError (Option Launch) →
    Except ActionError (Option Launch) → Prop
  | same {a} (r : Except ActionError (Option Launch)) : Launched known a r r
  | gone {source onSuccess onError c} (bound : List (String × Value)) (e : ActionError)
    (gone : known.slot onError = none) :
    Launched known (.request source onSuccess onError c) (.ok (some ⟨.onError, bound⟩)) (.error e)

theorem launched_requestFailed {source : DataSource} {onSuccess onError : Option Flow}
    {c : Condition} (known : KnownTypes) (response : Value) (reason : String) :
    Launched known (.request source onSuccess onError c)
      (Deed.requestFailed onError response reason)
      (Deed.requestFailed (known.slot onError) response reason) := by
  cases onError with
  | none => exact .same _
  | some flow =>
    cases hslot : known.slot (some flow) with
    | none => exact .gone _ _ hslot
    | some kept => exact .same _

theorem launched_requestAnswered {source : DataSource} {onSuccess onError : Option Flow}
    {c : Condition} (known : KnownTypes) (url : String) (answer : Except ActionError Value) :
    Launched known (.request source onSuccess onError c) (Deed.requestAnswered url onError answer)
      (Deed.requestAnswered url (known.slot onError) answer) := by
  cases answer with
  | error e => exact launched_requestFailed known .null e.message
  | ok response =>
    unfold Deed.requestAnswered
    dsimp only
    split
    · exact .same _
    · exact launched_requestFailed known response _

/-- A step with the same deed ends in the same way. -/
theorem keeps_same_deed {inv : Invocation} (hscope : inv.scope.Oblivious) (hw : Alike w w')
    (id : String) {a a' : Action} {known : KnownTypes}
    (hdeed : Deed.of? inv w a' = Deed.of? inv w a) :
    Keeps (Launched known a) (Processor.carryOut inv a).run w
      (Processor.carryOut { inv with actionId := id } a').run w' := by
  refine (Deed.keeps_carryOut hscope hw id hdeed).mono ?_
  rintro r _ rfl
  exact .same r

/-- A step of a built-in type and what becomes of it do the same, and end alike. -/
theorem keeps_carryOut {inv : Invocation} (hscope : inv.scope.Oblivious)
    (hw : Alike w w') (id : String)
    {a a' : Action} {known : KnownTypes} (hkept : known.action? a = some a')
    (hsame : ∀ o c, a = .simple o c → a' = a) :
    Keeps (Launched known a) (Processor.carryOut inv a).run w
      (Processor.carryOut { inv with actionId := id } a').run w' := by
  cases a with
  | simple o c =>
    obtain rfl := hsame o c rfl
    exact keeps_same_deed hscope hw id rfl
  | modal kind view onResult c =>
    cases hkept
    exact keeps_same_deed hscope hw id rfl
  | request source onSuccess onError c =>
    cases hkept
    cases hurl : Deed.required inv w source.url "dataSource.url" with
    | error e =>
      apply keeps_same_deed hscope hw id
      rw [Deed.of?, Deed.of?, hurl]
      rfl
    | ok url =>
      have hleft := Deed.settle_carryOut inv w (.request source onSuccess onError c)
      have hright := Deed.settle_carryOut { inv with actionId := id } w'
        (.request source (known.slot onSuccess) (known.slot onError) c)
      rw [← Deed.of?_oblivious hscope hw id, Deed.of?, hurl] at hright
      rw [Deed.of?, hurl] at hleft
      exact (Deed.keeps_hand hw _ (launched_requestAnswered known url)).congr hleft hright

/-- What is asked of the processors of an executor: the built-in ones, and others for the types of
the host, which neither look at events nor at the identifiers of steps. -/
def ObliviousProcessors (ex : Executor) : Prop :=
  ∀ p ∈ ex.registry,
    (∃ type, p = Processor.ofBuiltIn type) ∨ (p.type.isCustom = true ∧ p.Oblivious)

/-- A processor does the same with a step and with what becomes of it. -/
theorem keeps_processor (processors : ex.ObliviousProcessors) {inv : Invocation}
    (hscope : inv.scope.Oblivious) (hw : Alike w w') (id : String) {a a' : Action}
    (hkept : ex.knownTypes.action? a = some a') {p : Processor}
    (hresolve : ex.resolve a.type = some p) :
    Keeps (Launched ex.knownTypes a) (p.run inv a).run w
      (p.run { inv with actionId := id } a').run w' := by
  have hown : p.type ≠ .builtIn .noop → ex.registry.find? a.type = some p := by
    intro hnoop
    rcases resolve_cases hresolve with hfind | ⟨-, hfind⟩
    · exact hfind
    · exact absurd (type_of_find? hfind) hnoop
  have hmem : p ∈ ex.registry := by
    rcases resolve_cases hresolve with hfind | ⟨-, hfind⟩
    · exact List.mem_of_find?_eq_some hfind
    · exact List.mem_of_find?_eq_some hfind
  rcases processors p hmem with ⟨type, rfl⟩ | ⟨hcustom, hp⟩
  · by_cases hnoop : type = .noop
    · subst hnoop
      exact .pure hw (.same _)
    · have hfind := hown fun h => hnoop (ActionType.builtIn.inj h)
      have htype : a.type = .builtIn type := (type_of_find? hfind).symm
      have htype' : a'.type = .builtIn type := (type_of_kept hkept hfind).trans htype
      simp only [Processor.ofBuiltIn, if_neg hnoop, if_pos htype, if_pos htype']
      apply keeps_carryOut hscope hw id hkept
      rintro o c rfl
      exact kept_simple hkept hfind
  · have hfind := hown fun h => by
      rw [h] at hcustom
      cases hcustom
    have hsame : a' = a := by
      have htype := type_of_find? hfind
      cases a with
      | simple o c => exact kept_simple hkept hfind
      | _ =>
        rw [htype] at hcustom
        cases hcustom
    subst hsame
    refine (hp inv id a' w w' hscope hw).mono ?_
    rintro r _ rfl
    exact .same r

/-! ## Steps -/

/-- How the flows that a step owns, and those of what becomes of it, are run. -/
structure NestedAlike (known : KnownTypes) (a : Action)
    (nested nested' : Slot → Scope World → Task World Unit) : Prop where
  keeps : ∀ slot (scope : Scope World) u u', scope.Oblivious → Alike u u' →
    Keeps (fun _ _ => True) (nested slot scope) u (nested' slot scope) u'
  gone : ∀ source onSuccess onError c, a = .request source onSuccess onError c →
    known.slot onError = none → ∀ scope, nested' .onError scope = pure ()

section Steps

variable {a a' : Action} {nested nested' : Slot → Scope World → Task World Unit}

theorem keeps_attempt (processors : ex.ObliviousProcessors) {inv : Invocation}
    (hscope : inv.scope.Oblivious) (hw : Alike w w') (id : String)
    (hkept : ex.knownTypes.action? a = some a') {p : Processor}
    (hresolve : ex.resolve a.type = some p) (hnested : NestedAlike ex.knownTypes a nested nested') :
    Keeps (fun _ _ => True) (attempt inv p a nested) w
      (attempt { inv with actionId := id } p a' nested') w' := by
  refine (keeps_processor processors hscope hw id hkept hresolve).bind ?_
  intro r r' u u' hu hlaunched
  cases hlaunched with
  | same =>
    match r with
    | .error e => exact .pure hu trivial
    | .ok none => exact .pure hu trivial
    | .ok (some launch) =>
      refine (hnested.keeps launch.slot _ u u' (hscope.extend launch.bound) hu).mapResult ?_
      intro _ _ _
      trivial
  | gone bound e gone =>
    have hskipped := hnested.keeps .onError _ u u' (hscope.extend bound) hu
    rw [hnested.gone _ _ _ _ rfl gone] at hskipped
    exact hskipped.mapResult (f := fun _ => Except.ok ()) (g := fun _ => Except.error e)
      fun _ _ _ => trivial

theorem keeps_within {t t' : Task World (Except ActionError Unit)} (limit : Option Nat)
    (h : Keeps (fun _ _ => True) t w t' w') :
    Keeps (fun _ _ => True) (within limit t) w (within limit t') w' := by
  cases limit with
  | none => exact h
  | some ms => exact (h.limit (fun ms _ _ hu => hu.pass ms) ms).mapResult fun _ _ _ => trivial

theorem keeps_dispatch (processors : ex.ObliviousProcessors) {inv : Invocation}
    (hscope : inv.scope.Oblivious) (hw : Alike w w') (id : String)
    (hkept : ex.knownTypes.action? a = some a') {p : Processor}
    (hresolve : ex.resolve a.type = some p)
    (hnested : NestedAlike ex.knownTypes a nested nested') (step step' : StepRef) :
    Keeps (fun _ _ => True) (ex.dispatch inv p step a nested) w
      (ex.dispatch { inv with actionId := id } p step' a' nested') w' := by
  have hstarted := hw.emit (.actionStarted step) (.actionStarted step')
  have hattempt := keeps_attempt processors hscope hstarted id hkept hresolve hnested
  apply Task.Agrees.after (Task.settle_modify _ _) (Task.settle_modify _ _)
  apply Task.Agrees.after (Task.settle_read _ _) (Task.settle_read _ _)
  apply (keeps_within (ex.limitFor p) hattempt).bind
  intro r r' u u' hu _
  apply Task.Agrees.after (Task.settle_read _ _) (Task.settle_read _ _)
  -- Only the events tell whether the steps failed.
  cases r <;> cases r' <;> exact .ended rfl rfl (hu.emit _ _) trivial

theorem keeps_step (processors : ex.ObliviousProcessors) {scope : Scope World}
    (hscope : scope.Oblivious) (hw : Alike w w') (hkept : ex.knownTypes.action? a = some a')
    (hnested : NestedAlike ex.knownTypes a nested nested') (index index' : Nat) :
    Keeps (fun _ _ => True) (ex.step setting scope index a nested) w
      (ex.step setting scope index' a' nested') w' := by
  have hissued := hw.freshId
  have hdisabled :
      a'.isDisabled (scope.lookup w'.freshId.2) = a.isDisabled (scope.lookup w.freshId.2) := by
    rw [isDisabled_of_kept hkept, hscope.lookup hissued]
  apply Task.Agrees.after (Task.settle_modifyGet _ _) (Task.settle_modifyGet _ _)
  apply Task.Agrees.after (Task.settle_read _ _) (Task.settle_read _ _)
  rw [hdisabled]
  split
  · exact .ended rfl rfl (hissued.emit _ _) trivial
  · rw [← resolve_of_kept hkept]
    split
    · exact .ended rfl rfl (hissued.emit _ _) trivial
    · next p hresolve =>
      exact keeps_dispatch processors hscope hissued _ hkept hresolve hnested _ _

/-- A step that is left out would have been skipped. -/
theorem settle_dropped (hdropped : ex.knownTypes.action? a = none) (hw : Alike w w')
    (setting : Setting) (scope : Scope World) (index : Nat) :
    ∃ counts u, (ex.runStep setting scope index a).settle w = .ended counts u ∧ Alike u w' := by
  cases a with
  | simple o c =>
    have hnone := resolve_eq_none (Option.map_eq_none_iff.1 hdropped)
    have hskipped := hw.freshId_left.emit_left
      (.actionSkipped ⟨setting.executionId, w.freshId.1, o.type.name, index⟩)
    refine ⟨.oneSkipped, _, ?_, hskipped⟩
    rw [runStep, step, Action.type, hnone]
    show Task.settle (if _ then _ else _) _ = _
    split <;> rfl
  | modal kind view onResult c => cases hdropped
  | request source onSuccess onError c => cases hdropped

end Steps

/-! ## Flows -/

/-- What is left of a step owns what is left of the flows of the step. -/
theorem flowIn_of_kept (hkept : ex.knownTypes.action? a = some a') (slot : Slot) :
    a'.flowIn slot = (a.flowIn slot).bind ex.knownTypes.flow? := by
  cases a with
  | simple o c =>
    obtain ⟨o', -, rfl⟩ := Option.map_eq_some_iff.1 hkept
    rfl
  | modal kind view onResult c =>
    cases hkept
    cases slot with
    | onResult => exact KnownTypes.slot_eq _ _
    | onSuccess | onError => rfl
  | request source onSuccess onError c =>
    cases hkept
    cases slot with
    | onResult => rfl
    | onSuccess | onError => exact KnownTypes.slot_eq _ _

/-- Where no step of a flow is left, there is nothing to run for it. -/
theorem runNested_of_kept (hkept : ex.knownTypes.action? a = some a') {slot : Slot} {flow : Flow}
    (owned : a.flowIn slot = some flow) (setting : Setting) (scope : Scope World) :
    ex.runNested setting a' slot scope =
      (ex.runSteps setting scope 0 (ex.knownTypes.steps flow.steps)).mapResult fun _ => () := by
  rw [runNested_eq, flowIn_of_kept hkept, owned, Option.bind_some, KnownTypes.flow?]
  cases ex.knownTypes.steps flow.steps <;> rfl

theorem keeps_runSteps (processors : ex.ObliviousProcessors) (setting : Setting)
    (steps : List Action)
    (index index' : Nat) {scope : Scope World} (hscope : scope.Oblivious) (hw : Alike w w') :
    Keeps (fun _ _ => True) (ex.runSteps setting scope index steps) w
      (ex.runSteps setting scope index' (ex.knownTypes.steps steps)) w' := by
  induction steps using Action.steps_induction generalizing index index' scope w w' with
  | nil => exact .pure hw trivial
  | cons a rest flows ih =>
    rw [KnownTypes.steps]
    cases hkept : ex.knownTypes.action? a with
    | none =>
      obtain ⟨counts, u, hsettle, hu⟩ := settle_dropped hkept hw setting scope index
      have hothers : Keeps (fun _ _ => True)
          ((ex.runSteps setting scope (index + 1) rest).mapResult counts.add) u
          (ex.runSteps setting scope index' (ex.knownTypes.steps rest)) w' :=
        (ih (index + 1) index' hscope hu).mapLeft fun _ _ _ => trivial
      exact hothers.congr (Task.settle_bind_of_ended hsettle) rfl
    | some a' =>
      have hnested : NestedAlike ex.knownTypes a (ex.runNested setting a)
          (ex.runNested setting a') := by
        refine ⟨?_, ?_⟩
        · intro slot inner u u' hinner hu
          cases owned : a.flowIn slot with
          | none =>
            rw [runNested_eq, runNested_eq, flowIn_of_kept hkept, owned]
            exact .pure hu trivial
          | some flow =>
            rw [runNested_of_kept hkept owned, runNested_eq, owned]
            exact (flows slot flow owned 0 0 hinner hu).mapResult fun _ _ _ => trivial
        · rintro source onSuccess onError c rfl gone inner
          cases hkept
          show ex.runSlot setting inner (ex.knownTypes.slot onError) = pure ()
          rw [gone]
          rfl
      have first : Keeps (fun _ _ => True) (ex.runStep setting scope index a) w
          (ex.runStep setting scope index' a') w' := by
        rw [runStep_eq, runStep_eq]
        exact keeps_step processors hscope hw hkept hnested index index'
      apply first.bind
      intro _ _ u u' hu _
      exact (ih (index + 1) (index' + 1) hscope hu).mapResult fun _ _ _ => trivial

/-! ## Executions -/

theorem keeps_execute (processors : ex.ObliviousProcessors) (host : Host) (flow : Flow)
    {caller : Option (Scope World)} (hcaller : ∀ scope, caller = some scope → scope.Oblivious)
    (region : Option RegionId) (inkWell : Bool) (w : World) :
    Keeps (fun _ _ => True) (ex.execute host flow caller region) w
      (ex.execute host ⟨ex.knownTypes.steps flow.steps, inkWell⟩ caller region) w := by
  have hissued := (Alike.refl w).freshId
  apply Task.Agrees.after (Task.settle_modifyGet _ _) (Task.settle_modifyGet _ _)
  apply Task.Agrees.after (Task.settle_modify _ _) (Task.settle_modify _ _)
  have hstarted := hissued.emit (.flowStarted w.freshId.1 flow.steps.length)
    (.flowStarted w.freshId.1 (ex.knownTypes.steps flow.steps).length)
  apply (keeps_runSteps processors _ flow.steps 0 0 (flowScope_oblivious hcaller) hstarted).bind
  intro _ _ u u' hu _
  exact .ended rfl rfl (hu.emit _ _) trivial

/-- A flow without steps only publishes that it started and completed. -/
theorem alike_execute_nil (ex : Executor) (host : Host) (caller : Option (Scope World))
    (region : Option RegionId) (inkWell : Bool) (w : World) :
    Alike ((ex.execute host ⟨[], inkWell⟩ caller region).run World.pass w).2 w :=
  ((Alike.refl w).freshId_left.emit_left _).emit_left _

/-- A flow, run as it is, and its normal form, run from the same world, leave worlds that differ in
events and in the number of identifiers at most; where the normal form is no flow at all, the flow
leaves the world as it was. So the same effects are performed in the same order, and the regions,
the objects, the bus, the journal and the clock end up the same.

The processors of the host must not look at events or at the identifiers of steps, nor must the
scope of the caller. -/
theorem normalize_preserves_meaning (ex : Executor) (host : Host) (flow : Flow)
    (caller : Option (Scope World)) (region : Option RegionId) (w : World)
    (processors : ex.ObliviousProcessors)
    (callers : ∀ scope, caller = some scope → scope.Oblivious) :
    Alike ((ex.execute host flow caller region).run World.pass w).2
      (match flow.normalize ex.knownTypes with
      | some kept => ((ex.execute host kept caller region).run World.pass w).2
      | none => w) := by
  have hkeeps := (keeps_execute processors host flow callers region flow.inkWell w).run.2
  unfold Flow.normalize KnownTypes.flow?
  cases hsteps : ex.knownTypes.steps flow.steps with
  | nil =>
    rw [hsteps] at hkeeps
    exact hkeeps.trans (alike_execute_nil ex host caller region flow.inkWell w)
  | cons first rest =>
    rw [hsteps] at hkeeps
    exact hkeeps

/-- A request that is refused: as it is, it goes on with a flow of one unknown step, and once
that flow is dropped it fails. Either way the request was made once and the host's own step was
carried out after it. -/
theorem normalize_preserves_meaning_request :
    let shout : Processor := .scripted (.ofHostTag "shout") 5 none none
    let ex : Executor :=
      ⟨shout :: Registry.builtIn, { Config.default with unknownActions := .drop },
      by decide +kernel, by decide⟩
    let host : Host := .agreed [] [("httpRequest", .string "offline")] 0
    let lost : Action := .simple (.custom "whisper" []) none
    let request (onError : Option Flow) : Action :=
      .request ⟨none, .literal "https://example.org", .null, .null⟩ none onError none
    let said : Action := .simple (.custom "shout" []) none
    let flow : Flow := ⟨[request (some ⟨[lost], false⟩), lost, said], false⟩
    let kept : Flow := ⟨[request none, said], false⟩
    let w : World := ⟨0, [], [], .ofCapacity 1, [], [], [], 0⟩
    let after := ((ex.execute host flow none none).run World.pass w).2
    let after' := ((ex.execute host kept none none).run World.pass w).2
    ex.ObliviousProcessors ∧ flow.normalize ex.knownTypes = some kept ∧ Alike after after' ∧
    after.performed = [.httpRequest .get "https://example.org" .null .null] ∧
    after.journal.length = 1 ∧
    after.events.head? = some (5, .flowCompleted "id-1" ⟨2, 0, 1⟩) ∧
    after'.events.head? = some (5, .flowCompleted "id-1" ⟨1, 1, 0⟩) := by
  intro shout ex host lost request said flow kept w after after'
  have processors : ex.ObliviousProcessors := by
    intro p hp
    rcases List.mem_cons.1 hp with rfl | hp
    · exact .inr ⟨rfl, Processor.scripted_oblivious _ 5 none none⟩
    · obtain ⟨type, -, rfl⟩ := List.mem_map.1 hp
      exact .inl ⟨type, rfl⟩
  have hkept : flow.normalize ex.knownTypes = some kept := by decide +kernel
  have halike := normalize_preserves_meaning ex host flow none none w processors nofun
  rw [hkept] at halike
  exact ⟨processors, hkept, halike, by decide +kernel, by decide +kernel,
    by decide +kernel, by decide +kernel⟩

end Executor

end StepFlow
