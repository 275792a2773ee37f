import StepFlow.Proofs.Run.Alike
import StepFlow.Proofs.Run.Normalized
import StepFlow.Proofs.Run.Trace
import StepFlow.Proofs.Run.Watch

/-!
# Two runs of the same steps

Two runs of the same steps, from worlds that are alike, keep their worlds alike and report the same:
as the one run may have given out an identifier more, and may have come across a step more,
identifiers and places can be off by one, and so can the number of steps of a flow.

How two runs are compared is open to what is known of their events: `Comparison` says what it takes
for a relation between the worlds to go on from step to step. One step is followed with a watch on
the flow that it launches, so that the comparison can change in the middle of a step; that the same
steps go on with the same comparison is the case where there is nothing to watch for.
-/

namespace StepFlow

open World (Alike)

/-! ## Reports that match -/

/-- The identifier of a step in one run and in the other: the same, or the next one to it. -/
def IdsMatch (id id' : String) : Prop :=
  id = id' ∨ ∃ n, id = World.idText (n + 1) ∧ id' = World.idText n

/-- A number in one run and in the other: the same, or one more. -/
def NumbersMatch (n n' : Nat) : Prop := n = n' ∨ n = n' + 1

theorem NumbersMatch.refl (n : Nat) : NumbersMatch n n := .inl rfl

theorem NumbersMatch.add_left {n n' : Nat} (h : NumbersMatch n n') (m : Nat) :
    NumbersMatch (m + n) (m + n') := by
  unfold NumbersMatch at h ⊢
  omega

/-- A step is named in both runs, under identifiers and at places that match. -/
structure StepRef.Matches (step step' : StepRef) : Prop where
  executionId : step.executionId = step'.executionId
  actionId : IdsMatch step.actionId step'.actionId
  actionType : step.actionType = step'.actionType
  index : NumbersMatch step.index step'.index

/-- As many steps completed and failed in both runs. -/
structure Counts.Matches (c c' : Counts) : Prop where
  completed : c.completed = c'.completed
  failed : c.failed = c'.failed
  skipped : NumbersMatch c.skipped c'.skipped

/-- Two events report the same of a step or of a flow. -/
inductive Event.Matches : Event → Event → Prop
  | flowStarted (id : String) {n n'} (h : NumbersMatch n n') :
    Matches (.flowStarted id n) (.flowStarted id n')
  | actionSkipped {step step'} (h : StepRef.Matches step step') :
    Matches (.actionSkipped step) (.actionSkipped step')
  | actionStarted {step step'} (h : StepRef.Matches step step') :
    Matches (.actionStarted step) (.actionStarted step')
  | actionCompleted {step step'} (h : StepRef.Matches step step') (ms : Nat) :
    Matches (.actionCompleted step ms) (.actionCompleted step' ms)
  | actionFailed {step step'} (h : StepRef.Matches step step') (e : ActionError) :
    Matches (.actionFailed step e) (.actionFailed step' e)
  | flowCompleted (id : String) {c c'} (h : Counts.Matches c c') :
    Matches (.flowCompleted id c) (.flowCompleted id c')

/-- A relation between the worlds of two runs that goes on as long as both do the same. -/
structure Comparison (R : World → World → Prop) : Prop where
  alike : ∀ {w w'}, R w w' → Alike w w'
  issue : ∀ {w w'}, R w w' → IdsMatch w.freshId.1 w'.freshId.1 ∧ R w.freshId.2 w'.freshId.2
  report : ∀ {w w' e e'}, R w w' → Event.Matches e e' → R (w.emit e) (w'.emit e')
  work : ∀ {w w' u u'}, R w w' → World.Noted w u [] → World.Noted w' u' [] → Alike u u' → R u u'

theorem Comparison.pass {R : World → World → Prop} (hR : Comparison R) (ms : Nat) (w w' : World)
    (h : R w w') : R (w.pass ms) (w'.pass ms) :=
  hR.work h (.pass ms w) (.pass ms w') ((hR.alike h).pass ms)

/-! ## Steps that differ in the flows in them -/

/-- Two steps that only differ in the flows that they own. -/
structure Action.Akin (a a' : Action) : Prop where
  type : a'.type = a.type
  disableIf : a'.disableIf = a.disableIf
  deed : ∀ inv w, Deed.of? inv w a' = Deed.of? inv w a
  host : a.type.isCustom = true → a' = a

theorem Action.Akin.refl (a : Action) : Akin a a := ⟨rfl, rfl, fun _ _ => rfl, fun _ => rfl⟩

namespace Executor

variable {ex : Executor} {setting : Setting}

/-- What is asked of the processors of an executor: the built-in ones, and others for the types of
the host, which leave events and identifiers alone and do not look at them. -/
def DiscreetProcessors (ex : Executor) : Prop :=
  ∀ p ∈ ex.registry,
    (∃ type, p = Processor.ofBuiltIn type) ∨ (p.type.isCustom = true ∧ p.Oblivious ∧ p.Quiet)

theorem DiscreetProcessors.quiet (h : ex.DiscreetProcessors) {p : Processor}
    (hp : p ∈ ex.registry) :
    p.Quiet := by
  rcases h p hp with ⟨type, rfl⟩ | ⟨-, -, hquiet⟩
  · exact Processor.ofBuiltIn_quiet type
  · exact hquiet

/-- A processor does the same with steps that are akin, in worlds that are alike. -/
theorem keeps_akin (processors : ex.DiscreetProcessors) {inv : Invocation} {w w' : World}
    (hscope : inv.scope.Oblivious) (hw : Alike w w') (id : String) {a a' : Action}
    (akin : a.Akin a') {p : Processor} (hresolve : ex.resolve a.type = some p) :
    Keeps Eq (p.run inv a).run w (p.run { inv with actionId := id } a').run w' := by
  rcases processors p (mem_of_resolve hresolve) with ⟨type, rfl⟩ | ⟨hcustom, hp, -⟩
  · simp only [Processor.ofBuiltIn, akin.type]
    split
    · exact .pure hw rfl
    · split
      · exact Deed.keeps_carryOut hscope hw id (akin.deed inv w)
      · exact .pure hw rfl
  · have htype : p.type = a.type := by
      rcases resolve_cases hresolve with hfind | ⟨-, hfind⟩
      · exact type_of_find? hfind
      · rw [type_of_find? hfind] at hcustom
        cases hcustom
    rw [akin.host (htype ▸ hcustom)]
    exact hp inv id a w w' hscope hw

/-- While a processor works, the comparison goes on. -/
theorem agrees_processor {R : World → World → Prop} (hR : Comparison R)
    (processors : ex.DiscreetProcessors) {inv : Invocation} {w w' : World}
    (hscope : inv.scope.Oblivious) (hw : R w w') (id : String) {a a' : Action} (akin : a.Akin a')
    {p : Processor} (hresolve : ex.resolve a.type = some p) :
    Task.Agrees World.pass R Eq (p.run inv a).run w
      (p.run { inv with actionId := id } a').run w' := by
  have hquiet := processors.quiet (mem_of_resolve hresolve)
  obtain ⟨hend, hwaits⟩ := hquiet inv a w
  obtain ⟨hend', hwaits'⟩ := hquiet { inv with actionId := id } a' w'
  have hkeeps := keeps_akin processors hscope (hR.alike hw) id akin hresolve
  refine (hkeeps.also hwaits hwaits' hend hend').monoWorlds ?_
  rintro u u' ⟨hu, hnoted, hnoted'⟩
  exact hR.work hw hnoted hnoted' hu

/-! ## One step, under watch -/

section Watching

variable {κ : Type}

/-- Runs a step until the flow that it launches is watched by `inner`; none if it
comes to no such flow. -/
def watchStep (ex : Executor) (setting : Setting) (scope : Scope World) (index : Nat) (a : Action)
    (inner : Slot → Scope World → Task World (Option κ)) : Task World (Option κ) := do
  let actionId ← Task.modifyGet World.freshId
  let disabled ← Task.read fun w => a.isDisabled (scope.lookup w)
  if disabled then pure none
  else
    match ex.resolve a.type with
    | none => pure none
    | some p => do
      emit (.actionStarted ⟨setting.executionId, actionId, a.type.name, index⟩)
      let inv : Invocation := ⟨setting.host, scope, setting.region, setting.executionId, actionId⟩
      let attempted := (p.run inv a).run.bind fun
        | .ok (some launch) => inner launch.slot (scope.extend launch.bound)
        | _ => .done none
      match ex.limitFor p with
      | none => attempted
      | some ms => (attempted.limit ms).mapResult Option.join

variable {good : κ → Prop} {R₁ R₂ : World → World → Prop}
variable {a a' : Action} {nested nested' : Slot → Scope World → Task World Unit}
variable {inner : Slot → Scope World → Task World (Option κ)} {w w' : World}

/-- How the flows of two steps are run beside each other, under watch. -/
def WatchedSlots (good : κ → Prop) (R₁ R₂ : World → World → Prop)
    (inner : Slot → Scope World → Task World (Option κ))
    (nested nested' : Slot → Scope World → Task World Unit) : Prop :=
  ∀ slot (scope : Scope World) u u', scope.Oblivious → R₁ u u' →
    Task.Watched World.pass good R₁ R₂ (fun _ _ => True) (inner slot scope) (nested slot scope) u
      (nested' slot scope) u'

theorem watched_attempt (h₁ : Comparison R₁) (processors : ex.DiscreetProcessors) (inv : Invocation)
    (hscope : inv.scope.Oblivious) (hw : R₁ w w') (id : String) (akin : a.Akin a') {p : Processor}
    (hresolve : ex.resolve a.type = some p)
    (hnested : WatchedSlots good R₁ R₂ inner nested nested') :
    Task.Watched World.pass good R₁ R₂ Eq
      ((p.run inv a).run.bind fun
        | .ok (some launch) => inner launch.slot (inv.scope.extend launch.bound)
        | _ => .done none)
      (attempt inv p a nested) w (attempt { inv with actionId := id } p a' nested') w' := by
  refine .afterAgreed (agrees_processor h₁ processors hscope hw id akin hresolve) ?_
  rintro result _ u u' hu rfl
  match result with
  | .error e => exact .of_agrees (.pure hu rfl)
  | .ok none => exact .of_agrees (.pure hu rfl)
  | .ok (some launch) =>
    have hlaunched := hnested launch.slot _ u u' (hscope.extend launch.bound) hu
    exact hlaunched.mapResult fun _ _ _ => rfl

theorem watched_within (h₁ : Comparison R₁) (h₂ : Comparison R₂) {q : Task World (Option κ)}
    {t t' : Task World (Except ActionError Unit)} (limit : Option Nat)
    (h : Task.Watched World.pass good R₁ R₂ Eq q t w t' w') :
    Task.Watched World.pass good R₁ R₂ Eq
      (match limit with
      | none => q
      | some ms => (q.limit ms).mapResult Option.join)
      (within limit t) w (within limit t') w' := by
  cases limit with
  | none => exact h
  | some ms =>
    refine (h.limit h₁.pass h₂.pass ms).mapResult ?_
    rintro result result' (⟨rfl⟩ | _)
    · rfl
    · rfl

/-- What is reported of a step that has ended is the same in both runs. -/
theorem agrees_reported {R : World → World → Prop} (hR : Comparison R) {step step' : StepRef}
    (hstep : step.Matches step') (started : Nat) (result : Except ActionError Unit) (hw : R w w') :
    let reported (step : StepRef) : Task World Counts := do
      let ended ← Task.read World.clock
      match result with
      | .ok () =>
        emit (.actionCompleted step (ended - started))
        pure .oneCompleted
      | .error e =>
        emit (.actionFailed step e)
        pure .oneFailed
    Task.Agrees World.pass R Eq (reported step) w (reported step') w' := by
  intro reported
  apply Task.Agrees.after (Task.settle_read _ _) (Task.settle_read _ _)
  rw [(hR.alike hw).clock]
  cases result with
  | ok done => exact .ended rfl rfl (hR.report hw (.actionCompleted hstep _)) rfl
  | error e => exact .ended rfl rfl (hR.report hw (.actionFailed hstep e)) rfl

/-- A step, and one that is akin to it, beside each other: as long as the flows in them are in step,
so are the steps themselves. -/
theorem watched_step (h₁ : Comparison R₁) (h₂ : Comparison R₂) (processors : ex.DiscreetProcessors)
    (setting : Setting) {scope : Scope World} (hscope : scope.Oblivious) (hw : R₁ w w')
    (akin : a.Akin a') {index index' : Nat} (hindex : NumbersMatch index index')
    (hnested : WatchedSlots good R₁ R₂ inner nested nested') :
    Task.Watched World.pass good R₁ R₂ Eq (ex.watchStep setting scope index a inner)
      (ex.step setting scope index a nested) w (ex.step setting scope index' a' nested') w' := by
  obtain ⟨hid, hissued⟩ := h₁.issue hw
  have hstep : StepRef.Matches ⟨setting.executionId, w.freshId.1, a.type.name, index⟩
      ⟨setting.executionId, w'.freshId.1, a'.type.name, index'⟩ :=
    ⟨rfl, hid, congrArg ActionType.name akin.type.symm, hindex⟩
  have hdisabled :
      a'.isDisabled (scope.lookup w'.freshId.2) = a.isDisabled (scope.lookup w.freshId.2) := by
    rw [Action.isDisabled, Action.isDisabled, akin.disableIf, hscope.lookup (h₁.alike hissued)]
  apply Task.Watched.after (Task.settle_modifyGet _ _) (Task.settle_modifyGet _ _)
    (Task.settle_modifyGet _ _)
  apply Task.Watched.after (Task.settle_read _ _) (Task.settle_read _ _) (Task.settle_read _ _)
  rw [hdisabled, akin.type]
  have hskipped : Task.Agrees World.pass R₁ Eq
      ((emit (.actionSkipped ⟨setting.executionId, w.freshId.1, a.type.name, index⟩)).bind
        fun _ => pure Counts.oneSkipped) w.freshId.2
      ((emit (.actionSkipped ⟨setting.executionId, w'.freshId.1, a'.type.name, index'⟩)).bind
        fun _ => pure Counts.oneSkipped) w'.freshId.2 :=
    .ended rfl rfl (h₁.report hissued (.actionSkipped hstep)) rfl
  rw [akin.type] at hstep hskipped
  split
  · exact .of_agrees hskipped
  · cases hresolve : ex.resolve a.type with
    | none => exact .of_agrees hskipped
    | some p =>
      have hstarted := h₁.report hissued (.actionStarted hstep)
      have hattempt := watched_attempt h₁ processors
        ⟨setting.host, scope, setting.region, setting.executionId, w.freshId.1⟩ hscope hstarted
        w'.freshId.1 akin hresolve hnested
      apply Task.Watched.after (Task.settle_modify _ _) (Task.settle_modify _ _)
        (Task.settle_modify _ _)
      -- the clock is read off before the attempt, which the watch does not do
      refine Task.Watched.congr ?_ rfl (Task.settle_bind_of_ended (Task.settle_read _ _))
        (Task.settle_bind_of_ended (Task.settle_read _ _))
      rw [(h₁.alike hstarted).clock]
      refine (watched_within h₁ h₂ (ex.limitFor p) hattempt).bind ?_ ?_
      · rintro result _ u u' hu rfl
        exact agrees_reported h₁ hstep _ result hu
      · rintro result _ u u' hu rfl
        exact agrees_reported h₂ hstep _ result hu

end Watching

/-! ## The same steps -/

section Same

variable {R : World → World → Prop} {w w' : World}

theorem agrees_step (hR : Comparison R) (processors : ex.DiscreetProcessors) {scope : Scope World}
    (hscope : scope.Oblivious) (hw : R w w') (a : Action) {index index' : Nat}
    (hindex : NumbersMatch index index') {nested : Slot → Scope World → Task World Unit}
    (hnested : ∀ slot (scope : Scope World) u u', scope.Oblivious → R u u' →
      Task.Agrees World.pass R (fun _ _ => True) (nested slot scope) u (nested slot scope) u') :
    Task.Agrees World.pass R Eq (ex.step setting scope index a nested) w
      (ex.step setting scope index' a nested) w' := by
  have hslots : WatchedSlots (fun _ : Unit => True) R R (fun _ _ => pure none) nested nested := by
    intro slot inner u u' hinner hu
    exact .of_agrees (hnested slot inner u u' hinner hu)
  exact (watched_step hR hR processors setting hscope hw (.refl a) hindex hslots).agrees fun _ =>
    trivial

/-- A flow that is owned goes on with a comparison if its steps do. -/
theorem agrees_runNested {a : Action} {slot : Slot}
    (flows : ∀ flow, a.flowIn slot = some flow → ∀ scope : Scope World, scope.Oblivious →
      ∀ u u', R u u' → Task.Agrees World.pass R Eq (ex.runSteps setting scope 0 flow.steps) u
        (ex.runSteps setting scope 0 flow.steps) u')
    {scope : Scope World} (hscope : scope.Oblivious) (hw : R w w') :
    Task.Agrees World.pass R (fun _ _ => True) (ex.runNested setting a slot scope) w
      (ex.runNested setting a slot scope) w' := by
  rw [runNested_eq]
  cases owned : a.flowIn slot with
  | none => exact .pure hw trivial
  | some flow => exact (flows flow owned scope hscope w w' hw).mapResult fun _ _ _ => trivial

/-- The same steps go on with any comparison. -/
theorem agrees_runSteps (hR : Comparison R) (processors : ex.DiscreetProcessors) (setting : Setting)
    (steps : List Action) {index index' : Nat} {scope : Scope World}
    (hindex : NumbersMatch index index') (hscope : scope.Oblivious) (hw : R w w') :
    Task.Agrees World.pass R Eq (ex.runSteps setting scope index steps) w
      (ex.runSteps setting scope index' steps) w' := by
  induction steps using Action.steps_induction generalizing index index' scope w w' with
  | nil => exact .pure hw rfl
  | cons a rest flows ih =>
    have first : Task.Agrees World.pass R Eq (ex.runStep setting scope index a) w
        (ex.runStep setting scope index' a) w' := by
      rw [runStep_eq, runStep_eq]
      apply agrees_step hR processors hscope hw a hindex
      intro slot inner u u' hinner hu
      apply agrees_runNested _ hinner hu
      intro flow owned scope hscope v v' hv
      exact flows slot flow owned (.refl 0) hscope hv
    refine first.bind ?_
    rintro counts _ u u' hu rfl
    have hnext : NumbersMatch (index + 1) (index' + 1) := by
      unfold NumbersMatch at hindex ⊢
      omega
    exact (ih hnext hscope hu).mapResult fun c _ h => congrArg counts.add h

end Same

end Executor

end StepFlow
