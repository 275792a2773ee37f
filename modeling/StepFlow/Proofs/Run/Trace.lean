import StepFlow.Proofs.Run.Quiet
import StepFlow.Proofs.Run.Steps

/-!
# The events of an execution

A step publishes a segment: one event if it is skipped, or else its start and its end with the
segments of at most one of its flows between them. All of it carries the identifier of the one
execution, so that the segments of nested flows lie on the same channel as those of the flow itself.

The segments are described by relations that follow the nesting of a flow. A time limit can cut a
step off in the middle of a nested flow; what is between its start and its end is then a first part
of what the nested flow would have published.
-/

namespace StepFlow

inductive Outcome where
  | completed
  | failed
  | skipped
deriving DecidableEq, Repr

/-- How many steps came out in each way. -/
def Counts.tally (outcomes : List Outcome) : Counts :=
  ⟨outcomes.count .completed, outcomes.count .failed, outcomes.count .skipped⟩

namespace Counts

theorem tally_cons (outcome : Outcome) (rest : List Outcome) :
    tally (outcome :: rest) = (tally [outcome]).add (tally rest) := by
  cases outcome <;> simp [tally, add, Nat.add_comm]

/-- Every step comes out in one way. -/
theorem tally_total (outcomes : List Outcome) :
    (tally outcomes).completed + (tally outcomes).failed + (tally outcomes).skipped =
      outcomes.length := by
  induction outcomes with
  | nil => rfl
  | cons outcome rest ih =>
    simp only [tally, List.length_cons] at ih ⊢
    cases outcome with
    | completed =>
      rw [List.count_cons_self, List.count_cons_of_ne (by decide),
        List.count_cons_of_ne (by decide)]
      omega
    | failed =>
      rw [List.count_cons_self, List.count_cons_of_ne (by decide),
        List.count_cons_of_ne (by decide)]
      omega
    | skipped =>
      rw [List.count_cons_self, List.count_cons_of_ne (by decide),
        List.count_cons_of_ne (by decide)]
      omega

end Counts

/-! ## Segments -/

/-- On which terms the steps of a type are run: not at all, or within a time
limit, if there is one. -/
abbrev Terms : Type := ActionType → Option (Option Nat)

def Terms.unlimited (terms : Terms) : Terms := fun type => (terms type).map fun _ => none

/-- The type of a step is run, and its condition need not hold. -/
def MayRun (terms : Terms) (a : Action) : Prop :=
  terms a.type ≠ none ∧ ∃ look, a.isDisabled look = false

section Segments

variable (terms : Terms) (executionId : String)

mutual

/-- The events of one step at an index, and how it came out. A step is skipped if its type is not
run or its condition can hold. -/
inductive StepTrace : Nat → Action → List Event → Outcome → Prop
  | skipped {index a} (actionId : String)
    (cause : terms a.type = none ∨ ∃ look, a.isDisabled look = true) :
    StepTrace index a [.actionSkipped ⟨executionId, actionId, a.type.name, index⟩] .skipped
  | completed {index a inner} (actionId : String) (durationMs : Nat) (ran : MayRun terms a)
    (nested : NestedTrace a inner) :
    StepTrace index a
      (.actionStarted ⟨executionId, actionId, a.type.name, index⟩ :: inner ++
        [.actionCompleted ⟨executionId, actionId, a.type.name, index⟩ durationMs]) .completed
  /-- A step that fails by itself has launched no flow. -/
  | failed {index a} (actionId : String) (error : ActionError) (ran : MayRun terms a) :
    StepTrace index a
      [.actionStarted ⟨executionId, actionId, a.type.name, index⟩,
        .actionFailed ⟨executionId, actionId, a.type.name, index⟩ error] .failed
  | cutOff {index a ms inner full} (actionId : String) (ran : MayRun terms a)
    (limited : terms a.type = some (some ms)) (nested : NestedTrace a full) (cut : inner <+: full) :
    StepTrace index a
      (.actionStarted ⟨executionId, actionId, a.type.name, index⟩ :: inner ++
        [.actionFailed ⟨executionId, actionId, a.type.name, index⟩ (.timeout ms)]) .failed

/-- The events between the start and the end of a step: those of all steps of one of
its flows, or none. -/
inductive NestedTrace : Action → List Event → Prop
  | none {a} : NestedTrace a []
  | flow {a slot events outcomes} {flow : Flow} (owned : (slot, some flow) ∈ a.nested)
    (steps : StepsTrace 0 flow.steps events outcomes) : NestedTrace a events

/-- The events of steps in their order, the first one at an index, and how each of them came out. -/
inductive StepsTrace : Nat → List Action → List Event → List Outcome → Prop
  | nil {index} : StepsTrace index [] [] []
  | cons {index a rest events more outcome outcomes} (first : StepTrace index a events outcome)
    (others : StepsTrace (index + 1) rest more outcomes) :
    StepsTrace index (a :: rest) (events ++ more) (outcome :: outcomes)

end

end Segments

theorem StepsTrace.length_outcomes {terms : Terms} {executionId : String}
    {index : Nat} {steps : List Action} {events : List Event} {outcomes : List Outcome}
    (h : StepsTrace terms executionId index steps events outcomes) :
    outcomes.length = steps.length := by
  induction steps generalizing index events outcomes with
  | nil =>
    cases h
    rfl
  | cons a rest ih =>
    cases h with
    | cons first others => rw [List.length_cons, List.length_cons, ih others]

/-! ## What the executor does with a step -/

namespace Executor

def terms (ex : Executor) : Terms := fun type => (ex.resolve type).map ex.limitFor

variable {ex : Executor} {m : String → List String} {setting : Setting}

theorem mem_of_resolve {type : ActionType} {p : Processor} (h : ex.resolve type = some p) :
    p ∈ ex.registry := by
  unfold resolve at h
  split at h
  · rename_i q hq
    cases h
    exact List.mem_of_find?_eq_some hq
  · split at h
    · exact List.mem_of_find?_eq_some h
    · cases h

/-- A time limit leaves a result as it is, or turns a first part of the events into a failure. -/
theorem within_publishes {base w : World} {before : List Event}
    {G : List Event → Except ActionError Unit → Prop} {t : Task World (Except ActionError Unit)}
    (limit : Option Nat) (h : Task.Publishes m base before G t w) :
    Task.Publishes m base before
      (fun events result => G events result ∨
        ∃ ms full other, limit = some ms ∧ result = .error (.timeout ms) ∧
          events <+: full ∧ G full other) (within limit t) w := by
  cases limit with
  | none => exact h.mono fun events result hG => .inl hG
  | some ms =>
    refine (h.limit ms).mapResult ?_
    rintro events result (⟨r, rfl, hG⟩ | ⟨rfl, full, other, hcut, hG⟩)
    · exact .inl hG
    · exact .inr ⟨ms, full, other, rfl, rfl, hcut, hG⟩

/-- What a processor and then a nested flow publish: nothing if the processor fails. -/
def Attempted (terms : Terms) (executionId : String) (a : Action)
    (events : List Event) : Except ActionError Unit → Prop
  | .ok () => NestedTrace terms executionId a events
  | .error _ => events = []

theorem attempt_publishes {terms : Terms} {executionId : String}
    {inv : Invocation} {p : Processor} {a : Action} {w : World}
    {nested : Slot → Scope World → Task World Unit} (step : StepRef) (hp : p.NotesSteps m)
    (hid : inv.actionId = w.freshId.1) (hstep : step.actionId = w.freshId.1)
    (hnested : ∀ slot scope w,
      Task.Publishes m w [] (fun events _ => NestedTrace terms executionId a events)
        (nested slot scope) w) :
    Task.Publishes m w [.actionStarted step] (Attempted terms executionId a)
      (attempt inv p a nested) (w.freshId.2.emit (.actionStarted step)) := by
  obtain ⟨hend, hwaits⟩ := hp inv a (w.freshId.2.emit (.actionStarted step))
  rw [hid, ← hstep] at hend hwaits
  have hrun : Task.Publishes m w [.actionStarted step] (fun events _ => events = [])
      (p.run inv a).run (w.freshId.2.emit (.actionStarted step)) := by
    refine ⟨⟨[], rfl, World.Recorded.actionStarted hstep hend⟩, hwaits.mono ?_⟩
    intro w' hw'
    exact ⟨[], [], .ok none, List.prefix_rfl, rfl, World.Recorded.actionStarted hstep hw'⟩
  refine hrun.bind ?_
  rintro _ result w' rfl
  match result with
  | .error e => exact .pure (World.Recorded.refl m w') rfl
  | .ok none => exact .pure (World.Recorded.refl m w') .none
  | .ok (some launch) => exact (hnested launch.slot _ w').mapResult fun events _ h => h

/-- What the step at an index publishes and counts. -/
def Stepped (terms : Terms) (executionId : String) (index : Nat) (a : Action)
    (events : List Event) (counts : Counts) : Prop :=
  ∃ outcome, StepTrace terms executionId index a events outcome ∧ counts = .tally [outcome]

/-- An attempt that fails has failed by itself, or was cut off in a nested flow. -/
theorem stepped_of_error {terms : Terms} {executionId actionId : String} {index : Nat} {a : Action}
    {inner : List Event} {limit : Option Nat} {e : ActionError} (ran : MayRun terms a)
    (hterms : terms a.type = some limit)
    (h : Attempted terms executionId a inner (.error e) ∨
      ∃ ms full other, limit = some ms ∧
        (.error e : Except ActionError Unit) = .error (.timeout ms) ∧ inner <+: full ∧
        Attempted terms executionId a full other) :
    Stepped terms executionId index a
      (.actionStarted ⟨executionId, actionId, a.type.name, index⟩ :: inner ++
        [.actionFailed ⟨executionId, actionId, a.type.name, index⟩ e]) .oneFailed := by
  rcases h with rfl | ⟨ms, full, other, rfl, he, hcut, hfull⟩
  · exact ⟨.failed, .failed actionId e ran, rfl⟩
  · cases he
    refine ⟨.failed, .cutOff actionId ran hterms ?_ hcut, rfl⟩
    cases other with
    | ok done => exact hfull
    | error e =>
      subst hfull
      exact .none

/-- A step that is handed to its processor publishes its start, then what the attempt
publishes, then its end. -/
theorem dispatch_publishes {inv : Invocation} {p : Processor} {a : Action} {index : Nat} {w : World}
    {nested : Slot → Scope World → Task World Unit} (hresolve : ex.resolve a.type = some p)
    (henabled : ∃ look, a.isDisabled look = false) (hp : p.NotesSteps m)
    (hid : inv.actionId = w.freshId.1)
    (hnested : ∀ slot scope w,
      Task.Publishes m w [] (fun events _ => NestedTrace ex.terms setting.executionId a events)
        (nested slot scope) w) :
    Task.Publishes m w [] (Stepped ex.terms setting.executionId index a)
      (ex.dispatch inv p ⟨setting.executionId, w.freshId.1, a.type.name, index⟩ a nested)
      w.freshId.2 := by
  let step : StepRef := ⟨setting.executionId, w.freshId.1, a.type.name, index⟩
  have hterms : ex.terms a.type = some (ex.limitFor p) := by
    rw [terms, hresolve, Option.map_some]
  have ran : MayRun ex.terms a := by
    refine ⟨?_, henabled⟩
    rw [hterms]
    exact Option.some_ne_none _
  have hattempt := attempt_publishes step hp hid rfl hnested
  have hwithin := within_publishes (ex.limitFor p) hattempt
  apply Task.Publishes.modify_iff.2
  apply Task.Publishes.after [.actionStarted step]
  apply Task.Publishes.read_iff.2
  apply hwithin.bind
  intro inner result w' houtcome
  apply Task.Publishes.read_iff.2
  cases result with
  | ok done =>
    apply Task.Publishes.modify_iff.2
    apply Task.Publishes.pure (World.Recorded.emit m w' rfl rfl)
    rcases houtcome with hinner | ⟨ms, full, other, -, hresult, -⟩
    · exact ⟨.completed, .completed _ _ ran hinner, rfl⟩
    · cases hresult
  | error e =>
    apply Task.Publishes.modify_iff.2
    apply Task.Publishes.pure (World.Recorded.emit m w' rfl rfl)
    exact stepped_of_error ran hterms houtcome

theorem step_publishes (hp : ∀ p ∈ ex.registry, p.NotesSteps m) {scope : Scope World} {index : Nat}
    {a : Action} {w : World} {nested : Slot → Scope World → Task World Unit}
    (hnested : ∀ slot scope w,
      Task.Publishes m w [] (fun events _ => NestedTrace ex.terms setting.executionId a events)
        (nested slot scope) w) :
    Task.Publishes m w [] (Stepped ex.terms setting.executionId index a)
      (ex.step setting scope index a nested) w := by
  have hskipped (cause : ex.terms a.type = none ∨ ∃ look, a.isDisabled look = true) :
      Task.Publishes m w [] (Stepped ex.terms setting.executionId index a)
        ((emit (.actionSkipped ⟨setting.executionId, w.freshId.1, a.type.name, index⟩)).bind
          fun _ => pure Counts.oneSkipped) w.freshId.2 := by
    apply Task.Publishes.modify_iff.2
    apply Task.Publishes.pure (World.Recorded.actionSkipped m w rfl)
    exact ⟨.skipped, .skipped _ cause, rfl⟩
  apply Task.Publishes.modifyGet_iff.2
  apply Task.Publishes.read_iff.2
  split
  · next hdisabled => exact hskipped (.inr ⟨_, hdisabled⟩)
  · next henabled =>
    have henabled := Bool.eq_false_iff.2 henabled
    split
    · next hresolve =>
      apply hskipped
      left
      rw [terms, hresolve, Option.map_none]
    · next p hresolve =>
      exact dispatch_publishes hresolve ⟨_, henabled⟩ (hp p (mem_of_resolve hresolve)) rfl hnested

/-! ## Flows and the flows in them -/

/-- What steps publish and count. -/
def AllStepped (terms : Terms) (executionId : String) (index : Nat)
    (steps : List Action) (events : List Event) (counts : Counts) : Prop :=
  ∃ outcomes, StepsTrace terms executionId index steps events outcomes ∧ counts = .tally outcomes

/-- What the steps of a flow publish, each with its own flows. -/
theorem runSteps_publishes (setting : Setting) (hp : ∀ p ∈ ex.registry, p.NotesSteps m)
    (scope : Scope World) (index : Nat) (steps : List Action) (w : World) :
    Task.Publishes m w [] (AllStepped ex.terms setting.executionId index steps)
      (ex.runSteps setting scope index steps) w := by
  induction steps using Action.steps_induction generalizing scope index w with
  | nil => exact .pure (World.Recorded.refl m w) ⟨[], .nil, rfl⟩
  | cons a rest flows ih =>
    have first : Task.Publishes m w [] (Stepped ex.terms setting.executionId index a)
        (ex.runStep setting scope index a) w := by
      rw [runStep_eq]
      apply step_publishes hp
      intro slot inner w'
      rw [runNested_eq]
      cases owned : a.flowIn slot with
      | none => exact .pure (World.Recorded.refl m w') .none
      | some flow =>
        obtain ⟨name, nested⟩ := Action.nested_of_flowIn owned
        refine (flows slot flow owned inner 0 w').mapResult ?_
        rintro events counts ⟨outcomes, hsteps, -⟩
        exact .flow nested hsteps
    refine first.bind ?_
    rintro events counts w' ⟨outcome, hfirst, rfl⟩
    refine (ih scope (index + 1) w').bind ?_
    rintro more others w'' ⟨outcomes, hothers, rfl⟩
    refine .pure (World.Recorded.refl m w'') ⟨outcome :: outcomes, ?_, ?_⟩
    · rw [List.append_nil]
      exact .cons hfirst hothers
    · exact (Counts.tally_cons outcome outcomes).symm

end Executor

end StepFlow
