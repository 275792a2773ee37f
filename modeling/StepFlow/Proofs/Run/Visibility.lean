import Mathlib.Logic.Relation
import StepFlow.Proofs.Registry
import StepFlow.Proofs.Run.Deadline
import StepFlow.Proofs.Run.Dispatch
import StepFlow.Proofs.Run.Spared
import StepFlow.Proofs.Scope

/-!
# What the steps of nested flows see

An execution runs flows inside flows. A level is one of them as it is entered: the launches that
lead to it, the scope of its steps, the steps, and the world in which the first of them comes up.
A step of a level comes up in the world that the steps before it leave, flows in them and time
limits included. If it is handed to its processor, and this launches a flow that the step owns,
then that flow is the next level, and its scope is the scope of the step with the variables of
the launch added to it.

`Launches` says what one launch does, and `Enters` follows launches from level to level. What a
variable stands for is known for one launch by `lookup_extend`, hence for every level that is
entered. What is shown of the steps of a level, each as it comes up, is shown by
`Enters.steps_induction`.

That levels are all there is to an execution is seen by letting processors go astray wherever they
are handed something else: this makes no difference to any run. A time limit may keep a run from
some of the levels, where it cuts a step off before a flow in it is entered.
-/

namespace StepFlow

/-! ## Levels -/

/-- A launch, and the index of the step that asked for it. -/
structure LaunchedAt where
  index : Nat
  launch : Launch

/-- What a launch binds a variable to. -/
def LaunchedAt.binding? (launched : LaunchedAt) (name : String) : Option Value :=
  Object.get? (Object.ofList launched.launch.bound) name

/-- A flow that is entered: the launches that led there, the innermost first, the scope in which its
steps are run, the steps, and the world in which the first one comes up. -/
structure Level where
  launches : List LaunchedAt
  scope : Scope World
  steps : List Action
  world : World

namespace Executor

variable (ex : Executor) (setting : Setting)

/-- The world in which the step at an index comes up: what the steps before it leave. -/
def worldAt (l : Level) (index : Nat) : World :=
  ((ex.runSteps setting l.scope 0 (l.steps.take index)).run World.pass l.world).2

/-- What the processor gets for a step that comes up in a world. -/
def invocation (scope : Scope World) (w : World) : Invocation :=
  ⟨setting.host, scope, setting.region, setting.executionId, w.freshId.1⟩

/-- The world in which the processor begins, after the start of the step was reported. -/
def started (index : Nat) (a : Action) (w : World) : World :=
  w.freshId.2.emit (.actionStarted (nameOf setting index a w))

structure Hands (l : Level) (index : Nat) (a : Action) (p : Processor) : Prop where
  step : l.steps[index]? = some a
  enabled : a.isDisabled (l.scope.lookup (ex.worldAt setting l index).freshId.2) = false
  resolved : ex.resolve a.type = some p

/-- What the processor of a step comes to, and in which world. -/
def work (l : Level) (index : Nat) (a : Action) (p : Processor) :
    Except ActionError (Option Launch) × World :=
  (p.run (invocation setting l.scope (ex.worldAt setting l index)) a).run.run World.pass
    (started setting index a (ex.worldAt setting l index))

/-- The processor of a step launches a flow of the step, which is thereby entered. -/
inductive Launches : Level → Level → Prop
  | mk {l index a p launch flow u} (hands : ex.Hands setting l index a p)
    (asked : ex.work setting l index a p = (.ok (some launch), u))
    (owned : a.flowIn launch.slot = some flow) :
    Launches l ⟨⟨index, launch⟩ :: l.launches, l.scope.extend launch.bound, flow.steps, u⟩

/-- A level is entered from another one by launches, or is that level. -/
abbrev Enters : Level → Level → Prop := Relation.ReflTransGen (ex.Launches setting)

variable {ex setting} {outer l l' : Level}

theorem worldAt_succ {index : Nat} {a : Action} (step : l.steps[index]? = some a) :
    ex.worldAt setting l (index + 1) =
      ((ex.runStep setting l.scope index a).run World.pass (ex.worldAt setting l index)).2 := by
  have single (w : World) : ((ex.runSteps setting l.scope index [a]).run World.pass w).2 =
      ((ex.runStep setting l.scope index a).run World.pass w).2 := by
    rw [runSteps]
    exact congrArg Prod.snd (Task.run_bind World.pass _ _ w)
  have length : (l.steps.take index).length = index := by
    have bound := (List.getElem?_eq_some_iff.mp step).1
    rw [List.length_take]
    omega
  rw [worldAt, List.take_add_one, step, Option.toList_some, runSteps_append, Task.run_bind,
    Task.run_mapResult, length, Nat.zero_add, single]
  rfl

/-- What holds of a level when all of its steps have come up, and when one comes up if it
holds of the flows which that step launches and when the next one comes up, holds of every
level that is entered. -/
theorem Enters.steps_induction {P : Level → Nat → List Action → Prop}
    (nil : ∀ l index, ex.Enters setting outer l → P l index [])
    (cons : ∀ l index a rest, ex.Enters setting outer l → l.steps[index]? = some a →
      (∀ p launch flow u, ex.Hands setting l index a p →
        ex.work setting l index a p = (.ok (some launch), u) → a.flowIn launch.slot = some flow →
        P ⟨⟨index, launch⟩ :: l.launches, l.scope.extend launch.bound, flow.steps, u⟩
          0 flow.steps) →
      P l (index + 1) rest → P l index (a :: rest))
    (entered : ex.Enters setting outer l) : P l 0 l.steps := by
  have all (rest : List Action) : ∀ (before : List Action) (l : Level), ex.Enters setting outer l →
      l.steps = before ++ rest → P l before.length rest := by
    induction rest using Action.steps_induction with
    | nil => exact fun before l entered _ => nil l before.length entered
    | cons a rest flows ih =>
      intro before l entered steps
      have step : l.steps[before.length]? = some a := by
        rw [steps, List.getElem?_append_right (Nat.le_refl _), Nat.sub_self]
        rfl
      apply cons l before.length a rest entered step
      · intro p launch flow u hands work owned
        exact flows launch.slot flow owned [] _ (entered.tail (.mk hands work owned)) rfl
      · have next := ih (before ++ [a]) l entered (by rw [steps]; simp)
        rwa [List.length_append, List.length_singleton] at next
  exact all l.steps [] l entered rfl

/-! ## What a level sees -/

theorem Launches.lookup (h : ex.Launches setting l l') (now : World) (name : String) :
    ∃ launched, l'.launches = launched :: l.launches ∧
      l'.scope.lookup now name = (launched.binding? name).or (l.scope.lookup now name) := by
  cases h with
  | mk hands asked owned => exact ⟨_, rfl, l.scope.lookup_extend _ now name⟩

/-- The launches on the way to a level are asked in turn, the innermost first, and then the
level that all began at. -/
theorem Enters.lookup (h : ex.Enters setting outer l) (top : outer.launches = []) (now : World)
    (name : String) :
    l.scope.lookup now name =
      (l.launches.findSome? fun launched => launched.binding? name).or
        (outer.scope.lookup now name) := by
  induction h with
  | refl => rw [top, List.findSome?_nil, Option.none_or]
  | tail _ step ih =>
    obtain ⟨launched, launches, found⟩ := step.lookup now name
    rw [found, ih, launches, List.findSome?_cons]
    cases launched.binding? name <;> rfl

/-- The scope of an execution asks the caller, then the region, then the application. -/
theorem lookup_flowScope (host : Host) (caller : Option (Scope World)) (region : Option RegionId)
    (now : World) (name : String) :
    (flowScope host caller region).lookup now name =
      [caller.bind fun scope => scope.lookup now name,
        region.bind fun id => now.regions.lookup id name,
        if name = appStateName then some (.object (now.values host.appState))
        else none].findSome? id := by
  rw [flowScope, Scope.lookup_withSource_root, flowVariables]
  cases caller.bind fun scope => scope.lookup now name with
  | some v => rfl
  | none =>
    cases region.bind fun id => now.regions.lookup id name with
    | some v => rfl
    | none => exact List.findSome?_singleton.symm

/-! ## Whose variables a level sees -/

/-- A launch leads into a flow of the step that asked for it. -/
theorem Launches.owner (h : ex.Launches setting l l') :
    ∃ launched a p flow,
      l'.launches = launched :: l.launches ∧ ex.Hands setting l launched.index a p ∧
      (ex.work setting l launched.index a p).1 = .ok (some launched.launch) ∧
      a.flowIn launched.launch.slot = some flow ∧ flow.steps = l'.steps := by
  cases h with
  | mk hands asked owned => exact ⟨_, _, _, _, rfl, hands, congrArg Prod.fst asked, owned, rfl⟩

/-- A step of a level that is entered from another one is in the flow of that one. -/
theorem Enters.holds (h : ex.Enters setting l l') {flow : Flow} (steps : flow.steps = l.steps)
    {b : Action} (mem : b ∈ l'.steps) : flow.Holds b := by
  induction h using Relation.ReflTransGen.head_induction_on generalizing flow with
  | refl =>
    rw [← steps] at mem
    exact .own mem
  | head step rest ih =>
    obtain ⟨launched, a, p, inner, -, hands, -, owned, same⟩ := step.owner
    obtain ⟨name, nested⟩ := Action.nested_of_flowIn owned
    have owner : a ∈ flow.steps := steps ▸ List.mem_of_getElem? hands.step
    exact .nested owner nested (ih same)

/-- Each launch that a level sees was asked for by a step around it: by one that comes up inside the
launches further out, and owns a flow with all steps of the level in it. -/
theorem Enters.owner (h : ex.Enters setting outer l) (top : outer.launches = [])
    {inside around : List LaunchedAt} {launched : LaunchedAt}
    (split : l.launches = inside ++ launched :: around) :
    ∃ l' a p flow, ex.Enters setting outer l' ∧ l'.launches = around ∧
      ex.Hands setting l' launched.index a p ∧
      (ex.work setting l' launched.index a p).1 = .ok (some launched.launch) ∧
      a.flowIn launched.launch.slot = some flow ∧ ∀ b ∈ l.steps, flow.Holds b := by
  -- the launch leads into a level, from which the launches inside it lead on
  have ways : ∃ l₁ l₂, ex.Enters setting outer l₁ ∧ l₁.launches = around ∧
    ex.Launches setting l₁ l₂ ∧
      l₂.launches = launched :: around ∧ ex.Enters setting l₂ l := by
    induction h generalizing inside with
    | refl =>
      rw [top] at split
      cases inside <;> cases split
    | @tail m m' before step ih =>
      obtain ⟨newest, a, p, flow, launches, -⟩ := step.owner
      cases inside with
      | nil =>
        rw [launches, List.nil_append] at split
        obtain ⟨rfl, rfl⟩ := List.cons.inj split
        exact ⟨m, m', before, rfl, step, launches, .refl⟩
      | cons first inside =>
        rw [launches, List.cons_append] at split
        obtain ⟨l₁, l₂, outside, around, launch, same, within⟩ := ih (List.cons.inj split).2
        exact ⟨l₁, l₂, outside, around, launch, same, within.tail step⟩
  obtain ⟨l₁, l₂, outside, same, step, launches, within⟩ := ways
  obtain ⟨newest, a, p, flow, newer, hands, asked, owned, steps⟩ := step.owner
  rw [newer, same] at launches
  obtain ⟨rfl, -⟩ := List.cons.inj launches
  exact ⟨l₁, a, p, flow, outside, same, hands, asked, owned, fun b mem => within.holds steps mem⟩

/-! ## Processors that go astray elsewhere -/

end Executor

/-- Tells whether something is expected of a processor: with an invocation, a step, and the world
in which it begins. -/
abbrev Expectation : Type := Invocation → Action → World → Bool

/-- The processor, made to do something else with whatever is not expected of it. -/
def Processor.confined (p : Processor) (expected : Expectation)
    (astray : Invocation → Action → Attempt (Option Launch)) : Processor :=
  { p with
    run := fun inv a => ExceptT.mk <| .look fun w =>
      if expected inv a w then (p.run inv a).run else (astray inv a).run }

namespace Executor

variable {ex : Executor} {setting : Setting} {expected : Expectation}
variable {astray : Invocation → Action → Attempt (Option Launch)}

/-- The executor, with processors that go astray with whatever is not expected of them. -/
def confined (ex : Executor) (expected : Expectation)
    (astray : Invocation → Action → Attempt (Option Launch)) : Executor where
  registry := ex.registry.map fun p => p.confined expected astray
  config := ex.config
  complete :=
    (ex.registry.missing?_map (fun p => p.confined expected astray) fun _ => rfl).trans ex.complete
  valid := ex.valid

theorem resolve_confined (ex : Executor) (type : ActionType) :
    (ex.confined expected astray).resolve type =
      (ex.resolve type).map fun p => p.confined expected astray :=
  resolve_map ex (ex.confined expected astray) (fun p => p.confined expected astray)
    (fun _ => rfl) rfl rfl
    type

/-- Two tasks do the same from a world on: they wait for the same times, in the same worlds, and
come to the same end. -/
abbrev Lockstep {α : Type} (t t' : Task World α) (w : World) : Prop :=
  Task.Agrees World.pass Eq Eq t w t' w

section Lockstep

variable {inv : Invocation} {p : Processor} {a : Action} {w : World}
variable {nested nested' : Slot → Scope World → Task World Unit}

theorem lockstep_attempt (known : expected inv a w = true)
    (hnested : ∀ launch u, (p.run inv a).run.run World.pass w = (.ok (some launch), u) →
      Lockstep (nested launch.slot (inv.scope.extend launch.bound))
        (nested' launch.slot (inv.scope.extend launch.bound)) u) :
    Lockstep (attempt inv p a nested) (attempt inv (p.confined expected astray) a nested') w := by
  have first : Lockstep (p.run inv a).run ((p.confined expected astray).run inv a).run w := by
    refine (Task.Agrees.refl (p.run inv a).run w).congr rfl ?_
    show Task.settle (if _ then _ else _) w = _
    rw [if_pos known]
  refine first.bindRun ?_
  obtain ⟨results, worlds⟩ := first.run
  rw [← results, ← worlds]
  rcases outcome : (p.run inv a).run.run World.pass w with ⟨result, u⟩
  match result with
  | .error e => exact .refl _ u
  | .ok none => exact .refl _ u
  | .ok (some launch) => exact (hnested launch u outcome).mapResult fun _ _ _ => rfl

theorem lockstep_within {t t' : Task World (Except ActionError Unit)} (limit : Option Nat)
    (h : Lockstep t t' w) : Lockstep (within limit t) (within limit t') w := by
  cases limit with
  | none => exact h
  | some ms =>
    refine (h.limit (fun ms _ _ same => congrArg (World.pass ms) same) ms).mapResult ?_
    rintro _ _ (⟨⟨⟩⟩ | _)
    · rfl
    · rfl

theorem lockstep_step (scope : Scope World) (index : Nat)
    (known : ∀ p, a.isDisabled (scope.lookup w.freshId.2) = false → ex.resolve a.type = some p →
      expected (invocation setting scope w) a (started setting index a w) = true)
    (hnested : ∀ p launch u, a.isDisabled (scope.lookup w.freshId.2) = false →
      ex.resolve a.type = some p →
      (p.run (invocation setting scope w) a).run.run World.pass (started setting index a w) =
        (.ok (some launch), u) →
      Lockstep (nested launch.slot (scope.extend launch.bound))
        (nested' launch.slot (scope.extend launch.bound)) u) :
    Lockstep (ex.step setting scope index a nested)
      ((ex.confined expected astray).step setting scope index a nested') w := by
  apply Task.Agrees.after (Task.settle_modifyGet _ _) (Task.settle_modifyGet _ _)
  apply Task.Agrees.after (Task.settle_read _ _) (Task.settle_read _ _)
  rw [resolve_confined]
  cases hdisabled : a.isDisabled (scope.lookup w.freshId.2) with
  | true => exact .refl _ _
  | false =>
    cases hresolve : ex.resolve a.type with
    | none => exact .refl _ _
    | some p =>
      have attempted : Lockstep (attempt (invocation setting scope w) p a nested)
          (attempt (invocation setting scope w) (p.confined expected astray) a nested')
          (started setting index a w) :=
        lockstep_attempt (known p hdisabled hresolve) fun launch u outcome =>
          hnested p launch u hdisabled hresolve outcome
      apply Task.Agrees.after (Task.settle_modify _ _) (Task.settle_modify _ _)
      apply Task.Agrees.after (Task.settle_read _ _) (Task.settle_read _ _)
      refine (lockstep_within (ex.limitFor p) attempted).bind ?_
      rintro result _ u _ rfl rfl
      exact .refl _ u

end Lockstep

/-! ## Levels are all that there is -/

/-- Whatever is handed to processors on the levels of an execution is expected. -/
def Expects (ex : Executor) (setting : Setting) (outer : Level) (expected : Expectation) : Prop :=
  ∀ l index a p, ex.Enters setting outer l → ex.Hands setting l index a p →
    expected (invocation setting l.scope (ex.worldAt setting l index)) a
      (started setting index a (ex.worldAt setting l index)) = true

/-- The steps of a level go the same, in the flows that they launch too. -/
theorem lockstep_runSteps {outer l : Level} (known : ex.Expects setting outer expected)
    (entered : ex.Enters setting outer l) :
    Lockstep (ex.runSteps setting l.scope 0 l.steps)
      ((ex.confined expected astray).runSteps setting l.scope 0 l.steps) l.world := by
  refine entered.steps_induction (P := fun l index rest =>
    Lockstep (ex.runSteps setting l.scope index rest)
      ((ex.confined expected astray).runSteps setting l.scope index rest)
      (ex.worldAt setting l index)) ?_ ?_
  · intro l index _
    exact .refl _ _
  · intro l index a rest entered step flows others
    have first : Lockstep (ex.runStep setting l.scope index a)
        ((ex.confined expected astray).runStep setting l.scope index a)
        (ex.worldAt setting l index) := by
      rw [runStep_eq, runStep_eq]
      apply lockstep_step
      · intro p enabled resolved
        exact known l index a p entered ⟨step, enabled, resolved⟩
      · intro p launch u enabled resolved work
        rw [runNested_eq, runNested_eq]
        cases owned : a.flowIn launch.slot with
        | none => exact .refl _ _
        | some flow =>
          have inside := flows p launch flow u ⟨step, enabled, resolved⟩ work owned
          exact inside.mapResult fun _ _ _ => rfl
    rw [worldAt_succ step] at others
    refine first.bindRun ?_
    obtain ⟨results, worlds⟩ := first.run
    rw [← results, ← worlds]
    exact others.mapResult fun _ _ same => congrArg _ same

def topLevel (host : Host) (flow : Flow) (caller : Option (Scope World)) (region : Option RegionId)
    (w : World) : Level :=
  ⟨[], flowScope host caller region, flow.steps, begun flow.steps.length w⟩

theorem execute_confined {host : Host} {flow : Flow} {caller : Option (Scope World)}
    {region : Option RegionId} {w : World}
    (known : ex.Expects ⟨host, region, w.freshId.1⟩ (topLevel host flow caller region w) expected) :
    ((ex.confined expected astray).execute host flow caller region).run World.pass w =
      (ex.execute host flow caller region).run World.pass w := by
  have steps : Lockstep
      (ex.runSteps ⟨host, region, w.freshId.1⟩ (flowScope host caller region) 0 flow.steps)
      ((ex.confined expected astray).runSteps ⟨host, region, w.freshId.1⟩
        (flowScope host caller region) 0 flow.steps) (begun flow.steps.length w) :=
    lockstep_runSteps known .refl
  have whole : Lockstep (ex.execute host flow caller region)
      ((ex.confined expected astray).execute host flow caller region) w := by
    apply Task.Agrees.after (Task.settle_modifyGet _ _) (Task.settle_modifyGet _ _)
    apply Task.Agrees.after (Task.settle_modify _ _) (Task.settle_modify _ _)
    refine steps.bind ?_
    rintro counts _ u _ rfl rfl
    exact .refl _ u
  obtain ⟨results, worlds⟩ := whole.run
  exact (Prod.ext results worlds).symm

/-- In a flow at any depth, whatever the world is by then, a variable is the first that is defined
of: what the launches around the flow bind it to, the innermost first; what it is to the caller;
what it is in the region of the execution; and, under the name for that, the values of the
application. Null is defined like any other value.

Each of these launches was asked for by a step around the flow, so that no step outside the flow of
a launch sees its variables. And processors are handed nothing but steps of such levels, in the
scope of the level and the world that all steps before have left: what they would do with anything
else makes no difference to the run. -/
theorem nested_steps_see (ex : Executor) (host : Host) (flow : Flow) (caller : Option (Scope World))
    (region : Option RegionId) (w : World) :
    let setting : Setting := ⟨host, region, w.freshId.1⟩
    let outer : Level := topLevel host flow caller region w
    (∀ l, ex.Enters setting outer l → ∀ (now : World) (name : String),
      l.scope.lookup now name =
        (l.launches.map (fun launched => launched.binding? name) ++
          [caller.bind fun scope => scope.lookup now name,
            region.bind fun id => now.regions.lookup id name,
            if name = appStateName then some (.object (now.values host.appState))
            else none]).findSome? id) ∧
    (∀ l, ex.Enters setting outer l → ∀ inside launched around,
      l.launches = inside ++ launched :: around →
        ∃ l' a p owned, ex.Enters setting outer l' ∧ l'.launches = around ∧
          ex.Hands setting l' launched.index a p ∧
          (ex.work setting l' launched.index a p).1 = .ok (some launched.launch) ∧
          a.flowIn launched.launch.slot = some owned ∧ ∀ b ∈ l.steps, owned.Holds b) ∧
    (∀ l index a, ex.Enters setting outer l → l.steps[index]? = some a →
      ex.worldAt setting l (index + 1) =
        ((ex.runStep setting l.scope index a).run World.pass (ex.worldAt setting l index)).2) ∧
    ∀ (expected : Expectation) (astray : Invocation → Action → Attempt (Option Launch)),
      ex.Expects setting outer expected →
        ((ex.confined expected astray).execute host flow caller region).run World.pass w =
          (ex.execute host flow caller region).run World.pass w := by
  intro setting outer
  refine ⟨?_, ?_, ?_, ?_⟩
  · intro l entered now name
    have top : outer.scope.lookup now name = _ := lookup_flowScope host caller region now name
    rw [entered.lookup rfl now name, top, List.findSome?_append, List.findSome?_map]
    rfl
  · intro l entered inside launched around split
    exact entered.owner rfl split
  · intro l index a entered step
    exact worldAt_succ step
  · intro expected astray known
    exact execute_confined known

/-- A dialog in the flow of a dialog. The first one is answered, then a value of the region is set,
and the second one is closed without an answer. -/
theorem nested_steps_see_dialog :
    let ex : Executor := ⟨Registry.builtIn, .default, Registry.missing?_builtIn, rfl⟩
    let dialog (steps : List Action) : Action :=
      .modal .dialog ⟨.literal "ask", .null, true⟩ (some ⟨steps, false⟩) none
    let count : Action := .simple (.setState none [⟨"count", .ofNat 1⟩] true) none
    let rest : Action := .simple (.noop none) none
    let flow : Flow := ⟨[dialog [count, dialog [rest]], rest], false⟩
    let host : Host :=
      ⟨fun before _ => ⟨0, .ok (if before.isEmpty then .string "yes" else .null)⟩, [], 0⟩
    let caller : Scope World := (Scope.root "caller").extend [("draft", .null)]
    let page : Region := Region.make "page" none [("count", .ofNat 0), ("draft", .ofNat 7)]
    let app : Region := Region.make appStateName none [("lang", .string "en")]
    let w : World := ⟨0, [page, app], [], .ofCapacity 1, [], [], [], 0⟩
    let setting : Setting := ⟨host, some 1, w.freshId.1⟩
    let outer : Level := topLevel host flow (some caller) (some 1) w
    let yes : Launch := ⟨.onResult, [("result", .string "yes")]⟩
    let closed : Launch := ⟨.onResult, [("result", .null)]⟩
    let middle : Level := ⟨[⟨0, yes⟩], outer.scope.extend yes.bound, [count, dialog [rest]],
      (ex.work setting outer 0 (dialog [count, dialog [rest]]) (.ofBuiltIn .showDialog)).2⟩
    let inner : Level := ⟨[⟨1, closed⟩, ⟨0, yes⟩], middle.scope.extend closed.bound, [rest],
      (ex.work setting middle 1 (dialog [rest]) (.ofBuiltIn .showDialog)).2⟩
    let now : World := ex.worldAt setting inner 0
    let ours : Expectation := fun inv _ _ => inv.executionId = setting.executionId
    let silent : Invocation → Action → Attempt (Option Launch) := fun _ _ => pure none
    ex.Enters setting outer inner ∧
    inner.scope.lookup now "result" = some .null ∧ inner.scope.lookup now "draft" = some .null ∧
    inner.scope.lookup now "count" = some (.ofNat 1) ∧
    inner.scope.lookup now appStateName = some (.object app.values) ∧
    inner.scope.lookup now "lang" = none ∧
    outer.scope.lookup (ex.worldAt setting outer 1) "result" = none ∧
    (∃ l a p owned, ex.Enters setting outer l ∧ l.launches = [⟨0, yes⟩] ∧ ex.Hands setting l 1 a p ∧
      (ex.work setting l 1 a p).1 = .ok (some closed) ∧ a.flowIn .onResult = some owned ∧
      owned.Holds rest) ∧
    ex.Expects setting outer ours ∧
    ((ex.confined ours silent).execute host flow (some caller) (some 1)).run World.pass w =
      (ex.execute host flow (some caller) (some 1)).run World.pass w := by
  intro ex dialog count rest flow host caller page app w setting outer yes closed middle inner now
    ours silent
  obtain ⟨see, owners, -, same⟩ := nested_steps_see ex host flow (some caller) (some 1) w
  have around : ex.Launches setting outer middle :=
    @Launches.mk ex setting outer 0 _ (.ofBuiltIn .showDialog) yes ⟨[count, dialog [rest]], false⟩ _
      ⟨rfl, rfl, rfl⟩ rfl rfl
  have inside : ex.Launches setting middle inner :=
    @Launches.mk ex setting middle 1 _ (.ofBuiltIn .showDialog) closed ⟨[rest], false⟩ _
      ⟨rfl, rfl, rfl⟩ rfl rfl
  have entered : ex.Enters setting outer inner := .tail (.single around) inside
  have expects : ex.Expects setting outer ours := fun _ _ _ _ _ _ => decide_eq_true rfl
  refine ⟨entered, ?_, ?_, ?_, ?_, ?_, ?_, ?_, expects, same ours silent expects⟩
  · exact (see inner entered now _).trans (by decide +kernel)
  · exact (see inner entered now _).trans (by decide +kernel)
  · exact (see inner entered now _).trans (by decide +kernel)
  · exact (see inner entered now _).trans (by decide +kernel)
  · exact (see inner entered now _).trans (by decide +kernel)
  · exact (see outer .refl _ _).trans (by decide +kernel)
  · obtain ⟨l, a, p, owned, hl, launches, hands, asked, slot, holds⟩ :=
      owners inner entered [] ⟨1, closed⟩ _ rfl
    exact ⟨l, a, p, owned, hl, launches, hands, asked, slot, holds rest (List.mem_singleton_self _)⟩

end Executor

end StepFlow
