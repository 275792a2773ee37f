import StepFlow.Config
import StepFlow.Registry

/-!
# Running flows

The steps of a flow are run one after another. A step is skipped if its condition evaluates to true
or if nothing can run it; otherwise it is handed to the processor for its type, under a time limit
if there is one. A step that fails is reported and never ends the flow.

`Executor.execute` is a task over the world. The order of events is the order in which it adds them,
and its recursion follows the nesting of the flow, so every run ends.
-/

namespace StepFlow

/-- Runs flows with a registry that covers every built-in type and with settings that can work. -/
structure Executor where
  registry : Registry
  config : Config
  complete : registry.missing? = none
  valid : config.zero? = none

namespace Executor

/-- Makes an executor. The settings are checked first. -/
def make (registry : Registry) (config : Config) : Except ActionError Executor :=
  match hz : config.zero?, hm : registry.missing? with
  | some which, _ => .error (.zeroCapacity which)
  | none, some type => .error (.unsupportedType (ActionType.builtIn type).tag)
  | none, none => .ok ⟨registry, config, hm, hz⟩

def knownTypes (ex : Executor) : KnownTypes := ex.config.knownTypes ex.registry.hostTypes

/-- Reads a flow and treats unknown steps as the settings say. -/
def readFlow? (ex : Executor) (v : Value) : Option Flow := Flow.ofValueWith? ex.knownTypes v

def resolve (ex : Executor) (type : ActionType) : Option Processor :=
  match ex.registry.find? type with
  | some p => some p
  | none =>
    match ex.config.unknownActions with
    | .fallback => ex.registry.find? (.builtIn .noop)
    | .drop => none

/-- The time limit for the steps of a processor: its own before the one in the settings. -/
def limitFor (ex : Executor) (p : Processor) : Option Nat := p.timeout <|> ex.config.actionTimeout

/-- What the steps of one flow have in common. -/
structure Setting where
  host : Host
  region : Option RegionId
  executionId : String

/-- The variables that the steps of a flow see: those of the caller, then those of the region, then
the application's values under their name. -/
def flowVariables (host : Host) (caller : Option (Scope World)) (region : Option RegionId)
    (w : World) (key : String) : Option Value :=
  match caller.bind fun scope => scope.lookup w key with
  | some v => some v
  | none =>
    match region.bind fun id => w.regions.lookup id key with
    | some v => some v
    | none => if key = appStateName then some (.object (w.values host.appState)) else none

def flowScope (host : Host) (caller : Option (Scope World)) (region : Option RegionId) :
    Scope World :=
  (Scope.root "flow").withSource (flowVariables host caller region)

def emit (e : Event) : Task World Unit := Task.modify (World.emit e)

/-- Carries out a step with a processor; `nested` runs the flow in a slot of the step. -/
def attempt (inv : Invocation) (p : Processor) (a : Action)
    (nested : Slot → Scope World → Task World Unit) : Task World (Except ActionError Unit) :=
  (p.run inv a).run.bind fun
    | .error e => .done (.error e)
    | .ok none => .done (.ok ())
    | .ok (some launch) =>
      (nested launch.slot (inv.scope.extend launch.bound)).mapResult fun _ => .ok ()

/-- Carries out a step within a time limit, if there is one. -/
def within (limit : Option Nat) (t : Task World (Except ActionError Unit)) :
    Task World (Except ActionError Unit) :=
  match limit with
  | none => t
  | some ms => (t.limit ms).mapResult fun result => result.getD (.error (.timeout ms))

/-- Hands a step to a processor and reports what comes of it. -/
def dispatch (ex : Executor) (inv : Invocation) (p : Processor) (step : StepRef) (a : Action)
    (nested : Slot → Scope World → Task World Unit) : Task World Counts := do
  emit (.actionStarted step)
  let started ← Task.read World.clock
  let result ← within (ex.limitFor p) (attempt inv p a nested)
  let ended ← Task.read World.clock
  match result with
  | .ok () =>
    emit (.actionCompleted step (ended - started))
    pure .oneCompleted
  | .error e =>
    emit (.actionFailed step e)
    pure .oneFailed

/-- Runs a step, or skips it. -/
def step (ex : Executor) (setting : Setting) (scope : Scope World) (index : Nat) (a : Action)
    (nested : Slot → Scope World → Task World Unit) : Task World Counts := do
  let actionId ← Task.modifyGet World.freshId
  let step : StepRef := ⟨setting.executionId, actionId, a.type.name, index⟩
  let disabled ← Task.read fun w => a.isDisabled (scope.lookup w)
  if disabled then
    emit (.actionSkipped step)
    pure .oneSkipped
  else
    match ex.resolve a.type with
    | none =>
      emit (.actionSkipped step)
      pure .oneSkipped
    | some p =>
      ex.dispatch ⟨setting.host, scope, setting.region, setting.executionId, actionId⟩
        p step a nested

mutual

/-- Runs a list of steps, counted from an index on. -/
def runSteps (ex : Executor) (setting : Setting) (scope : Scope World) :
    Nat → List Action → Task World Counts
  | _, [] => pure .zero
  | index, a :: rest => do
    let first ← runStep ex setting scope index a
    let others ← runSteps ex setting scope (index + 1) rest
    pure (first.add others)

/-- Runs a step with the flows that it owns. -/
def runStep (ex : Executor) (setting : Setting) (scope : Scope World) (index : Nat) :
    Action → Task World Counts
  | .simple o c => ex.step setting scope index (.simple o c) fun _ _ => pure ()
  | .modal kind view onResult c =>
    ex.step setting scope index (.modal kind view onResult c) fun
      | .onResult, inner => runSlot ex setting inner onResult
      | _, _ => pure ()
  | .request source onSuccess onError c =>
    ex.step setting scope index (.request source onSuccess onError c) fun
      | .onSuccess, inner => runSlot ex setting inner onSuccess
      | .onError, inner => runSlot ex setting inner onError
      | _, _ => pure ()

def runSlot (ex : Executor) (setting : Setting) (scope : Scope World) :
    Option (FlowOf Action) → Task World Unit
  | none => pure ()
  | some ⟨steps, _⟩ => (runSteps ex setting scope 0 steps).mapResult fun _ => ()

end

def runNested (ex : Executor) (setting : Setting) : Action → Slot → Scope World → Task World Unit
  | .modal _ _ onResult _, .onResult, scope => runSlot ex setting scope onResult
  | .request _ onSuccess _ _, .onSuccess, scope => runSlot ex setting scope onSuccess
  | .request _ _ onError _, .onError, scope => runSlot ex setting scope onError
  | _, _, _ => pure ()

/-- Runs a flow for a caller, who may have a scope, against a region, if there is one. -/
def execute (ex : Executor) (host : Host) (flow : Flow) (caller : Option (Scope World))
    (region : Option RegionId) : Task World Unit := do
  let executionId ← Task.modifyGet World.freshId
  emit (.flowStarted executionId flow.steps.length)
  let counts ← runSteps ex ⟨host, region, executionId⟩ (flowScope host caller region) 0 flow.steps
  emit (.flowCompleted executionId counts)

/-- Hands a single step to a processor, without an execution around it. -/
def process (ex : Executor) (inv : Invocation) (p : Processor) (a : Action) :
    Task World (Except ActionError Unit) :=
  attempt inv p a (runNested ex ⟨inv.host, inv.region, inv.executionId⟩ a)

end Executor

end StepFlow
