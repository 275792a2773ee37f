import StepFlow.Action.Written
import StepFlow.CommandLine
import StepFlow.Executor
import StepFlow.Json.Reader

/-!
# Carrying out a command

What a command does is a function of the files that it reads. `check` is done when it has read them.
A run is first prepared: it is a task over a world, and what it shows is read off the world at its
end, so that whoever owns the clock decides how the task is run.
-/

namespace StepFlow.CommandLine

structure Files where
  /-- The text of a file, if there is one. -/
  text? : String → Option String
  /-- What is left of the standard input. -/
  input : String

inductive Failure where
  | unreadable (path : String)
  | notJson (path : String)
  | notAnObject (path : String)
  | unreadableSettings (path : String)
  | invalidSettings (path : String)
  | noExecutor (cause : ActionError)
deriving DecidableEq

namespace Failure

def message : Failure → String
  | .unreadable path => "Failed to read " ++ path
  | .notJson path => path ++ " is not valid JSON"
  | .notAnObject path => path ++ " must contain a JSON object"
  | .unreadableSettings path => "Failed to read config " ++ path
  | .invalidSettings path => "Invalid config " ++ path
  | .noExecutor _ => "Failed to create executor"

end Failure

/-- A line for the standard output. -/
inductive Line where
  | effect (e : Effect)
  | message (m : Message)
  | state (name : String) (values : Object)
  | document (v : Value)
deriving DecidableEq

/-- A line for those who watch over a command. -/
inductive Note where
  | event (e : Event)
  | dropped (count total : Nat)
deriving DecidableEq

def Line.text : Line → String
  | .effect e => Json.render e.toValue
  | .message m => Json.render (.ofEntries [("message", m.toValue)])
  | .state name values =>
    Json.render (.ofEntries [("state", .ofEntries [(name, .object values)])])
  | .document v => Json.renderPretty v

def Note.text : Note → String
  | .event e => Json.render e.toValue
  | .dropped count total => toString count ++ " of " ++ toString total ++ " steps dropped"

structure Report where
  lines : List Line
  notes : List Note
deriving DecidableEq

/-! ## Reading files -/

namespace Files

/-- Reads a document; the minus sign stands for the standard input, which can be read once. -/
def document (files : Files) (path : String) : Except Failure (Value × Files) := do
  let (text, rest) ←
    if path = "-" then pure (files.input, { files with input := "" })
    else
      match files.text? path with
      | some text => pure (text, files)
      | none => .error (.unreadable path)
  match Json.read text with
  | .ok v => .ok (v, rest)
  | .error _ => .error (.notJson path)

def object? (files : Files) : Option String → Except Failure (Option Object × Files)
  | none => .ok (none, files)
  | some path => do
    let (v, rest) ← files.document path
    match v with
    | .object o => .ok (some o, rest)
    | _ => .error (.notAnObject path)

/-- Reads the settings. A policy on the command line goes before the one in the settings. -/
def config (files : Files) (reading : Reading) : Except Failure Config := do
  let config ←
    match reading.config with
    | none => pure Config.default
    | some path =>
      match files.text? path with
      | none => .error (.unreadableSettings path)
      | some text =>
        match Config.ofYaml text with
        | .ok config => pure config
        | .error _ => .error (.invalidSettings path)
  pure { config with unknownActions := reading.unknownActions.getD config.unknownActions }

def executor (files : Files) (reading : Reading) : Except Failure Executor := do
  let config ← files.config reading
  (Executor.make Registry.builtIn config).mapError .noExecutor

end Files

/-! ## Checking a flow -/

/-- Shows what is left of a flow and how many of its steps are not. -/
def check (files : Files) (flow : String) (reading : Reading) : Except Failure Report := do
  let executor ← files.executor reading
  let (document, _) ← files.document flow
  let total := (Flow.descriptors document).length
  match executor.readFlow? document with
  | some kept =>
    pure ⟨[.document (Flow.toValue kept)], [.dropped (total - kept.steps.length) total]⟩
  | none => pure ⟨[.document .null], [.dropped total total]⟩

/-! ## Running a flow -/

structure Session where
  executor : Executor
  host : Host
  flow : Flow
  caller : Option (Scope World)
  region : RegionId
  /-- The observers of the channels that are shown. -/
  observers : List Subscription
  world : World
  options : RunOptions

/-- How the host of a command answers: at once, with null; there is no network. -/
def answer (e : Effect) : Answer :=
  match e with
  | .httpRequest _ _ _ _ => ⟨0, .error (.effectFailed "no network")⟩
  | _ => ⟨0, .ok .null⟩

/-- The store with the timers that were asked for. -/
def timerStore (timers : List (String × Nat)) : ObjectStore :=
  timers.foldl (fun store timer =>
    ObjectStore.insert store timer.1 (.ofState .timer (Timer.ofPeriod timer.2 none))) []

def prepare (files : Files) (flow : String) (options : RunOptions) (reading : Reading) :
    Except Failure Session := do
  let executor ← files.executor reading
  let (document, files) ← files.document flow
  let flow := (executor.readFlow? document).getD ⟨[], false⟩
  let (bound, files) ← files.object? options.scope
  let (values, files) ← files.object? options.state
  let (appValues, _) ← files.object? options.appState
  let caller := bound.map (Scope.root "args").extend
  let (region, regions) := Regions.add [] (Region.make options.namespaceName none (values.getD []))
  let (appState, regions) := Regions.add regions (Region.make appStateName none (appValues.getD []))
  let (observers, bus) := (Bus.ofCapacity executor.config.busCapacity).observeAll options.listen
  pure {
    executor, flow, caller, region, observers, options
    host := ⟨fun _ => answer, Methods.builtIn, appState⟩
    world := ⟨0, regions, timerStore options.timers, bus, [], [], [], 0⟩ }

namespace Session

def task (s : Session) : Task World Unit :=
  s.executor.execute s.host s.flow s.caller (some s.region)

/-- The events that one who follows a run only after its end still gets. -/
def events (s : Session) (w : World) : List Event :=
  ((w.events.take (Broadcast.roomFor s.executor.config.eventCapacity)).map Prod.snd).reverse

/-- What a run shows at its end, after the effects. -/
def closing (s : Session) (w : World) : Report where
  lines :=
    (w.bus.drainAll s.observers).1.flatten.map .message ++
      (if s.options.dumpState then [.state s.options.namespaceName (w.values s.region)] else [])
  notes := if s.options.events then (s.events w).map .event else []

/-- What a run shows altogether. -/
def report (s : Session) (w : World) : Report :=
  { s.closing w with lines := w.performed.reverse.map .effect ++ (s.closing w).lines }

end Session

/-- Carries out a run, with time passing by itself. -/
def run (files : Files) (flow : String) (options : RunOptions) (reading : Reading) :
    Except Failure Report := do
  let session ← prepare files flow options reading
  pure (session.report (session.task.run World.pass session.world).2)

/-- The files that a command names. -/
def Command.paths : Command → List String
  | .run flow options reading =>
    flow :: (options.scope.toList ++ options.state.toList ++ options.appState.toList ++
      reading.config.toList)
  | .check flow reading => flow :: reading.config.toList
  | .help | .version => []

end StepFlow.CommandLine
