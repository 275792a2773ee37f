import StepFlow.CommandLine.Session

/-!
# The program

Reads the files that a command names, carries the command out and prints what it shows. Effects are
printed as soon as they are performed, and a task that waits really waits.
-/

open StepFlow StepFlow.CommandLine

namespace StepFlow.Main

/-- The variable of the environment that can name the settings. -/
def settingsVariable : String := "STEPFLOW_CONFIG"

def usage : String :=
  "Run server-driven UI action flows\n\n" ++
  "Usage: stepflow [-v] run [options] <FLOW>\n" ++
  "       stepflow [-v] check [options] <FLOW>\n\n" ++
  "A flow is a JSON document; - stands for the standard input.\n\n" ++
  "      --config <FILE>              settings (YAML)\n" ++
  "      --unknown-actions <POLICY>   drop or fallback\n" ++
  "  -v, --verbose                    accepted and without effect\n\n" ++
  "Options of run:\n" ++
  "      --scope <FILE>               variables visible to every step\n" ++
  "      --state <FILE>               first values of the flow's state region\n" ++
  "      --namespace <NAME>           name of that region, page by default\n" ++
  "      --app-state <FILE>           first values of the application's region\n" ++
  "      --listen <NAME>              print the messages of a channel\n" ++
  "      --events                     print events as JSON lines on stderr\n" ++
  "      --dump-state                 print the state region at the end\n" ++
  "      --timer <NAME=MS>            add a timer that steps can control\n"

def usageMessage : UsageError → String
  | .noArguments => usage
  | .noCommand => "a command is needed: run or check"
  | .unknownCommand word => "unrecognized command '" ++ word ++ "'"
  | .unknownArgument word => "unexpected argument '" ++ word ++ "'"
  | .missingFlow => "the flow is missing"
  | .invalidValue option => "invalid value for '" ++ option ++ "'"
  | .malformedValue option => "'" ++ option ++ "' takes NAME=MS with a period greater than zero"
  | .unexpectedValue option => "'" ++ option ++ "' takes no value"
  | .givenTwice option => "'" ++ option ++ "' cannot be used more than once"

/-- Reads a file, if it can be read. -/
def readFile? (path : String) : IO (Option String) := do
  try
    return some (← IO.FS.readFile path)
  catch _ => return none

/-- Reads what a command names. -/
def readFiles (command : Command) : IO Files := do
  let texts ← command.paths.mapM fun path => do return (path, ← readFile? path)
  let input ← if command.paths.contains "-" then (← IO.getStdin).readToEnd else pure ""
  return ⟨fun path => (texts.lookup path).join, input⟩

/-- Prints the effects that were performed since the world had so many. -/
def showEffects (shown : Nat) (w : World) : IO Unit := do
  let out ← IO.getStdout
  for e in (w.performed.take (w.performed.length - shown)).reverse do
    out.putStrLn (Line.effect e).text
  out.flush

/-- Runs a task while time passes. -/
def follow {α : Type} : Task World α → World → Nat → IO (α × World)
  | .done a, w, shown => do
    showEffects shown w
    return (a, w)
  | .look next, w, shown => follow (next w) w shown
  | .update change next, w, shown => follow next (change w) shown
  | .wait ms next, w, shown => do
    showEffects shown w
    IO.sleep (UInt32.ofNat (min ms 4294967295))
    follow next (w.pass ms) w.performed.length

def showReport (report : Report) : IO Unit := do
  for line in report.lines do
    IO.println line.text
  for note in report.notes do
    IO.eprintln note.text

/-- Prints why a command cannot be carried out. -/
def fail (failure : Failure) : IO UInt32 := do
  IO.eprintln ("Error: " ++ failure.message)
  return 1

def perform (command : Command) : IO UInt32 := do
  match command with
  | .help =>
    IO.print usage
    return 0
  | .version =>
    IO.println "stepflow 0.1.0"
    return 0
  | .check flow reading =>
    match check (← readFiles command) flow reading with
    | .error failure => fail failure
    | .ok report =>
      showReport report
      return 0
  | .run flow options reading =>
    match prepare (← readFiles command) flow options reading with
    | .error failure => fail failure
    | .ok session =>
      let (_, w) ← follow session.task session.world 0
      showReport (session.closing w)
      return 0

end StepFlow.Main

def main (arguments : List String) : IO UInt32 := do
  match parse arguments (← IO.getEnv StepFlow.Main.settingsVariable) with
  | .error e =>
    IO.eprintln (StepFlow.Main.usageMessage e)
    return 2
  | .ok command => StepFlow.Main.perform command
