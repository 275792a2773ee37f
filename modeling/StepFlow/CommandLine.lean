import StepFlow.Action.Known
import StepFlow.Numeral

/-!
# The command line

Two commands take a flow document: `run` executes it and `check` shows what is left of it when it is
read. Words are looked at from left to right, and the first fault ends it. An option is written
`--name value` or `--name=value`. A word of its own that starts with a minus sign is never the value
of an option, except for the minus sign alone, which stands for the standard input.
-/

namespace StepFlow.CommandLine

/-- What is wrong with a command line, with the word at fault. -/
inductive UsageError where
  | noArguments
  | noCommand
  | unknownCommand (word : String)
  | unknownArgument (word : String)
  | missingFlow
  /-- A value that is missing, empty or not one of those that are possible. -/
  | invalidValue (option : String)
  /-- A value that is not of the form wanted. -/
  | malformedValue (option : String)
  | unexpectedValue (option : String)
  | givenTwice (option : String)
deriving DecidableEq, Repr

/-- The options that say how flows are read. -/
structure Reading where
  /-- Where the settings are. -/
  config : Option String
  unknownActions : Option UnknownPolicy
deriving DecidableEq, Repr

/-- The options of a run. -/
structure RunOptions where
  /-- Where the variables are that every step sees. -/
  scope : Option String
  /-- Where the first values of the flow's region are. -/
  state : Option String
  /-- The name of the flow's region. -/
  namespaceName : String
  /-- Where the first values of the application's region are. -/
  appState : Option String
  /-- The channels whose messages are shown. -/
  listen : List String
  /-- Whether events are shown. -/
  events : Bool
  /-- Whether the flow's region is shown at the end. -/
  dumpState : Bool
  /-- Timers that steps can control, with their periods. -/
  timers : List (String × Nat)
deriving DecidableEq, Repr

inductive Command where
  | run (flow : String) (options : RunOptions) (reading : Reading)
  | check (flow : String) (reading : Reading)
  | help
  | version
deriving DecidableEq, Repr

/-! ## Options -/

/-- How often an option can be given, and whether it takes a value. -/
inductive Arity where
  | flag
  | single
  | repeated
deriving DecidableEq, Repr

/-- What the value of an option has to be. -/
inductive ValueForm where
  | path
  | text
  | policy
  | timer
deriving DecidableEq, Repr

structure OptionSpec where
  name : String
  arity : Arity
  form : ValueForm
deriving DecidableEq, Repr

def commonOptions : List OptionSpec := [
  ⟨"config", .single, .path⟩, ⟨"unknown-actions", .single, .policy⟩, ⟨"verbose", .flag, .text⟩]

def runSpecs : List OptionSpec := [
  ⟨"scope", .single, .path⟩, ⟨"state", .single, .path⟩, ⟨"namespace", .single, .text⟩,
  ⟨"app-state", .single, .path⟩, ⟨"listen", .repeated, .text⟩, ⟨"events", .flag, .text⟩,
  ⟨"dump-state", .flag, .text⟩, ⟨"timer", .repeated, .timer⟩] ++ commonOptions

/-- A timer as it is written, `NAME=MS`, with a period that is not zero. -/
def timer? (value : String) : Option (String × Nat) :=
  let name := value.toList.takeWhile (· ≠ '=')
  match value.toList.drop name.length with
  | '=' :: period =>
    let digits := match period with
      | '+' :: rest => rest
      | cs => cs
    match Numeral.natural? digits with
    | some ms =>
      if name ≠ [] ∧ 0 < ms ∧ Number.FitsWord ms then some (String.ofList name, ms) else none
    | none => none
  | _ => none

namespace OptionSpec

def check (spec : OptionSpec) (value : String) : Except UsageError Unit :=
  match spec.form with
  | .path => if value.isEmpty then .error (.invalidValue spec.name) else .ok ()
  | .text => .ok ()
  | .policy =>
    if (UnknownPolicy.vocabulary.strict? value).isSome then .ok ()
    else .error (.invalidValue spec.name)
  | .timer => if (timer? value).isSome then .ok () else .error (.malformedValue spec.name)

end OptionSpec

/-! ## Words -/

/-- What was found on a command line: the options given, the latest first, and the flow. -/
structure Found where
  given : List (String × String)
  flow : Option String
deriving DecidableEq, Repr

/-- A word that starts like an option. -/
inductive Word where
  | plain (text : String)
  /-- Two minus signs alone: no option follows. -/
  | separator
  | long (name : String) (value : Option String)
  | short (letters : List Char)
deriving DecidableEq, Repr

namespace Word

/-- Takes a word apart. -/
def ofString (s : String) : Word :=
  match s.toList with
  | ['-', '-'] => .separator
  | '-' :: '-' :: cs =>
    let name := cs.takeWhile (· ≠ '=')
    match cs.drop name.length with
    | '=' :: value => .long (String.ofList name) (some (String.ofList value))
    | _ => .long (String.ofList name) none
  | '-' :: c :: cs => .short (c :: cs)
  | _ => .plain s

end Word

/-- Adds an option that was given, if it can be given again. -/
def Found.give (found : Found) (spec : OptionSpec) (value : String) : Except UsageError Found :=
  if spec.arity ≠ .repeated ∧ (found.given.lookup spec.name).isSome then
    .error (.givenTwice spec.name)
  else .ok { found with given := (spec.name, value) :: found.given }

def Found.giveValue (found : Found) (spec : OptionSpec) (value : String) :
    Except UsageError Found := do
  let next ← found.give spec value
  spec.check value
  pure next

def findSpec (specs : List OptionSpec) (name : String) : Option OptionSpec :=
  specs.find? fun spec => spec.name = name

/-- What becomes of a command line where an option lacks its value and some word follows. -/
def missingValue (specs : List OptionSpec) (option : String) : Word → UsageError
  | .long name value =>
    match findSpec specs name with
    | none => if name = "help" then .invalidValue option else .unknownArgument name
    | some spec =>
      if spec.arity = .flag ∧ value.isSome then .unexpectedValue name else .invalidValue option
  | .short (c :: _) =>
    if c = 'v' ∨ c = 'h' then .invalidValue option else .unknownArgument (String.singleton c)
  | _ => .invalidValue option

/-- What ends the reading of a command line: a fault, or the wish for help. -/
inductive Stop where
  | usage (error : UsageError)
  | help
  | version
deriving DecidableEq, Repr

/-- A result that only a fault can prevent. -/
def orUsage {α : Type} : Except UsageError α → Except Stop α
  | .ok a => .ok a
  | .error e => .error (.usage e)

/-- The option that the letter `v` stands for. -/
def verbose : OptionSpec := ⟨"verbose", .flag, .text⟩

/-- Takes the letters of a word with one minus sign. -/
def takeLetters (found : Found) : List Char → Except Stop Found
  | [] => .ok found
  | c :: rest =>
    if c = 'v' then do
      let found ← orUsage (found.give verbose "")
      takeLetters found rest
    else if c = 'h' then .error .help
    else .error (.usage (.unknownArgument (String.singleton c)))

/-- Takes a word that is no option. -/
def takePlain (found : Found) (word : String) : Except Stop Found :=
  match found.flow with
  | none => .ok { found with flow := some word }
  | some _ => .error (.usage (.unknownArgument word))

/-- Takes the words of a command. -/
def takeWords (specs : List OptionSpec) (found : Found) : List String → Except Stop Found
  | [] => .ok found
  | word :: rest =>
    match Word.ofString word with
    | .separator => rest.foldlM takePlain found
    | .short letters => do
      let found ← takeLetters found letters
      takeWords specs found rest
    | .plain word => do
      let found ← takePlain found word
      takeWords specs found rest
    | .long name value =>
      match findSpec specs name with
      | none => if name = "help" then .error .help else .error (.usage (.unknownArgument name))
      | some spec =>
        if spec.arity = .flag then
          match value with
          | some _ => .error (.usage (.unexpectedValue name))
          | none => do
            let found ← orUsage (found.give spec "")
            takeWords specs found rest
        else
          match value, rest with
          | some value, rest => do
            let found ← orUsage (found.giveValue spec value)
            takeWords specs found rest
          | none, [] => .error (.usage (.invalidValue name))
          | none, next :: rest =>
            match Word.ofString next with
            | .plain value => do
              let found ← orUsage (found.giveValue spec value)
              takeWords specs found rest
            | word => .error (.usage (missingValue specs name word))

/-! ## Commands -/

namespace Found

def value? (found : Found) (name : String) : Option String := found.given.lookup name

/-- The values of an option that can be repeated, in the order given. -/
def values (found : Found) (name : String) : List String :=
  ((found.given.filter fun entry => entry.1 = name).map Prod.snd).reverse

def has (found : Found) (name : String) : Bool := (found.value? name).isSome

/-- The options that say how flows are read. The environment can name the settings too. -/
def reading (found : Found) (environment : Option String) : Except UsageError Reading :=
  let unknownActions := (found.value? "unknown-actions").bind UnknownPolicy.vocabulary.strict?
  match found.value? "config", environment with
  | some path, _ => .ok ⟨some path, unknownActions⟩
  | none, some "" => .error (.invalidValue "config")
  | none, environment => .ok ⟨environment, unknownActions⟩

/-- The flow, which has to be there. -/
def requiredFlow (found : Found) : Except UsageError String :=
  match found.flow with
  | none => .error .missingFlow
  | some "" => .error (.invalidValue "flow")
  | some flow => .ok flow

def runOptions (found : Found) : RunOptions where
  scope := found.value? "scope"
  state := found.value? "state"
  namespaceName := (found.value? "namespace").getD "page"
  appState := found.value? "app-state"
  listen := found.values "listen"
  events := found.has "events"
  dumpState := found.has "dump-state"
  timers := (found.values "timer").filterMap timer?

end Found

def command (name : String) (words : List String) (environment : Option String) :
    Except Stop Command := do
  match name with
  | "run" =>
    let found ← takeWords runSpecs ⟨[], none⟩ words
    let reading ← orUsage (found.reading environment)
    let flow ← orUsage found.requiredFlow
    pure (.run flow found.runOptions reading)
  | "check" =>
    let found ← takeWords commonOptions ⟨[], none⟩ words
    let reading ← orUsage (found.reading environment)
    let flow ← orUsage found.requiredFlow
    pure (.check flow reading)
  | "help" => .error .help
  | _ => .error (.usage (.unknownCommand name))

def takeCommand (found : Found) (environment : Option String) : List String → Except Stop Command
  | [] => .error (.usage .noCommand)
  | word :: rest =>
    match Word.ofString word with
    | .plain name => command name rest environment
    | .separator => .error (.usage (rest.head?.elim .noCommand .unknownArgument))
    | .short ['V'] => .error .version
    | .short letters => do
      let found ← takeLetters found letters
      takeCommand found environment rest
    | .long "verbose" none => do
      let found ← orUsage (found.give verbose "")
      takeCommand found environment rest
    | .long "verbose" (some _) => .error (.usage (.unexpectedValue "verbose"))
    | .long "help" none => .error .help
    | .long "version" none => .error .version
    | .long name _ => .error (.usage (.unknownArgument name))

/-- Reads a command line; the environment may name the settings. -/
def parse (words : List String) (environment : Option String) : Except UsageError Command :=
  if words.isEmpty then .error .noArguments
  else
    match takeCommand ⟨[], none⟩ environment words with
    | .ok c => .ok c
    | .error (.usage e) => .error e
    | .error .help => .ok .help
    | .error .version => .ok .version

end StepFlow.CommandLine
