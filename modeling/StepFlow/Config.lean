import StepFlow.Action.Known
import StepFlow.Yaml.Reader

/-!
# Settings of an executor

Every setting has a default, so an empty document is a valid one, and settings of other names are
passed over. A document is YAML or a value that was read before; either way a setting in it is a
word, a natural number or nothing, whichever the setting calls for.
-/

namespace StepFlow

structure Config where
  unknownActions : UnknownPolicy
  /-- How long a step may take, in milliseconds. -/
  actionTimeout : Option Nat
  /-- How many events are kept for one who follows a run. -/
  eventCapacity : Nat
  /-- How many messages a channel keeps for one who observes it. -/
  busCapacity : Nat
deriving DecidableEq, Repr

/-- A setting as it is written, read in each of the ways in which settings are. -/
structure Setting where
  word : Option String
  natural : Option Nat
  /-- A natural number, or none where it is written that there is none. -/
  naturalOrNull : Option (Option Nat)
deriving DecidableEq, Repr

inductive ConfigError where
  | unreadable
  | zero (which : Capacity)
deriving DecidableEq, Repr

namespace Setting

/-- A setting in a document value. -/
def ofValue (v : Value) : Setting where
  word :=
    match v with
    | .string s | .object [(s, .null)] => some s
    | _ => none
  natural := natural v
  naturalOrNull := if v = .null then some none else (natural v).map some
where
  /-- The natural number that a value is. -/
  natural : Value → Option Nat
    | .number n => n.natural?
    | _ => none

/-- A setting in a YAML document. -/
def ofYaml (document y : Yaml) : Setting :=
  let y := document.resolve? y
  ⟨y.bind Yaml.word?, y.bind Yaml.natural?, y.bind Yaml.naturalOrNull?⟩

def policy? (s : Setting) : Option UnknownPolicy :=
  s.word.bind UnknownPolicy.vocabulary.strict?

def natural? (s : Setting) : Option Nat :=
  s.natural.filter fun n => Number.FitsWord n

def naturalOrNull? (s : Setting) : Option (Option Nat) :=
  s.naturalOrNull.filter fun n => n.all fun n => Number.FitsWord n

end Setting

namespace Config

def default : Config := ⟨.fallback, none, 1024, 64⟩

def names : List String :=
  ["unknown_actions", "action_timeout_ms", "event_capacity", "bus_capacity"]

def apply (c : Config) (name : String) (s : Setting) : Option Config :=
  match name with
  | "unknown_actions" => s.policy?.map fun p => { c with unknownActions := p }
  | "action_timeout_ms" => s.naturalOrNull?.map fun t => { c with actionTimeout := t }
  | "event_capacity" => s.natural?.map fun n => { c with eventCapacity := n }
  | "bus_capacity" => s.natural?.map fun n => { c with busCapacity := n }
  | _ => some c

/-- Applies settings over the defaults; none may be set twice. -/
def ofSettings? (settings : List (String × Setting)) : Option Config :=
  let known := (settings.map Prod.fst).filter names.contains
  if known.eraseDups.length = known.length then
    settings.foldlM (fun c entry => c.apply entry.1 entry.2) default
  else none

/-- The settings in a document value: an object, or a list of the first of them in order. -/
def ofValue? : Value → Option Config
  | .object o => ofSettings? (o.map fun entry => (entry.1, Setting.ofValue entry.2))
  | .array items =>
    if items.length ≤ names.length then ofSettings? (names.zip (items.map Setting.ofValue))
    else none
  | _ => none

/-- The settings in a YAML document, a mapping whose keys are scalars; where nothing is
written, there are none. -/
def settings? (document : Yaml) : Option (List (String × Setting)) :=
  match document with
  | .mapping _ entries =>
    entries.mapM fun entry => do
      let key ← (document.resolve? entry.1).bind Yaml.text?
      pure (key, Setting.ofYaml document entry.2)
  | .scalar _ .plain "" => some []
  | _ => none

/-- The first capacity that is zero; settings with one cannot work. -/
def zero? (c : Config) : Option Capacity :=
  if c.eventCapacity = 0 then some .events
  else if c.busCapacity = 0 then some .bus
  else none

/-- Reads settings from YAML. -/
def ofYaml (text : String) : Except ConfigError Config :=
  match ((Yaml.read? text).bind settings?).bind ofSettings? with
  | some c =>
    match c.zero? with
    | some which => .error (.zero which)
    | none => .ok c
  | none => .error .unreadable

def toValue (c : Config) : Value :=
  .ofEntries [
    ("unknown_actions", .string (UnknownPolicy.vocabulary.word c.unknownActions)),
    ("action_timeout_ms", (c.actionTimeout.map Value.ofNat).getD .null),
    ("event_capacity", .ofNat c.eventCapacity), ("bus_capacity", .ofNat c.busCapacity)]

/-- What is known about types of steps, given the types of the host. -/
def knownTypes (c : Config) (host : List ActionType) : KnownTypes := ⟨c.unknownActions, host⟩

end Config

end StepFlow
