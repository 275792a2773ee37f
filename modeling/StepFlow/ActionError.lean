import StepFlow.Json
import StepFlow.Text.Described

/-!
# What can go wrong with steps

The causes for which a step description is refused or a step fails, and their wording. Each
constructor of `ActionError` is one kind of error; its argument says which case of that kind it is.
-/

namespace StepFlow

/-- What a field of a step description has to be. -/
inductive Wanted where
  | truthValue
  | text
  | sequence
  | stateUpdate
  | dataSource
deriving DecidableEq, Repr

inductive FieldError where
  | missing (field : String)
  | wrongType (found : Value) (wanted : Wanted)
  /-- A record written as a list that is too short. -/
  | tooShort (length : Nat) (wanted : Wanted)
  /-- A record written as a list that is too long. -/
  | tooLong (length : Nat)
deriving DecidableEq

inductive DescriptorError where
  | notAnObject (found : Value)
  | noType
  | noUsableSteps
  | field (tag : String) (cause : FieldError)
deriving DecidableEq

/-- Why the parameters of a step or of a method do not do. -/
inductive ParameterError where
  | unusable (field : String)
  | missingArgument (name : String)
  | argumentsNotAnObject (found : Value)
  | zeroPeriod
deriving DecidableEq

inductive ExecutionError where
  /-- A processor was handed a step of another type; both by name. -/
  | otherType (processor action : String)
  /-- An object claims a category but is not of the kind its methods work on. -/
  | otherKind (category : String)
  | streamClosed
  | host (reason : String)
deriving DecidableEq

/-- The settings that must not be zero. -/
inductive Capacity where
  | events
  | bus
deriving DecidableEq, Repr

/-- Why a step or what it needs fails. -/
inductive ActionError where
  | unsupportedType (tag : String)
  | invalidDescriptor (cause : DescriptorError)
  | invalidParameters (cause : ParameterError)
  /-- No region of the name, or none at all when there is no name. -/
  | stateContextNotFound (name : Option String)
  | objectNotFound (name : String)
  | categoryNotFound (category : String)
  | methodNotFound (category method : String)
  | effectFailed (reason : String)
  | executionFailed (cause : ExecutionError)
  /-- The limit in milliseconds. -/
  | timeout (limit : Nat)
  | zeroCapacity (which : Capacity)
deriving DecidableEq

namespace Wanted

def describe : Wanted → String
  | .truthValue => "a boolean"
  | .text => "a string"
  | .sequence => "a sequence"
  | .stateUpdate => "struct StateUpdate"
  | .dataSource => "struct DataSource"

/-- How many fields a record has. -/
def fieldCount : Wanted → Nat
  | .stateUpdate => 2
  | .dataSource => 4
  | _ => 0

end Wanted

/-- How a message names a value of the wrong type. -/
def Value.describe : Value → String
  | .null => "null"
  | .bool b => "boolean \x60" ++ (if b then "true" else "false") ++ "\x60"
  | .number (.int n _) => "integer \x60" ++ toString n ++ "\x60"
  | .number (.float f _) => "floating point \x60" ++ FloatStyle.document.render f ++ "\x60"
  | .string s => "string " ++ Text.describe s
  | .array _ => "sequence"
  | .object _ => "map"

def FieldError.message : FieldError → String
  | .missing field => "missing field \x60" ++ field ++ "\x60"
  | .wrongType found wanted =>
    "invalid type: " ++ found.describe ++ ", expected " ++ wanted.describe
  | .tooShort length wanted =>
    "invalid length " ++ toString length ++ ", expected " ++ wanted.describe ++ " with " ++
      toString wanted.fieldCount ++ " elements"
  | .tooLong length =>
    "invalid length " ++ toString length ++ ", expected fewer elements in array"

def DescriptorError.message : DescriptorError → String
  | .notAnObject found => "expected an object, got " ++ Json.render found
  | .noType => "missing 'type' tag"
  | .noUsableSteps => "flow has no usable steps"
  | .field tag cause => tag ++ ": " ++ cause.message

def ParameterError.message : ParameterError → String
  | .unusable field => "'" ++ field ++ "' evaluated to nothing usable"
  | .missingArgument name => "missing argument '" ++ name ++ "'"
  | .argumentsNotAnObject found => "args must be an object, got " ++ Json.render found
  | .zeroPeriod => "timer period must be greater than zero"

def ExecutionError.message : ExecutionError → String
  | .otherType processor action => processor ++ " processor received a " ++ action ++ " action"
  | .otherKind category => "object of category '" ++ category ++ "' is not a"
  | .streamClosed => "stream controller is closed"
  | .host reason => reason

/-- The setting that holds a capacity. -/
def Capacity.setting : Capacity → String
  | .events => "event_capacity"
  | .bus => "bus_capacity"

/-- The text of a span of milliseconds: in seconds with as many places as needed
from one second on. -/
def describeMillis (ms : Nat) : String :=
  if ms = 0 then "0ns"
  else if ms < 1000 then toString ms ++ "ms"
  else
    let places := (toString (1000 + ms % 1000)).toList.drop 1
    let needed := (places.reverse.dropWhile (· = '0')).reverse
    toString (ms / 1000) ++ (if needed.isEmpty then "" else "." ++ String.ofList needed) ++ "s"

namespace ActionError

def message : ActionError → String
  | .unsupportedType tag => "unsupported action type: " ++ tag
  | .invalidDescriptor cause => "invalid action descriptor: " ++ cause.message
  | .invalidParameters cause => "invalid parameters: " ++ cause.message
  | .stateContextNotFound none => "state context not found: flow has no state context"
  | .stateContextNotFound (some name) => "state context not found: " ++ name
  | .objectNotFound name => "object not found: " ++ name
  | .categoryNotFound category => "no methods registered for category '" ++ category ++ "'"
  | .methodNotFound category method => "method not found: " ++ category ++ "." ++ method
  | .effectFailed reason => "effect failed: " ++ reason
  | .executionFailed cause => "action execution failed: " ++ cause.message
  | .timeout limit => "action timed out after " ++ describeMillis limit
  | .zeroCapacity which =>
    "invalid configuration: " ++ which.setting ++ " must be greater than zero"

def kind : ActionError → String
  | .unsupportedType _ => "UnsupportedType"
  | .invalidDescriptor _ => "InvalidDescriptor"
  | .invalidParameters _ => "InvalidParameters"
  | .stateContextNotFound _ => "StateContextNotFound"
  | .objectNotFound _ => "ObjectNotFound"
  | .categoryNotFound _ => "CategoryNotFound"
  | .methodNotFound _ _ => "MethodNotFound"
  | .effectFailed _ => "EffectFailed"
  | .executionFailed _ => "ExecutionFailed"
  | .timeout _ => "Timeout"
  | .zeroCapacity _ => "Config"

end ActionError

end StepFlow
