import StepFlow.Json
import StepFlow.Text.Blank
import StepFlow.Vocabulary

/-!
# Shapes of fields

A field of a step is declared with a shape, and a document value either converts to that shape or
does not. Conversion is generous: texts holding numbers become numbers, floats without a fraction
become integers, numbers and truth values become texts. It never fails loudly; a value of another
shape gives nothing, and whoever reads the field applies a default.

Shapes are codes for types, so that a statement about every shape is a statement about a code.
-/

namespace StepFlow

inductive IntKind where
  | signed64
  | signed32
  | unsigned64
deriving DecidableEq, Repr

namespace IntKind

def least : IntKind → Int
  | .signed64 => -9223372036854775808
  | .signed32 => -2147483648
  | .unsigned64 => 0

def greatest : IntKind → Int
  | .signed64 => 9223372036854775807
  | .signed32 => 2147483647
  | .unsigned64 => 18446744073709551615

/-- The integers of a type. -/
abbrev Carrier (k : IntKind) : Type := { n : Int // k.least ≤ n ∧ n ≤ k.greatest }

/-- The integer as one of the type, if it is in range. -/
def ofInt? (k : IntKind) (n : Int) : Option k.Carrier :=
  if h : k.least ≤ n ∧ n ≤ k.greatest then some ⟨n, h⟩ else none

end IntKind

/-- The shape of a field. -/
inductive Shape where
  | value
  | bool
  | int (kind : IntKind)
  | float
  | text
  | object
  | list (item : Shape)
  | toastDuration
  | launchMode
  | httpMethod
deriving DecidableEq, Repr

namespace Shape

/-- What a field of a shape holds. -/
def Carrier : Shape → Type
  | .value => Value
  | .bool => Bool
  | .int kind => kind.Carrier
  | .float => Float
  | .text => String
  | .object => Object
  | .list item => List item.Carrier
  | .toastDuration => ToastDuration
  | .launchMode => LaunchMode
  | .httpMethod => HttpMethod

def decEqCarrier : (s : Shape) → DecidableEq s.Carrier
  | .value => inferInstanceAs (DecidableEq Value)
  | .bool => inferInstanceAs (DecidableEq Bool)
  | .int kind => inferInstanceAs (DecidableEq kind.Carrier)
  | .float => inferInstanceAs (DecidableEq Float)
  | .text => inferInstanceAs (DecidableEq String)
  | .object => inferInstanceAs (DecidableEq (List (String × Value)))
  | .list item =>
    have := decEqCarrier item
    inferInstanceAs (DecidableEq (List item.Carrier))
  | .toastDuration => inferInstanceAs (DecidableEq ToastDuration)
  | .launchMode => inferInstanceAs (DecidableEq LaunchMode)
  | .httpMethod => inferInstanceAs (DecidableEq HttpMethod)

instance (s : Shape) : DecidableEq s.Carrier := decEqCarrier s

def bool? : Value → Option Bool
  | .bool b => some b
  | .string s =>
    if Text.sameName s "true" then some true
    else if Text.sameName s "false" then some false
    else none
  | _ => none

/-- The integer that a float stands for, if it is one below `2 ^ 63` in magnitude. -/
def intOfFloat? (f : Float) : Option Int :=
  (Binary64.integer? f).filter fun n => n.natAbs < 9223372036854775808

def signedOfNumber? (n : Number) : Option Int :=
  match n.signed? with
  | some i => some i
  | none => intOfFloat? n.toFloat

/-- The signed 64-bit integer that a text converts to: an integer of the range, or a float of the
notation for floats that stands for one. -/
def signedOfText? (s : String) : Option Int :=
  let cs := Text.trimChars s.toList
  match (Numeral.integer? cs).filter fun n => Number.FitsSigned n with
  | some n => some n
  | none => (Numeral.float? cs).bind intOfFloat?

/-- The signed 64-bit integer that a document value converts to. -/
def signed? : Value → Option Int
  | .number n => signedOfNumber? n
  | .string s => signedOfText? s
  | _ => none

def float? : Value → Option Float
  | .number n => some n.toFloat
  | .string s => (Numeral.float? (Text.trimChars s.toList)).filter Float.isFinite
  | _ => none

def text? : Value → Option String
  | .string s => some s
  | .number n => some n.render
  | .bool b => some (if b then "true" else "false")
  | _ => none

def ofValue? : (s : Shape) → Value → Option s.Carrier
  | .value, v => some v
  | .bool, v => bool? v
  | .int kind, v => (signed? v).bind kind.ofInt?
  | .float, v => float? v
  | .text, v => text? v
  | .object, v => v.object?
  | .list item, v =>
    match v with
    | .array items => items.mapM item.ofValue?
    | _ => none
  | .toastDuration, v => v.string?.bind ToastDuration.vocabulary.tolerant?
  | .launchMode, v => v.string?.bind LaunchMode.vocabulary.tolerant?
  | .httpMethod, v => v.string?.bind HttpMethod.vocabulary.tolerant?

def toValue : (s : Shape) → s.Carrier → Value
  | .value, v => v
  | .bool, b => .bool b
  | .int _, n => .ofInt n.val
  | .float, f => .ofFloat f
  | .text, s => .string s
  | .object, o => .object o
  | .list item, xs => .array (xs.map item.toValue)
  | .toastDuration, d => .string (ToastDuration.vocabulary.word d)
  | .launchMode, m => .string (LaunchMode.vocabulary.word m)
  | .httpMethod, m => .string (HttpMethod.vocabulary.word m)

end Shape

end StepFlow
