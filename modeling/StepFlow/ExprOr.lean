import StepFlow.Expression.Eval
import StepFlow.Shape
import StepFlow.Template

/-!
# Fields that are a literal or an expression

A field of a step holds a literal of its shape, or an expression that is evaluated when the step
runs. A literal that does not fit the shape is kept as it was written; it evaluates to nothing, and
it is written back unchanged.
-/

namespace StepFlow

inductive ExprOr (shape : Shape) where
  | literal (value : shape.Carrier)
  | expression (source : String)
  | unresolved (raw : Value)
deriving DecidableEq

namespace ExprOr

variable {shape : Shape}

/-- A document value with the escapes in it taken out, if it is a text. -/
def unescaped : Value → Value
  | .string s => .string (Template.unescape s)
  | v => v

/-- The expression that a document value is, if it is a text with a block. -/
def source? : Value → Option String
  | .string s => Template.source? s
  | _ => none

/-- Reads a field; a literal of another shape gives nothing. -/
def ofValue? (shape : Shape) (v : Value) : Option (ExprOr shape) :=
  match source? v with
  | some source => some (.expression source)
  | none => (shape.ofValue? (unescaped v)).map .literal

/-- Reads a field, keeping a literal of another shape. -/
def ofDocument (shape : Shape) (v : Value) : ExprOr shape :=
  (ofValue? shape v).getD (.unresolved v)

/-- What a field stands for, if its expression has a value of its shape. -/
def evaluate (look : Bindings) : ExprOr shape → Option shape.Carrier
  | .literal a => some a
  | .expression source => (StepFlow.evaluate look source).bind shape.ofValue?
  | .unresolved _ => none

def evaluateOr (look : Bindings) (field : ExprOr shape) (default : shape.Carrier) : shape.Carrier :=
  (field.evaluate look).getD default

/-- Writes a field. A text that is a literal has its opening delimiters escaped; texts inside a list
or an object are written as they are. -/
def toValue : ExprOr shape → Value
  | .literal a =>
    match shape.toValue a with
    | .string s => .string (Template.escape s)
    | v => v
  | .expression source => .string (Template.ofSource source)
  | .unresolved raw => raw

/-- Evaluates a document value as if it were a field of a shape. -/
def evaluateAs (shape : Shape) (look : Bindings) (v : Value) : Option shape.Carrier :=
  match source? v with
  | some source => (StepFlow.evaluate look source).bind shape.ofValue?
  | none => shape.ofValue? (unescaped v)

end ExprOr

end StepFlow
