import StepFlow.Expression.Builtin
import StepFlow.Expression.Parser

/-!
# The value of an expression

Evaluation reads variables and does nothing else. Operands, items and arguments are evaluated from
left to right, the first error ends it, and the logical operators and the conditional evaluate only
what they need. So the outcome depends on the variables that occur, and on nothing besides.
-/

namespace StepFlow

/-- What variables stand for. -/
abbrev Bindings : Type := String → Option Value

def Bindings.none : Bindings := fun _ => Option.none

namespace Expr

mutual

def eval (look : Bindings) : Expr → Except ExprError Value
  | .literal v => .ok v
  | .var name =>
    match look name with
    | some v => .ok v
    | none => .error (.variableNotFound name)
  | .list items => do return .array (← evalItems look items)
  | .map entries => do return .object (← evalEntries look [] entries)
  | .member object name => do
    let v ← object.eval look
    (v.member name).mapError .type
  | .index object position => do
    let v ← object.eval look
    let i ← position.eval look
    (v.at? i).mapError .type
  | .call function args => do
    let vs ← evalItems look args
    match Builtin.ofName? function with
    | some f => (f.apply vs).mapError .type
    | none => throw (.functionNotFound function)
  | .unary op operand => do
    let v ← operand.eval look
    (op.apply v).mapError .type
  | .binary .and left right => do
    let l ← left.eval look
    if l.truthy then return .bool (← right.eval look).truthy else return .bool false
  | .binary .or left right => do
    let l ← left.eval look
    if l.truthy then return .bool true else return .bool (← right.eval look).truthy
  | .binary op left right => do
    let l ← left.eval look
    let r ← right.eval look
    op.apply l r
  | .conditional condition yes no => do
    let c ← condition.eval look
    if c.truthy then yes.eval look else no.eval look

def evalItems (look : Bindings) : List Expr → Except ExprError (List Value)
  | [] => .ok []
  | e :: rest => do
    let v ← e.eval look
    let vs ← evalItems look rest
    return v :: vs

/-- Puts the entries of a map into an object, each key before its value. -/
def evalEntries (look : Bindings) (o : Object) : List (Expr × Expr) → Except ExprError Object
  | [] => .ok o
  | (k, e) :: rest => do
    let key ← k.eval look
    let v ← e.eval look
    evalEntries look (Object.insert key.text v o) rest

end

end Expr

/-- The value of a source, or why it has none. -/
def tryEvaluate (look : Bindings) (source : String) : Except ExprError Value := do
  let e ← Parser.parse source
  e.eval look

/-- The value of a source, if it has one. -/
def evaluate (look : Bindings) (source : String) : Option Value :=
  (tryEvaluate look source).toOption

end StepFlow
