import StepFlow.Expression
import StepFlow.Expression.Token
import StepFlow.Json

/-!
# What can be wrong with an expression

The causes for which an expression is not evaluated, from its characters to its values, each with
the values it speaks of. The wording of every message is in `message`.
-/

namespace StepFlow

inductive SyntaxError where
  /-- A whole number beyond signed 64 bits. -/
  | numberTooLarge (digits : String)
  | empty
  | trailing (token : Token)
  | tooDeep
  | memberName (found : Option Token)
  | callOfNoName
  | expected (wanted : Symbol) (found : Option Token)
  | unexpected (token : Token)
  | unexpectedEnd
deriving DecidableEq

inductive TypeError where
  | negate (v : Value)
  | compare (left right : Value)
  | arithmetic (op : BinaryOp) (left right : Value)
  | memberOfList (name : String)
  | memberOf (name : String) (v : Value)
  | listIndex (position : Value)
  | textIndex (position : Value)
  | outOfRange (position : Nat)
  | indexOf (object position : Value)
  | arity (function : String) (expected given : Nat)
  | lengthOf (v : Value)
  | toInt (v : Value)
  | toDouble (v : Value)
  | containsOn (v : Value)
  | needsText (function : String)
  | needsSomeNumber (function : String)
  | needsNumbers (function : String) (v : Value)
  | absOf (v : Value)
  /-- A text that is not a document; what exactly is wrong with it is not said. -/
  | notADocument
deriving DecidableEq

inductive ExprError where
  | unexpectedChar (c : Char) (offset : Nat)
  | unterminatedText (offset : Nat)
  | malformed (cause : SyntaxError)
  | variableNotFound (name : String)
  | functionNotFound (name : String)
  | type (cause : TypeError)
  | divisionByZero
deriving DecidableEq

/-- How deep an expression may be nested. -/
def maxDepth : Nat := 128

namespace SyntaxError

def message : SyntaxError → String
  | .numberTooLarge digits => "invalid number literal '" ++ digits ++ "'"
  | .empty => "empty expression"
  | .trailing token => "unexpected trailing token " ++ token.describe
  | .tooDeep => "expression nested deeper than " ++ toString maxDepth ++ " levels"
  | .memberName found => "expected member name after '.', found " ++ Token.describe? found
  | .callOfNoName => "only named functions can be called"
  | .expected wanted (some token) => "expected " ++ wanted.name ++ ", found " ++ token.describe
  | .expected wanted none => "expected " ++ wanted.name ++ ", found end of input"
  | .unexpected token => "unexpected token " ++ token.describe
  | .unexpectedEnd => "unexpected end of input"

end SyntaxError

namespace TypeError

/-- A value as a conversion error names it: texts between single quotes. -/
def subject : Value → String
  | .string s => "'" ++ s ++ "'"
  | v => Json.render v

def message : TypeError → String
  | .negate v => "cannot negate " ++ Json.render v
  | .compare l r => "cannot compare " ++ Json.render l ++ " and " ++ Json.render r
  | .arithmetic op l r =>
    "operator " ++ op.name ++ " needs numbers, got " ++ Json.render l ++ " and " ++ Json.render r
  | .memberOfList name => "no member '" ++ name ++ "' on list"
  | .memberOf name v => "no member '" ++ name ++ "' on " ++ Json.render v
  | .listIndex i => "invalid list index " ++ Json.render i
  | .textIndex i => "invalid string index " ++ Json.render i
  | .outOfRange i => "index " ++ toString i ++ " out of range"
  | .indexOf v i => "cannot index " ++ Json.render v ++ " with " ++ Json.render i
  | .arity f expected given =>
    f ++ " takes " ++ toString expected ++ " argument(s), got " ++ toString given
  | .lengthOf v => "length of " ++ Json.render v
  | .toInt v => "cannot convert " ++ subject v ++ " to int"
  | .toDouble v => "cannot convert " ++ subject v ++ " to double"
  | .containsOn v => "contains on " ++ Json.render v
  | .needsText f => f ++ " needs a string"
  | .needsSomeNumber f => f ++ " needs at least one number"
  | .needsNumbers f v => f ++ " needs numbers, got " ++ Json.render v
  | .absOf v => "abs of " ++ Json.render v
  | .notADocument => "jsonDecode failed"

end TypeError

namespace ExprError

def message : ExprError → String
  | .unexpectedChar c offset =>
    "unexpected character '" ++ String.singleton c ++ "' at offset " ++ toString offset
  | .unterminatedText offset => "unterminated string literal starting at offset " ++ toString offset
  | .malformed cause => "syntax error: " ++ cause.message
  | .variableNotFound name => "variable not found: " ++ name
  | .functionNotFound name => "function not found: " ++ name
  | .type cause => "type error: " ++ cause.message
  | .divisionByZero => "division by zero"

end ExprError

end StepFlow
