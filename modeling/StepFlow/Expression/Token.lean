import StepFlow.Text.Described
import StepFlow.Decimal

/-!
# Tokens of the expression language

A token is a number, a text, a name, one of three words or a symbol. `Token.describe` is how a
message refers to a token.
-/

namespace StepFlow

/-- The words that are not names. -/
inductive Keyword where
  | true
  | false
  | null
deriving DecidableEq, Repr

inductive Symbol where
  | leftParen | rightParen
  | leftBracket | rightBracket
  | leftBrace | rightBrace
  | comma | colon | dot | question
  | plus | minus | star | slash | percent
  | bang | eqEq | notEq | lt | le | gt | ge | andAnd | orOr
deriving DecidableEq, Repr

/-- A token. Whole numbers fit signed 64 bits. -/
inductive Token where
  | int (n : Nat)
  | float (f : Float)
  | text (s : String)
  | ident (name : String)
  | keyword (word : Keyword)
  | symbol (s : Symbol)
deriving DecidableEq

namespace Keyword

def spelling : Keyword → List Char
  | .true => ['t', 'r', 'u', 'e']
  | .false => ['f', 'a', 'l', 's', 'e']
  | .null => ['n', 'u', 'l', 'l']

def name : Keyword → String
  | .true => "True"
  | .false => "False"
  | .null => "Null"

end Keyword

namespace Symbol

def all : List Symbol :=
  [.eqEq, .notEq, .le, .ge, .andAnd, .orOr,
    .leftParen, .rightParen, .leftBracket, .rightBracket, .leftBrace, .rightBrace,
    .comma, .colon, .dot, .question, .plus, .minus, .star, .slash, .percent, .bang, .lt, .gt]

def spelling : Symbol → List Char
  | .leftParen => ['(']
  | .rightParen => [')']
  | .leftBracket => ['[']
  | .rightBracket => [']']
  | .leftBrace => ['\x7b']
  | .rightBrace => ['\x7d']
  | .comma => [',']
  | .colon => [':']
  | .dot => ['.']
  | .question => ['?']
  | .plus => ['+']
  | .minus => ['-']
  | .star => ['*']
  | .slash => ['/']
  | .percent => ['%']
  | .bang => ['!']
  | .eqEq => ['=', '=']
  | .notEq => ['!', '=']
  | .lt => ['<']
  | .le => ['<', '=']
  | .gt => ['>']
  | .ge => ['>', '=']
  | .andAnd => ['&', '&']
  | .orOr => ['|', '|']

def name : Symbol → String
  | .leftParen => "LParen"
  | .rightParen => "RParen"
  | .leftBracket => "LBracket"
  | .rightBracket => "RBracket"
  | .leftBrace => "LBrace"
  | .rightBrace => "RBrace"
  | .comma => "Comma"
  | .colon => "Colon"
  | .dot => "Dot"
  | .question => "Question"
  | .plus => "Plus"
  | .minus => "Minus"
  | .star => "Star"
  | .slash => "Slash"
  | .percent => "Percent"
  | .bang => "Bang"
  | .eqEq => "EqEq"
  | .notEq => "NotEq"
  | .lt => "Lt"
  | .le => "Le"
  | .gt => "Gt"
  | .ge => "Ge"
  | .andAnd => "AndAnd"
  | .orOr => "OrOr"

end Symbol

namespace Token

def describe : Token → String
  | .int n => "Int(" ++ toString n ++ ")"
  | .float f => "Float(" ++ FloatStyle.token.render f ++ ")"
  | .text s => "Str(" ++ Text.describe s ++ ")"
  | .ident name => "Ident(" ++ Text.describe name ++ ")"
  | .keyword word => word.name
  | .symbol s => s.name

/-- How a message refers to a token that may be missing. -/
def describe? : Option Token → String
  | some t => "Some(" ++ t.describe ++ ")"
  | none => "None"

end Token

end StepFlow
