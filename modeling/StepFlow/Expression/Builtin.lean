import StepFlow.Expression.Error
import StepFlow.Json.Reader
import StepFlow.Text.Blank

/-!
# Operators and functions on values

What operators and the named functions do with values that are already there. Arithmetic on two
signed 64-bit integers gives the exact integer when it fits and otherwise the float that the
operation gives on the nearest floats; every other arithmetic is on floats.
-/

namespace StepFlow

namespace Value

/-- Truth of a value: everything but null, false, zero and what is empty. -/
def truthy : Value → Bool
  | .null => false
  | .bool b => b
  | .number n => n.isNonzero
  | .string s => !s.isEmpty
  | .array items => !items.isEmpty
  | .object entries => !entries.isEmpty

/-- The operand that a value is, if it is a number. -/
def operand? : Value → Option Operand
  | .number n => some (Operand.ofNumber n)
  | _ => none

/-- Equality in the language: numbers compare as floats, all else by `Value.same`. -/
def looselyEquals (l r : Value) : Bool :=
  match l.operand?, r.operand? with
  | some a, some b => a.toFloat == b.toFloat
  | _, _ => l.same r

/-- The integer where it fits signed 64 bits, and the given float elsewhere. -/
def intOr (n : Int) (fallback : Float) : Value :=
  if Number.FitsSigned n then .ofInt n else .ofFloat fallback

/-- The integer a float stands for when it is one below `2 ^ 63` in magnitude,
and else the float. -/
def narrow (f : Float) : Value :=
  match Binary64.integer? f with
  | some n => if n.natAbs < 9223372036854775808 then .ofInt n else .ofFloat f
  | none => .ofFloat f

end Value

namespace Operand

def add (a b : Operand) : Value :=
  let float := a.toFloat + b.toFloat
  match a, b with
  | .int x, .int y => Value.intOr (x + y) float
  | _, _ => .ofFloat float

def sub (a b : Operand) : Value :=
  let float := a.toFloat - b.toFloat
  match a, b with
  | .int x, .int y => Value.intOr (x - y) float
  | _, _ => .ofFloat float

def mul (a b : Operand) : Value :=
  let float := a.toFloat * b.toFloat
  match a, b with
  | .int x, .int y => Value.intOr (x * y) float
  | _, _ => .ofFloat float

/-- Divides by what is not zero: exactly where the integers divide and the quotient fits. -/
def div (a b : Operand) : Value :=
  let float := a.toFloat / b.toFloat
  match a, b with
  | .int x, .int y => if x.tmod y = 0 then Value.intOr (x.tdiv y) float else .ofFloat float
  | _, _ => .ofFloat float

/-- The remainder by what is not zero, with the sign of the dividend. The one quotient of integers
that does not fit leaves the remainder to the floats. -/
def rem (a b : Operand) : Value :=
  let float := Binary64.remainder a.toFloat b.toFloat
  match a, b with
  | .int x, .int y => if Number.FitsSigned (x.tdiv y) then .ofInt (x.tmod y) else .ofFloat float
  | _, _ => .ofFloat float

def neg : Operand → Value
  | .int x => Value.intOr (-x) (-(Number.floatOfInt x))
  | .float f => .ofFloat (-f)

/-- The magnitude; the one that does not fit is clamped. -/
def abs : Operand → Value
  | .int x => .ofInt (min 9223372036854775807 (x.natAbs : Int))
  | .float f => .ofFloat f.abs

end Operand

namespace UnaryOp

def apply (op : UnaryOp) (v : Value) : Except TypeError Value :=
  match op with
  | .not => .ok (.bool (!v.truthy))
  | .neg =>
    match v.operand? with
    | some a => .ok a.neg
    | none => .error (.negate v)

end UnaryOp

namespace BinaryOp

/-- How two values compare: texts by their code points, numbers as floats. -/
def ordering? (l r : Value) : Option Ordering :=
  match l, r with
  | .string a, .string b => some (compare a b)
  | _, _ =>
    match l.operand?, r.operand? with
    | some a, some b =>
      if a.toFloat < b.toFloat then some .lt
      else if a.toFloat == b.toFloat then some .eq
      else if b.toFloat < a.toFloat then some .gt
      else none
    | _, _ => none

/-- Compares two values and tests the outcome. -/
def comparison (test : Ordering → Bool) (l r : Value) : Except ExprError Value :=
  match ordering? l r with
  | some o => .ok (.bool (test o))
  | none => .error (.type (.compare l r))

/-- An arithmetic operation on two values. -/
def arithmetic (op : BinaryOp) (f : Operand → Operand → Except ExprError Value) (l r : Value) :
    Except ExprError Value :=
  match l.operand?, r.operand? with
  | some a, some b => f a b
  | _, _ => .error (.type (.arithmetic op l r))

/-- An operation that needs a divisor other than zero. -/
def nonzero (f : Operand → Operand → Value) (a b : Operand) : Except ExprError Value :=
  if b.toFloat == 0.0 then .error .divisionByZero else .ok (f a b)

def apply (op : BinaryOp) (l r : Value) : Except ExprError Value :=
  match op with
  | .eq => .ok (.bool (l.looselyEquals r))
  | .notEq => .ok (.bool (!l.looselyEquals r))
  | .lt => comparison Ordering.isLT l r
  | .le => comparison Ordering.isLE l r
  | .gt => comparison Ordering.isGT l r
  | .ge => comparison Ordering.isGE l r
  | .and => .ok (.bool (l.truthy && r.truthy))
  | .or => .ok (.bool (l.truthy || r.truthy))
  | .add =>
    match l, r with
    | .string _, _ => .ok (.string (l.text ++ r.text))
    | _, .string _ => .ok (.string (l.text ++ r.text))
    | .array xs, .array ys => .ok (.array (xs ++ ys))
    | _, _ => arithmetic op (fun a b => .ok (a.add b)) l r
  | .sub => arithmetic op (fun a b => .ok (a.sub b)) l r
  | .mul => arithmetic op (fun a b => .ok (a.mul b)) l r
  | .div => arithmetic op (nonzero Operand.div) l r
  | .rem => arithmetic op (nonzero Operand.rem) l r

end BinaryOp

namespace Value

/-- The member of a value under a name. Objects have null where they lack a key; lists have their
length and their items by number, texts their length. -/
def member (v : Value) (name : String) : Except TypeError Value :=
  match v with
  | .object o => .ok ((Object.get? o name).getD .null)
  | .array items =>
    if name = "length" then .ok (.ofNat items.length)
    else
      match (Numeral.natural? name.toList).bind fun i => items[i]? with
      | some item => .ok item
      | none => .error (.memberOfList name)
  | .string s => if name = "length" then .ok (.ofNat s.length) else .error (.memberOf name v)
  | _ => .error (.memberOf name v)

def natural? : Value → Option Nat
  | .number n => n.natural?
  | _ => none

/-- The part of a value at a position. -/
def at? (v position : Value) : Except TypeError Value :=
  match v, position with
  | .object o, .string key => .ok ((Object.get? o key).getD .null)
  | .array items, _ =>
    match position.natural? with
    | none => .error (.listIndex position)
    | some i =>
      match items[i]? with
      | some item => .ok item
      | none => .error (.outOfRange i)
  | .string s, _ =>
    match position.natural? with
    | none => .error (.textIndex position)
    | some i =>
      match s.toList[i]? with
      | some c => .ok (.string (String.singleton c))
      | none => .error (.outOfRange i)
  | _, _ => .error (.indexOf v position)

/-- Whether a list of characters occurs in another. -/
def occursIn (needle : List Char) : List Char → Bool
  | [] => needle.isEmpty
  | c :: rest => needle.isPrefixOf (c :: rest) || occursIn needle rest

/-- The whole number that a text stands for, cut off towards zero and clamped if it is
written as a float. -/
def readInt? (s : String) : Option Int :=
  let cs := Text.trimChars s.toList
  match Numeral.integer? cs with
  | some n =>
    if Number.FitsSigned n then some n
    else (Numeral.float? cs).map Binary64.toInt64Saturating
  | none => (Numeral.float? cs).map Binary64.toInt64Saturating

end Value

inductive Builtin where
  | concat | length | isEmpty | isNull | ifNull | condition
  | toInt | toDouble | toString | contains | upper | lower
  | max | min | abs | jsonEncode | jsonDecode
deriving DecidableEq, Repr

namespace Builtin

def all : List Builtin :=
  [.concat, .length, .isEmpty, .isNull, .ifNull, .condition, .toInt, .toDouble, .toString,
    .contains, .upper, .lower, .max, .min, .abs, .jsonEncode, .jsonDecode]

def name : Builtin → String
  | .concat => "concat"
  | .length => "length"
  | .isEmpty => "isEmpty"
  | .isNull => "isNull"
  | .ifNull => "ifNull"
  | .condition => "condition"
  | .toInt => "toInt"
  | .toDouble => "toDouble"
  | .toString => "toString"
  | .contains => "contains"
  | .upper => "upper"
  | .lower => "lower"
  | .max => "max"
  | .min => "min"
  | .abs => "abs"
  | .jsonEncode => "jsonEncode"
  | .jsonDecode => "jsonDecode"

def ofName? (name : String) : Option Builtin :=
  all.find? fun f => f.name = name

/-- The items of all lists, if every value is a list. -/
def joined? : List Value → Option (List Value)
  | [] => some []
  | .array items :: rest => (joined? rest).map (items ++ ·)
  | _ :: _ => none

/-- Lists are joined to a list; anything else, and nothing at all, to a text. -/
def applyConcat (args : List Value) : Value :=
  match args, joined? args with
  | _ :: _, some items => .array items
  | _, _ => .string (String.join (args.map Value.text))

/-- The numbers that `max` and `min` work on: the arguments, or the items of the only one. -/
def operands (f : Builtin) (args : List Value) : Except TypeError (List Float) :=
  let values := match args with
    | [.array items] => items
    | _ => args
  if values.isEmpty then .error (.needsSomeNumber f.name)
  else values.mapM fun v =>
    match v.operand? with
    | some a => .ok a.toFloat
    | none => .error (.needsNumbers f.name v)

def greater (a b : Float) : Float := if a < b then b else a

def lesser (a b : Float) : Float := if b < a then b else a

/-- The greatest finite float. -/
def largest : Float := 1.7976931348623157e308

def applyOne (f : Builtin) (v : Value) : Except TypeError Value :=
  match f, v with
  | .length, .string s => .ok (.ofNat s.length)
  | .length, .array items => .ok (.ofNat items.length)
  | .length, .object entries => .ok (.ofNat entries.length)
  | .length, _ => .error (.lengthOf v)
  | .isEmpty, .null => .ok (.bool true)
  | .isEmpty, .string s => .ok (.bool s.isEmpty)
  | .isEmpty, .array items => .ok (.bool items.isEmpty)
  | .isEmpty, .object entries => .ok (.bool entries.isEmpty)
  | .isEmpty, _ => .ok (.bool false)
  | .isNull, _ => .ok (.bool (v = .null))
  | .toInt, .bool b => .ok (.ofInt (if b then 1 else 0))
  | .toInt, .string s =>
    match Value.readInt? s with
    | some n => .ok (.ofInt n)
    | none => .error (.toInt v)
  | .toInt, _ =>
    match v.operand? with
    | some (.int n) => .ok (.ofInt n)
    | some (.float x) => .ok (.ofInt (Binary64.toInt64Saturating x))
    | none => .error (.toInt v)
  | .toDouble, .string s =>
    match Numeral.float? (Text.trimChars s.toList) with
    | some x => .ok (.ofFloat x)
    | none => .error (.toDouble v)
  | .toDouble, _ =>
    match v.operand? with
    | some a => .ok (.ofFloat a.toFloat)
    | none => .error (.toDouble v)
  | .upper, .string s => .ok (.string (Text.upper s))
  | .lower, .string s => .ok (.string (Text.lower s))
  | .abs, _ =>
    match v.operand? with
    | some a => .ok a.abs
    | none => .error (.absOf v)
  | .jsonEncode, _ => .ok (.string (Json.render v))
  | .jsonDecode, .string s =>
    match Json.read s with
    | .ok decoded => .ok decoded
    | .error _ => .error .notADocument
  | .toString, _ => .ok (.string v.text)
  | _, _ => .error (.needsText f.name)

/-- Whether a value contains another: a text another text, a list an equal item, an object a key. -/
def applyContains (container v : Value) : Except TypeError Value :=
  match container with
  | .string s => .ok (.bool (Value.occursIn v.text.toList s.toList))
  | .array items => .ok (.bool (items.any fun item => item.looselyEquals v))
  | .object entries => .ok (.bool (Object.contains entries v.text))
  | _ => .error (.containsOn container)

def apply (f : Builtin) (args : List Value) : Except TypeError Value :=
  match f with
  | .concat => .ok (applyConcat args)
  | .max => do return Value.narrow ((← operands f args).foldl greater (-largest))
  | .min => do return Value.narrow ((← operands f args).foldl lesser largest)
  | .ifNull =>
    match args with
    | [v, fallback] => .ok (if v = .null then fallback else v)
    | _ => .error (.arity f.name 2 args.length)
  | .contains =>
    match args with
    | [container, v] => applyContains container v
    | _ => .error (.arity f.name 2 args.length)
  | .condition =>
    match args with
    | [test, yes, no] => .ok (if test.truthy then yes else no)
    | _ => .error (.arity f.name 3 args.length)
  | _ =>
    match args with
    | [v] => applyOne f v
    | _ => .error (.arity f.name 1 args.length)

end Builtin

end StepFlow
