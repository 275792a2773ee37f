/-!
# Exact values of binary floating-point numbers

A finite float is an integer times a power of two. This file takes floats apart into that form and
puts them together again, and defines on it what core leaves without a definition: the exact integer
a float stands for, truncation that saturates at 64 bits, and the floating remainder. All arithmetic
is on integers, so none of these rounds except where the doc comment says so.
-/

namespace StepFlow.Binary64

open Float.Model (UnpackedFloat)

/-- The magnitude `mantissa * 2 ^ exponent` of a finite float, with its sign. -/
structure Exact where
  negative : Bool
  mantissa : Nat
  exponent : Int
deriving DecidableEq, Repr

/-- Takes a float apart; infinities and not-a-number have no exact value. -/
def decode? (f : Float) : Option Exact :=
  match f.toModel.unpack with
  | .infinity _ => none
  | .notANumber => none
  | .zero sign => some ⟨sign == .negative, 0, 0⟩
  | .finite sign mantissa exponent _ => some ⟨sign == .negative, mantissa, exponent⟩

namespace Exact

/-- The float nearest to an exact value, ties going to the even neighbour. -/
def toFloat (x : Exact) : Float :=
  let sign : UnpackedFloat.Sign := if x.negative then .negative else .positive
  .ofModel (.pack (if x.mantissa = 0 then .zero sign
    else UnpackedFloat.round .binary64 sign x.mantissa x.exponent))

def signed (x : Exact) (n : Nat) : Int :=
  if x.negative then -(n : Int) else n

def wholePart (x : Exact) : Nat :=
  if 0 ≤ x.exponent then x.mantissa * Nat.pow 2 x.exponent.toNat
  else x.mantissa / Nat.pow 2 (-x.exponent).toNat

def isInteger (x : Exact) : Bool :=
  0 ≤ x.exponent || x.mantissa % Nat.pow 2 (-x.exponent).toNat = 0

/-- The value cut off towards zero. -/
def truncate (x : Exact) : Int :=
  x.signed x.wholePart

end Exact

/-- The integer that a float stands for, if it stands for one. -/
def integer? (f : Float) : Option Int :=
  match decode? f with
  | some x => if x.isInteger then some x.truncate else none
  | none => none

/-- The float cut off towards zero and clamped to signed 64 bits; not-a-number gives zero. -/
def toInt64Saturating (f : Float) : Int :=
  match decode? f with
  | some x => max (-9223372036854775808) (min 9223372036854775807 x.truncate)
  | none => if f.isNaN then 0 else if f < 0 then -9223372036854775808 else 9223372036854775807

/-- The remainder of `x / y` cut off towards zero. It has the sign of `x`, is exact for finite
operands, and is not-a-number when `x` is infinite or `y` is zero. -/
def remainder (x y : Float) : Float :=
  match decode? x, decode? y with
  | some a, some b =>
    if b.mantissa = 0 then 0.0 / 0.0
    else
      let low := min a.exponent b.exponent
      let scaled (v : Exact) : Nat := v.mantissa * Nat.pow 2 (v.exponent - low).toNat
      Exact.toFloat ⟨a.negative, scaled a % scaled b, low⟩
  | some _, none => if y.isNaN then y else x
  | none, _ => 0.0 / 0.0

end StepFlow.Binary64
