import StepFlow.Decimal
import StepFlow.Numeral

/-!
# Numbers of a document

A document number is an integer that fits 64 bits, signed or unsigned, or a finite float. The two
kinds are different values even where they stand for the same number. Arithmetic sees a third
distinction: an integer beyond the signed range takes part as a float (`Operand`).
-/

namespace StepFlow

abbrev Number.FitsSigned (n : Int) : Prop :=
  -9223372036854775808 ≤ n ∧ n < 9223372036854775808

/-- Whether an integer fits 64 bits, signed or unsigned: `-2 ^ 63 ≤ n < 2 ^ 64`. -/
abbrev Number.FitsWord (n : Int) : Prop :=
  -9223372036854775808 ≤ n ∧ n < 18446744073709551616

inductive Number where
  | int (n : Int) (inRange : Number.FitsWord n)
  | float (f : Float) (finite : f.isFinite = true)
deriving DecidableEq

namespace Number

/-- The number for an integer, if it is in range. -/
def ofInt? (n : Int) : Option Number :=
  if h : FitsWord n then some (.int n h) else none

/-- The number for an integer known to fit signed 64 bits. -/
def ofSigned (n : Int) (h : FitsSigned n) : Number :=
  .int n ⟨h.1, by have := h.2; omega⟩

/-- The number for a float, if it is finite. -/
def ofFloat? (f : Float) : Option Number :=
  if h : f.isFinite = true then some (.float f h) else none

def floatOfInt (n : Int) : Float :=
  Float.ofInt n

def toFloat : Number → Float
  | .int n _ => floatOfInt n
  | .float f _ => f

/-- The value as a signed 64-bit integer, if it is an integer of that range. -/
def signed? : Number → Option Int
  | .int n _ => if FitsSigned n then some n else none
  | .float _ _ => none

/-- The value as a natural number, if it is an integer and not negative. -/
def natural? : Number → Option Nat
  | .int n _ => if 0 ≤ n then some n.toNat else none
  | .float _ _ => none

/-- Equality of two numbers of one kind; floats are equal when they stand for the same number, so
both zeros are. Numbers of different kinds are never equal. -/
def same : Number → Number → Bool
  | .int a _, .int b _ => a = b
  | .float a _, .float b _ => a == b
  | _, _ => false

def isNonzero (n : Number) : Bool :=
  !(n.toFloat == 0.0)

def render : Number → String
  | .int n _ => toString n
  | .float f _ => FloatStyle.document.render f

end Number

/-- A number as arithmetic sees it. -/
inductive Operand where
  | int (n : Int)
  | float (f : Float)
deriving DecidableEq

namespace Operand

/-- Integers beyond the signed range take part as floats. -/
def ofNumber (n : Number) : Operand :=
  match n.signed? with
  | some i => .int i
  | none => .float n.toFloat

def toFloat : Operand → Float
  | .int n => Number.floatOfInt n
  | .float f => f

end Operand

end StepFlow
