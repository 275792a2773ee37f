import StepFlow.Binary64

/-!
# Decimal text of floats

A float is written with the fewest decimal digits that read back as the same float and, among those,
with the digits nearest to its exact value. The search is by exact integer arithmetic: on the grid
of `n`-digit decimals only the two neighbours of the value need to be looked at, and the first `n`
for which one of them lies in the interval of reals that round to the float is the shortest.

Where positional notation ends and how an exponent is spelled is a matter of style, not of digits;
the styles in use are values of `FloatStyle`.
-/

namespace StepFlow

/-- The decimal `digits * 10 ^ exponent`. -/
structure Decimal where
  digits : Nat
  exponent : Int
deriving DecidableEq, Repr

namespace Decimal

open Binary64 (Exact)

/-- How many decimal digits a positive number has; zero has none. -/
def digitCount (n : Nat) : Nat :=
  if n = 0 then 0 else (Nat.toDigits 10 n).length

/-- The decimal exponent of the first significant digit of a positive value. -/
def leadingExponent (x : Exact) : Int :=
  if x.wholePart ≠ 0 then (digitCount x.wholePart : Int) - 1
  else
    let scale := Nat.pow 2 (-x.exponent).toNat
    let ratio := (scale + x.mantissa - 1) / x.mantissa
    Int.negOfNat (digitCount (ratio - 1))

/-- Whether the float below `x` is only half as far away as the one above: `x` is a power of two and
not among the smallest floats, so that its mantissa is `2 ^ 52`. -/
def narrowBelow (x : Exact) : Bool :=
  x.mantissa = 4503599627370496 && -1074 < x.exponent

/-- The best decimal on the grid of multiples of `10 ^ grid` that rounds to `x`, if there is one.
Quarter steps of the last binary place make the ends of the rounding interval integers. -/
def onGrid? (x : Exact) (grid : Int) : Option Decimal :=
  let quarter := x.exponent - 2
  let value := Nat.pow 2 quarter.toNat * Nat.pow 10 (-grid).toNat
  let step := Nat.pow 10 grid.toNat * Nat.pow 2 (-quarter).toNat
  let middle := 4 * x.mantissa * value
  let low := (4 * x.mantissa - if narrowBelow x then 1 else 2) * value
  let high := (4 * x.mantissa + 2) * value
  let roundsToX (d : Nat) : Bool :=
    if x.mantissa % 2 = 0 then low ≤ d * step && d * step ≤ high
    else low < d * step && d * step < high
  let below := middle / step
  let above := below + 1
  if roundsToX below && roundsToX above then
    let nearerBelow := match compare (2 * middle) ((2 * below + 1) * step) with
      | .lt => true
      | .gt => false
      | .eq => below % 2 = 0
    some ⟨if nearerBelow then below else above, grid⟩
  else if roundsToX below then some ⟨below, grid⟩
  else if roundsToX above then some ⟨above, grid⟩
  else none

/-- The shortest decimal that reads back as the positive value `x`, the nearest
one of that length. -/
def shortest (x : Exact) : Decimal :=
  let leading := leadingExponent x
  match (List.range 17).findSome? fun n => onGrid? x (leading - (n : Nat)) with
  | some d => d
  | none => ⟨0, 0⟩

end Decimal

/-- How floats are spelled. With `E` the exponent of the first digit, positional notation with at
least one digit after the point is used for `lowest ≤ E ≤ highest`, and otherwise `d.ddde±EE`
without padding and without a point when there is one digit only. -/
structure FloatStyle where
  lowest : Int
  highest : Int
  /-- Whether a positive exponent is written with its sign. -/
  plus : Bool
  infinite : String
deriving Repr

namespace FloatStyle

def document : FloatStyle := ⟨-5, 15, true, "null"⟩

def token : FloatStyle := ⟨-4, 15, false, "inf"⟩

/-- Digits with their point placed after the digit for `10 ^ 0`. -/
def positional (digits : List Char) (leading : Int) : List Char :=
  if leading < 0 then
    ['0', '.'] ++ List.replicate (-leading - 1).toNat '0' ++ digits
  else
    let places := leading.toNat + 1
    let whole := digits.take places
    let fraction := digits.drop places
    whole ++ List.replicate (places - whole.length) '0' ++ ['.'] ++
      if fraction.isEmpty then ['0'] else fraction

/-- Digits with the point after the first one, and the exponent behind them. -/
def scientific (style : FloatStyle) (digits : List Char) (leading : Int) : List Char :=
  let mantissa := match digits with
    | [] => ['0']
    | [d] => [d]
    | d :: rest => d :: '.' :: rest
  let sign := if leading < 0 then ['-'] else if style.plus then ['+'] else []
  mantissa ++ ['e'] ++ sign ++ (toString leading.natAbs).toList

def magnitude (style : FloatStyle) (x : Binary64.Exact) : List Char :=
  if x.mantissa = 0 then ['0', '.', '0']
  else
    let d := Decimal.shortest x
    let written := (toString d.digits).toList
    let digits := (written.reverse.dropWhile (· = '0')).reverse
    let leading := d.exponent + written.length - 1
    if style.lowest ≤ leading ∧ leading ≤ style.highest then positional digits leading
    else style.scientific digits leading

def render (style : FloatStyle) (f : Float) : String :=
  match Binary64.decode? f with
  | some x => String.ofList ((if x.negative then ['-'] else []) ++ style.magnitude x)
  | none => style.infinite

end FloatStyle

end StepFlow
