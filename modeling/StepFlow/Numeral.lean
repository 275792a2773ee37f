import StepFlow.Binary64

/-!
# Numerals

Two notations are read. `integer?` takes an optional sign and digits. `float?` takes an optional
sign and either digits with an optional point and exponent or one of the words for infinity and
not-a-number; it rounds once, to the nearest float, and overflows to infinity.
-/

namespace StepFlow.Numeral

/-- The digit that a character stands for. -/
def digit? (c : Char) : Option Nat :=
  if c.isDigit then some (c.toNat - '0'.toNat) else none

/-- The digits at the front of a text and what follows them. -/
def digits : List Char → List Nat × List Char
  | [] => ([], [])
  | c :: rest =>
    match digit? c with
    | some d => (d :: (digits rest).1, (digits rest).2)
    | none => ([], c :: rest)

def ofDigits (ds : List Nat) : Nat :=
  ds.foldl (fun n d => 10 * n + d) 0

/-- Splits off a sign; `true` stands for minus. -/
def sign : List Char → Bool × List Char
  | '-' :: rest => (true, rest)
  | '+' :: rest => (false, rest)
  | cs => (false, cs)

/-- The number that a text of digits only stands for. -/
def natural? (cs : List Char) : Option Nat :=
  match digits cs with
  | ([], _) => none
  | (ds, []) => some (ofDigits ds)
  | (_, _ :: _) => none

/-- The integer that a text stands for, of any size. -/
def integer? (cs : List Char) : Option Int :=
  match sign cs with
  | (true, rest) => (natural? rest).map fun n => -(n : Int)
  | (false, rest) => (natural? rest).map fun n => (n : Int)

/-- Reads the exponent behind the digits of a float, zero if there is none. -/
def exponent? : List Char → Option Int
  | [] => some 0
  | c :: rest => if c = 'e' ∨ c = 'E' then integer? rest else none

/-- The nearest float to `n * 10 ^ e`. -/
def nearest (n : Nat) (e : Int) : Float :=
  Float.ofScientific n (e < 0) e.natAbs

/-- Reads the magnitude of a float in digits. -/
def magnitude? (cs : List Char) : Option Float :=
  let (whole, rest) := digits cs
  let (fraction, rest) := match rest with
    | '.' :: rest => digits rest
    | _ => ([], rest)
  if whole.isEmpty && fraction.isEmpty then none
  else (exponent? rest).map fun e =>
    nearest (ofDigits (whole ++ fraction)) (e - fraction.length)

def infinity : Float := 1.0 / 0.0

def float? (cs : List Char) : Option Float :=
  let (negative, rest) := sign cs
  let word := String.ofList (rest.map Char.toLower)
  let value :=
    if word = "inf" ∨ word = "infinity" then some infinity
    else if word = "nan" then some (0.0 / 0.0)
    else magnitude? rest
  value.map fun f => if negative then -f else f

end StepFlow.Numeral
