import StepFlow.Json
import StepFlow.Reader

/-!
# Reading the text of a document

`Json.read` accepts the standard notation, up to a given number of lists and objects around each
other. A number without point and exponent that fits 64 bits is an integer, except that `-0` is the
float of that sign. Any other number is a float. Its significand is made of the leading digits as
far as they fit 64 bits, and is then multiplied or divided by a power of ten, so that a long numeral
can come out one place off the nearest float; one beyond the range of floats is refused. Escapes for
a half of a surrogate pair are refused as well.
-/

namespace StepFlow.Json

inductive ReadError where
  | malformed
  | tooDeep
  | numberTooLarge
deriving DecidableEq, Repr

/-- The blanks of the notation. -/
def isBlank (c : Char) : Bool :=
  c = ' ' || c = '\n' || c = '\t' || c = '\r'

def skipBlanks : (cs : List Char) → Tail cs
  | [] => Tail.none []
  | c :: rest =>
    if isBlank c then (Rest.afterOne c rest).andTail (skipBlanks rest) |>.weaken
    else Tail.none _

/-! ## Numbers -/

/-- Adds digits to a significand as long as it fits 64 bits. Returns it with the number of digits
that were added and that were not. -/
def accumulate (n : Nat) : List Nat → Nat × Nat × Nat
  | [] => (n, 0, 0)
  | d :: rest =>
    if 10 * n + d < 18446744073709551616 then
      let (m, taken, left) := accumulate (10 * n + d) rest
      (m, taken + 1, left)
    else (n, 0, rest.length + 1)

/-- Multiplies by a power of ten; refused when the result is not finite. -/
def scaleUp (f : Float) (e : Nat) : Except ReadError Float :=
  if f == 0.0 then .ok f
  else if e ≤ 308 then
    let g := f * Numeral.nearest 1 e
    if g.isInf then .error .numberTooLarge else .ok g
  else .error .numberTooLarge

/-- Divides by a power of ten, in steps of at most `10 ^ 308`. -/
def scaleDown (f : Float) (e : Nat) : Float :=
  if f == 0.0 then f
  else if e ≤ 308 then f / Numeral.nearest 1 e
  else scaleDown (f / Numeral.nearest 1 308) (e - 308)
termination_by e

/-- The float `n * 10 ^ e` with the given sign. -/
def scaled (negative : Bool) (n : Nat) (e : Int) : Except ReadError Number := do
  let magnitude ← if 0 ≤ e then scaleUp (Float.ofNat n) e.toNat
    else pure (scaleDown (Float.ofNat n) e.natAbs)
  match Number.ofFloat? (if negative then -magnitude else magnitude) with
  | some x => .ok x
  | none => .error .numberTooLarge

/-- The float for a numeral in parts. -/
def floatOf (negative : Bool) (whole fraction : List Nat) (e : Int) : Except ReadError Number :=
  let (n, _, skipped) := accumulate 0 whole
  let (m, added, _) := accumulate n fraction
  scaled negative m (e + skipped - added)

/-- The number for a numeral without point and exponent. -/
def integerOf (negative : Bool) (whole : List Nat) : Except ReadError Number :=
  let n := Numeral.ofDigits whole
  if negative && n = 0 then floatOf negative whole [] 0
  else match Number.ofInt? (if negative then -(n : Int) else n) with
    | some x => .ok x
    | none => floatOf negative whole [] 0

/-- The digits at the front of a text, at least one. -/
def digits : Reader ReadError Char (List Nat)
  | [] => .error .malformed
  | c :: rest =>
    match Numeral.digit? c with
    | none => .error .malformed
    | some d =>
      match digits rest with
      | .ok (ds, r) => .ok (d :: ds, (Rest.afterOne c rest).trans r)
      | .error _ => .ok ([d], Rest.afterOne c rest)

def fraction : Continuation ReadError Char (Option (List Nat))
  | '.' :: rest => do
    let (ds, r) ← digits rest
    .ok (some ds, ((Rest.afterOne '.' rest).trans r).weaken)
  | cs => .ok (none, Tail.none cs)

/-- Reads the sign of an exponent; `true` stands for minus. -/
def exponentSign : (cs : List Char) → Bool × Tail cs
  | '-' :: rest => (true, (Rest.afterOne '-' rest).weaken)
  | '+' :: rest => (false, (Rest.afterOne '+' rest).weaken)
  | cs => (false, Tail.none cs)

def exponent : Continuation ReadError Char (Option Int)
  | c :: rest =>
    if c = 'e' ∨ c = 'E' then do
      let (negative, signed) := exponentSign rest
      let (ds, r) ← digits signed.val
      let e : Int := Numeral.ofDigits ds
      .ok (some (if negative then -e else e),
        ((Rest.afterOne c rest).andTail (signed.andRest r).weaken).weaken)
    else .ok (none, Tail.none _)
  | [] => .ok (none, Tail.none [])

/-- Reads a number after its sign. The whole part has no superfluous zero in front. -/
def magnitude (negative : Bool) : Reader ReadError Char Number := fun cs => do
  let (whole, r) ← digits cs
  if whole.length ≠ 1 ∧ whole.head? = some 0 then throw .malformed
  let (part, t) ← fraction r.val
  let (power, u) ← exponent t.val
  let rest := r.andTail (t.trans u)
  match part, power with
  | none, none => return (← integerOf negative whole, rest)
  | _, _ => return (← floatOf negative whole (part.getD []) (power.getD 0), rest)

def number : Reader ReadError Char Number
  | '-' :: rest => do
    let (n, r) ← magnitude true rest
    return (n, (Rest.afterOne '-' rest).trans r)
  | cs => magnitude false cs

/-! ## Texts -/

def hexValue? (c : Char) : Option Nat :=
  if c.isDigit then some (c.toNat - '0'.toNat)
  else if 'a' ≤ c ∧ c ≤ 'f' then some (c.toNat - 'a'.toNat + 10)
  else if 'A' ≤ c ∧ c ≤ 'F' then some (c.toNat - 'A'.toNat + 10)
  else none

def hexValues? (a b c d : Char) : Option Nat := do
  return (((← hexValue? a) * 16 + (← hexValue? b)) * 16 + (← hexValue? c)) * 16 + (← hexValue? d)

/-- The character for a letter behind a backslash. -/
def escaped? (c : Char) : Option Char :=
  if c = '"' ∨ c = '\\' ∨ c = '/' then some c
  else if c = 'b' then some '\x08'
  else if c = 'f' then some '\x0c'
  else if c = 'n' then some '\n'
  else if c = 'r' then some '\r'
  else if c = 't' then some '\t'
  else none

def surrogatePair? (high low : Nat) : Option Char :=
  if 0xD800 ≤ high ∧ high < 0xDC00 ∧ 0xDC00 ≤ low ∧ low < 0xE000 then
    some (Char.ofNat (0x10000 + (high - 0xD800) * 0x400 + (low - 0xDC00)))
  else none

/-- Reads a text behind its opening quote; `done` holds what was read, in reverse. -/
def textBody (done : List Char) : Reader ReadError Char String
  | '"' :: rest => .ok (String.ofList done.reverse, Rest.afterOne '"' rest)
  | '\\' :: 'u' :: a :: b :: c :: d :: rest =>
    match hexValues? a b c d with
    | none => .error .malformed
    | some n =>
      if 0xDC00 ≤ n ∧ n < 0xE000 then .error .malformed
      else if 0xD800 ≤ n ∧ n < 0xDC00 then
        match rest with
        | '\\' :: 'u' :: e :: f :: g :: h :: rest' =>
          match (hexValues? e f g h).bind (surrogatePair? n) with
          | none => .error .malformed
          | some x => (textBody (x :: done) rest').map fun (s, r) => (s, ⟨r.val, by
              have := r.property
              simp only [List.length_cons]
              omega⟩)
        | _ => .error .malformed
      else (textBody (Char.ofNat n :: done) rest).map fun (s, r) => (s, ⟨r.val, by
        have := r.property
        simp only [List.length_cons]
        omega⟩)
  | '\\' :: c :: rest =>
    match escaped? c with
    | none => .error .malformed
    | some x => (textBody (x :: done) rest).map fun (s, r) => (s, ⟨r.val, by
        have := r.property
        simp only [List.length_cons]
        omega⟩)
  | c :: rest =>
    if c = '\\' ∨ c.toNat < 0x20 then .error .malformed
    else (textBody (c :: done) rest).map fun (s, r) => (s, (Rest.afterOne c rest).trans r)
  | [] => .error .malformed

def text : Reader ReadError Char String
  | '"' :: rest => do
    let (s, r) ← textBody [] rest
    return (s, (Rest.afterOne '"' rest).trans r)
  | _ => .error .malformed

/-! ## Values -/

def word (w : List Char) (v : Value) : Reader ReadError Char Value
  | [] => .error .malformed
  | c :: rest =>
    if w = (c :: rest).take w.length then
      .ok (v, ⟨rest.drop (w.length - 1), by
        simp only [List.length_drop, List.length_cons]
        omega⟩)
    else .error .malformed

/-- Reads the items of a list behind the opening bracket or a comma, to the closing bracket. -/
def items (item : Reader ReadError Char Value) : Reader ReadError Char (List Value) := fun cs => do
  let (v, r) ← item cs
  let t := r.andTail (skipBlanks r.val)
  match h : t.val with
  | ',' :: rest =>
    have : rest.length < cs.length := by
      have := t.property
      simp only [h, List.length_cons] at this
      omega
    let (vs, u) ← items item rest
    return (v :: vs, ⟨u.val, Nat.lt_trans u.property this⟩)
  | ']' :: rest =>
    return ([v], ⟨rest, by
      have := t.property
      simp only [h, List.length_cons] at this
      omega⟩)
  | _ => throw .malformed
termination_by cs => cs.length

/-- Reads one entry of an object: a quoted key, a colon and a value. -/
def entry (item : Reader ReadError Char Value) :
    Reader ReadError Char (String × Value) := fun cs => do
  let blank := skipBlanks cs
  let (key, r) ← text blank.val
  let t := (blank.andRest r).andTail (skipBlanks r.val)
  match h : t.val with
  | ':' :: rest =>
    let (v, u) ← item rest
    return ((key, v), ⟨u.val, by
      have ht := t.property
      have hu := u.property
      simp only [h, List.length_cons] at ht
      omega⟩)
  | _ => throw .malformed

/-- Reads the entries of an object behind the opening brace or a comma, to the closing brace. -/
def entries (item : Reader ReadError Char Value) :
    Reader ReadError Char (List (String × Value)) := fun cs => do
  let (e, r) ← entry item cs
  let t := r.andTail (skipBlanks r.val)
  match h : t.val with
  | ',' :: rest =>
    have : rest.length < cs.length := by
      have := t.property
      simp only [h, List.length_cons] at this
      omega
    let (es, u) ← entries item rest
    return (e :: es, ⟨u.val, Nat.lt_trans u.property this⟩)
  | '\x7d' :: rest =>
    return ([e], ⟨rest, by
      have := t.property
      simp only [h, List.length_cons] at this
      omega⟩)
  | _ => throw .malformed
termination_by cs => cs.length

def list (item : Reader ReadError Char Value) : Reader ReadError Char Value := fun cs =>
  let blank := skipBlanks cs
  match h : blank.val with
  | ']' :: rest => .ok (.array [], ⟨rest, by
      have := blank.property
      simp only [h, List.length_cons] at this
      omega⟩)
  | _ => do
    let (vs, r) ← items item cs
    return (.array vs, r)

/-- Reads an object behind its opening brace; the last entry of a key counts. -/
def object (item : Reader ReadError Char Value) : Reader ReadError Char Value := fun cs =>
  let blank := skipBlanks cs
  match h : blank.val with
  | '\x7d' :: rest => .ok (.object [], ⟨rest, by
      have := blank.property
      simp only [h, List.length_cons] at this
      omega⟩)
  | _ => do
    let (es, r) ← entries item cs
    return (.object (Object.ofList es), r)

/-- Reads what is neither a list nor an object. -/
def scalar : Reader ReadError Char Value
  | 'n' :: rest => word ['n', 'u', 'l', 'l'] .null ('n' :: rest)
  | 't' :: rest => word ['t', 'r', 'u', 'e'] (.bool true) ('t' :: rest)
  | 'f' :: rest => word ['f', 'a', 'l', 's', 'e'] (.bool false) ('f' :: rest)
  | '"' :: rest => do
    let (s, r) ← text ('"' :: rest)
    return (.string s, r)
  | cs => do
    let (n, r) ← number cs
    return (.number n, r)

/-- Reads a value with at most `room` lists and objects around each other. -/
def value (room : Nat) : Reader ReadError Char Value := fun cs =>
  let blank := skipBlanks cs
  match h : blank.val with
  | [] => .error .malformed
  | c :: rest =>
    let step : Rest cs := ⟨rest, by
      have := blank.property
      simp only [h, List.length_cons] at this
      omega⟩
    if c = '[' ∨ c = '\x7b' then
      match room with
      | 0 => .error .tooDeep
      | room + 1 => do
        let (v, r) ← if c = '[' then list (value room) rest else object (value room) rest
        return (v, step.trans r)
    else do
      let (v, r) ← scalar (c :: rest)
      return (v, ⟨r.val, by
        have hr := r.property
        have hb := blank.property
        simp only [h, List.length_cons] at hr hb
        omega⟩)

/-- Reads a text that holds one document and nothing else. -/
def readWithin (room : Nat) (s : String) : Except ReadError Value := do
  let (v, r) ← value room s.toList
  if (skipBlanks r.val).val.isEmpty then return v else throw .malformed

/-- How many lists and objects may stand around each other in a document. -/
def nestingLimit : Nat := 127

def read (s : String) : Except ReadError Value :=
  readWithin nestingLimit s

end StepFlow.Json
