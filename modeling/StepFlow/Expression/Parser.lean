import StepFlow.Expression.Lexer
import StepFlow.Reader

/-!
# From tokens to expressions

The grammar is stratified. A conditional is a chain of binary operators, optionally followed by
`?` and two conditionals; the operators of a level bind what the tighter levels give, and
associate to the left; below them stand prefix operators, then member access, indexing and calls,
then atoms. Each conditional and each prefix operator that is open at a token counts as one level
of nesting. Reading recurses on the number of levels that may still be opened, and every loop on
the tokens that are left.
-/

namespace StepFlow.Parser

/-- Takes an expression from the front of a list of tokens. -/
abbrev ExprReader : Type := Reader SyntaxError Token Expr

/-- The binary operators by level, loosest first. -/
def binaryLevels : List (List (Symbol × BinaryOp)) := [
  [(.orOr, .or)],
  [(.andAnd, .and)],
  [(.eqEq, .eq), (.notEq, .notEq)],
  [(.lt, .lt), (.le, .le), (.gt, .gt), (.ge, .ge)],
  [(.plus, .add), (.minus, .sub)],
  [(.star, .mul), (.slash, .div), (.percent, .rem)]]

/-- The operator that a token stands for at a level. -/
def operator? (level : List (Symbol × BinaryOp)) : Token → Option BinaryOp
  | .symbol s => level.lookup s
  | _ => none

/-- The operator that a token stands for in front of an operand. -/
def prefixOperator? : Token → Option UnaryOp
  | .symbol .bang => some .not
  | .symbol .minus => some .neg
  | _ => none

/-- Takes one given symbol. -/
def expect (wanted : Symbol) : Reader SyntaxError Token Unit
  | [] => .error (.expected wanted none)
  | t :: rest =>
    if t = .symbol wanted then .ok ((), Rest.afterOne t rest)
    else .error (.expected wanted (some t))

/-! ## Chains of binary operators -/

/-- Goes on with the operators of one level behind a left operand. -/
def chain (operand : ExprReader) (level : List (Symbol × BinaryOp)) (left : Expr) :
    Continuation SyntaxError Token Expr
  | [] => .ok (left, Tail.none [])
  | t :: rest =>
    match operator? level t with
    | none => .ok (left, Tail.none _)
    | some op => do
      let (right, r) ← operand rest
      let step := (Rest.afterOne t rest).trans r
      have := step.property
      let (e, u) ← chain operand level (.binary op left right) step.val
      return (e, (step.andTail u).weaken)
termination_by tokens => tokens.length
decreasing_by exact this

/-- The expressions of the given levels over operands. -/
def binary (operand : ExprReader) : List (List (Symbol × BinaryOp)) → ExprReader
  | [] => operand
  | level :: tighter => fun tokens => do
    let (left, r) ← binary operand tighter tokens
    let (e, u) ← chain (binary operand tighter) level left r.val
    return (e, r.andTail u)

/-- A chain of binary operators, optionally as the condition of a choice between two expressions. -/
def ternary (operand inner : ExprReader) : ExprReader := fun tokens => do
  let (condition, r) ← binary operand binaryLevels tokens
  match h : r.val with
  | .symbol .question :: rest =>
    let start : Rest tokens := ⟨rest, by
      have := r.property
      simp only [h, List.length_cons] at this
      omega⟩
    let (yes, a) ← inner start.val
    let ((), b) ← expect .colon a.val
    let (no, c) ← inner b.val
    return (.conditional condition yes no, start.trans (a.trans (b.trans c)))
  | _ => return (condition, r)

/-! ## Atoms and what follows them -/

/-- Things of one kind with commas between them, behind an opening bracket and
to the closing one. -/
def listed {α : Type} (one : Reader SyntaxError Token α) (close : Symbol) :
    Reader SyntaxError Token (List α) :=
  fun tokens =>
    match tokens with
    | [] => more []
    | t :: rest =>
      if t = .symbol close then .ok ([], Rest.afterOne t rest) else more (t :: rest)
where
  /-- At least one of them. -/
  more : Reader SyntaxError Token (List α) := fun tokens => do
    let (a, r) ← one tokens
    match h : r.val with
    | [] => throw (.expected .comma none)
    | t :: rest =>
      have shorter : rest.length < tokens.length := by
        have := r.property
        simp only [h, List.length_cons] at this
        omega
      if t = .symbol close then return ([a], ⟨rest, shorter⟩)
      else if t = .symbol .comma then
        let (others, u) ← more rest
        return (a :: others, ⟨u.val, Nat.lt_trans u.property shorter⟩)
      else throw (.expected .comma (some t))
  termination_by tokens => tokens.length

/-- A key of a map: a name stands for itself, anything else is an expression. -/
def key (inner : ExprReader) : ExprReader
  | .ident name :: rest => .ok (.literal (.string name), Rest.afterOne _ rest)
  | tokens => inner tokens

def entry (inner : ExprReader) : Reader SyntaxError Token (Expr × Expr) := fun tokens => do
  let (k, a) ← key inner tokens
  let ((), b) ← expect .colon a.val
  let (v, c) ← inner b.val
  return ((k, v), a.trans (b.trans c))

/-- A literal, a name, a parenthesised expression, a list or a map. -/
def primary (inner : ExprReader) : ExprReader
  | [] => .error .unexpectedEnd
  | t :: rest =>
    let start := Rest.afterOne t rest
    match t with
    | .int n => .ok (.literal (.ofNat n), start)
    | .float f => .ok (.literal (.ofFloat f), start)
    | .text s => .ok (.literal (.string s), start)
    | .keyword .true => .ok (.literal (.bool true), start)
    | .keyword .false => .ok (.literal (.bool false), start)
    | .keyword .null => .ok (.literal .null, start)
    | .ident name => .ok (.var name, start)
    | .symbol .leftParen => do
      let (e, a) ← inner rest
      let ((), b) ← expect .rightParen a.val
      return (e, start.trans (a.trans b))
    | .symbol .leftBracket => do
      let (es, a) ← listed inner .rightBracket rest
      return (.list es, start.trans a)
    | .symbol .leftBrace => do
      let (es, a) ← listed (entry inner) .rightBrace rest
      return (.map es, start.trans a)
    | .symbol _ => .error (.unexpected t)

/-- The name of a member behind a point: a name or a whole number. -/
def memberName : Reader SyntaxError Token String
  | .ident name :: rest => .ok (name, Rest.afterOne _ rest)
  | .int n :: rest => .ok (toString n, Rest.afterOne _ rest)
  | tokens => .error (.memberName tokens.head?)

/-- Goes on with member access, indexing and calls behind an expression. -/
def access (inner : ExprReader) (e : Expr) : Continuation SyntaxError Token Expr
  | .symbol .dot :: rest => do
    let (name, a) ← memberName rest
    have := a.property
    let (e', u) ← access inner (.member e name) a.val
    return (e', ((Rest.afterOne _ rest).trans a |>.andTail u).weaken)
  | .symbol .leftBracket :: rest => do
    let (position, a) ← inner rest
    let ((), b) ← expect .rightBracket a.val
    have := (a.trans b).property
    let (e', u) ← access inner (.index e position) (a.trans b).val
    return (e', ((Rest.afterOne _ rest).trans (a.trans b) |>.andTail u).weaken)
  | .symbol .leftParen :: rest =>
    match e with
    | .var name => do
      let (args, a) ← listed inner .rightParen rest
      have := a.property
      let (e', u) ← access inner (.call name args) a.val
      return (e', ((Rest.afterOne _ rest).trans a |>.andTail u).weaken)
    | _ => .error .callOfNoName
  | tokens => .ok (e, Tail.none tokens)
termination_by tokens => tokens.length
decreasing_by
  all_goals
    simp only [List.length_cons]
    omega

/-- An atom with everything that follows it. -/
def postfixed (inner : ExprReader) : ExprReader := fun tokens => do
  let (e, r) ← primary inner tokens
  let (e', u) ← access inner e r.val
  return (e', r.andTail u)

/-! ## Levels of nesting -/

/-- A prefix operator with its operand, or what binds tighter. -/
def unary (operand tighter : ExprReader) : ExprReader
  | [] => tighter []
  | t :: rest =>
    match prefixOperator? t with
    | some op => do
      let (e, r) ← operand rest
      return (.unary op e, (Rest.afterOne t rest).trans r)
    | none => tighter (t :: rest)

def noRoom : ExprReader := fun _ => .error .tooDeep

/-- The two readers that open a level of nesting. -/
structure Levels where
  conditional : ExprReader
  unary : ExprReader

/-- The readers when `room` levels may still be opened. -/
def levels : Nat → Levels
  | 0 => ⟨noRoom, unary noRoom (postfixed noRoom)⟩
  | room + 1 =>
    let below := levels room
    let conditional := ternary below.unary below.conditional
    ⟨conditional, unary below.unary (postfixed conditional)⟩

def parseTokens (tokens : List Token) : Except SyntaxError Expr :=
  if tokens.isEmpty then .error .empty
  else do
    let (e, r) ← (levels maxDepth).conditional tokens
    match r.val with
    | t :: _ => throw (.trailing t)
    | [] => if e.depth ≤ maxDepth then return e else throw .tooDeep

def parse (source : String) : Except ExprError Expr := do
  let tokens ← Lexer.tokenize source
  (parseTokens tokens).mapError .malformed

end StepFlow.Parser
