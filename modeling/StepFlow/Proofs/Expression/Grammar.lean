import StepFlow.Expression
import StepFlow.Expression.Token

/-!
# The grammar of expressions

What a list of tokens may derive, without reference to how it is read. Every token stands together
with the number of levels that are open at it, counted from the level of the nonterminal: a
conditional opens a level for everything in it, and a prefix operator opens one for its operand. The
tokens of brackets, operators and separators belong to the level of what they hold together.

The grammar sets no limit to the levels. `Grammar.Within` is the limit that reading adds.
-/

namespace StepFlow

/-- A token with the number of levels that are open at it. -/
abbrev Placed : Type := Token × Nat

namespace Grammar

def literal? : Token → Option Value
  | .int n => some (.ofNat n)
  | .float f => some (.ofFloat f)
  | .text s => some (.string s)
  | .keyword .true => some (.bool true)
  | .keyword .false => some (.bool false)
  | .keyword .null => some .null
  | _ => none

/-- The binary operators by the level that they bind at, loosest first. -/
def binaryOperators : List (List (Symbol × BinaryOp)) := [
  [(.orOr, .or)],
  [(.andAnd, .and)],
  [(.eqEq, .eq), (.notEq, .notEq)],
  [(.lt, .lt), (.le, .le), (.gt, .gt), (.ge, .ge)],
  [(.plus, .add), (.minus, .sub)],
  [(.star, .mul), (.slash, .div), (.percent, .rem)]]

inductive PrefixOperator : Symbol → UnaryOp → Prop
  | not : PrefixOperator .bang .not
  | neg : PrefixOperator .minus .neg

/-- A name, in any number of parentheses. -/
inductive Name : Nat → List Placed → String → Prop
  | bare (k : Nat) (name : String) : Name k [(.ident name, k)] name
  | parenthesised {k : Nat} {w : List Placed} {name : String} (inside : Name (k + 1) w name) :
    Name k ((.symbol .leftParen, k) :: (w ++ [(.symbol .rightParen, k)])) name

mutual

/-- An expression at its loosest: a chain of operators, or a choice between two conditionals. -/
inductive Conditional : Nat → List Placed → Expr → Prop
  | plain {k : Nat} {w : List Placed} {e : Expr} (chain : Binary (k + 1) binaryOperators w e) :
    Conditional k w e
  | choice {k : Nat} {w y n : List Placed} {condition yes no : Expr}
    (chain : Binary (k + 1) binaryOperators w condition)
    (whenTrue : Conditional (k + 1) y yes) (whenFalse : Conditional (k + 1) n no) :
    Conditional k
      (w ++ (.symbol .question, k + 1) :: (y ++ (.symbol .colon, k + 1) :: n))
      (.conditional condition yes no)

/-- A chain of the operators of the given levels, loosest first, associating to the left. -/
inductive Binary : Nat → List (List (Symbol × BinaryOp)) → List Placed → Expr → Prop
  | operand {k : Nat} {w : List Placed} {e : Expr} (unary : Unary k w e) : Binary k [] w e
  | tighter {k : Nat} {level : List (Symbol × BinaryOp)}
    {levels : List (List (Symbol × BinaryOp))} {w : List Placed} {e : Expr}
    (chain : Binary k levels w e) : Binary k (level :: levels) w e
  | operator {k : Nat} {level : List (Symbol × BinaryOp)}
    {levels : List (List (Symbol × BinaryOp))} {l r : List Placed} {s : Symbol} {op : BinaryOp}
    {left right : Expr} (before : Binary k (level :: levels) l left)
    (isOperator : (s, op) ∈ level) (behind : Binary k levels r right) :
    Binary k (level :: levels) (l ++ (.symbol s, k) :: r) (.binary op left right)

/-- Prefix operators in front of an operand. -/
inductive Unary : Nat → List Placed → Expr → Prop
  | operand {k : Nat} {w : List Placed} {e : Expr} (postfixed : Postfix k w e) : Unary k w e
  | operator {k : Nat} {w : List Placed} {s : Symbol} {op : UnaryOp} {e : Expr}
    (isOperator : PrefixOperator s op) (behind : Unary (k + 1) w e) :
    Unary k ((.symbol s, k) :: w) (.unary op e)

/-- An atom with member access, indexing and calls behind it; only a name is called. -/
inductive Postfix : Nat → List Placed → Expr → Prop
  | atom {k : Nat} {w : List Placed} {e : Expr} (primary : Primary k w e) : Postfix k w e
  | member {k : Nat} {w : List Placed} {e : Expr} {name : String} (object : Postfix k w e) :
    Postfix k (w ++ [(.symbol .dot, k), (.ident name, k)]) (.member e name)
  | item {k : Nat} {w : List Placed} {e : Expr} {n : Nat} (object : Postfix k w e) :
    Postfix k (w ++ [(.symbol .dot, k), (.int n, k)]) (.member e (toString n))
  | index {k : Nat} {w i : List Placed} {e position : Expr} (object : Postfix k w e)
    (inside : Conditional k i position) :
    Postfix k (w ++ (.symbol .leftBracket, k) :: (i ++ [(.symbol .rightBracket, k)]))
      (.index e position)
  | call {k : Nat} {w a : List Placed} {name : String} {args : List Expr} (called : Name k w name)
    (inside : Items k .rightParen a args) :
    Postfix k (w ++ (.symbol .leftParen, k) :: a) (.call name args)

/-- A literal, a name, an expression in parentheses, a list or a map. -/
inductive Primary : Nat → List Placed → Expr → Prop
  | literal {k : Nat} {t : Token} {v : Value} (isLiteral : literal? t = some v) :
    Primary k [(t, k)] (.literal v)
  | var (k : Nat) (name : String) : Primary k [(.ident name, k)] (.var name)
  | parenthesised {k : Nat} {w : List Placed} {e : Expr} (inside : Conditional k w e) :
    Primary k ((.symbol .leftParen, k) :: (w ++ [(.symbol .rightParen, k)])) e
  | list {k : Nat} {w : List Placed} {es : List Expr} (inside : Items k .rightBracket w es) :
    Primary k ((.symbol .leftBracket, k) :: w) (.list es)
  | map {k : Nat} {w : List Placed} {es : List (Expr × Expr)} (inside : Entries k w es) :
    Primary k ((.symbol .leftBrace, k) :: w) (.map es)

/-- Expressions with commas between them, and the bracket that closes them. -/
inductive Items : Nat → Symbol → List Placed → List Expr → Prop
  | none (k : Nat) (close : Symbol) : Items k close [(.symbol close, k)] []
  | some {k : Nat} {close : Symbol} {w : List Placed} {es : List Expr}
    (items : SomeItems k close w es) : Items k close w es

/-- At least one expression, and the bracket that closes them. -/
inductive SomeItems : Nat → Symbol → List Placed → List Expr → Prop
  | last {k : Nat} {close : Symbol} {w : List Placed} {e : Expr} (item : Conditional k w e) :
    SomeItems k close (w ++ [(.symbol close, k)]) [e]
  | cons {k : Nat} {close : Symbol} {w r : List Placed} {e : Expr} {es : List Expr}
    (item : Conditional k w e) (others : SomeItems k close r es) :
    SomeItems k close (w ++ (.symbol .comma, k) :: r) (e :: es)

/-- Entries with commas between them, and the brace that closes them. -/
inductive Entries : Nat → List Placed → List (Expr × Expr) → Prop
  | none (k : Nat) : Entries k [(.symbol .rightBrace, k)] []
  | some {k : Nat} {w : List Placed} {es : List (Expr × Expr)} (entries : SomeEntries k w es) :
    Entries k w es

/-- At least one entry, and the brace that closes them. -/
inductive SomeEntries : Nat → List Placed → List (Expr × Expr) → Prop
  | last {k : Nat} {w : List Placed} {e : Expr × Expr} (entry : Entry k w e) :
    SomeEntries k (w ++ [(.symbol .rightBrace, k)]) [e]
  | cons {k : Nat} {w r : List Placed} {e : Expr × Expr} {es : List (Expr × Expr)}
    (entry : Entry k w e) (others : SomeEntries k r es) :
    SomeEntries k (w ++ (.symbol .comma, k) :: r) (e :: es)

/-- A key and its value. -/
inductive Entry : Nat → List Placed → Expr × Expr → Prop
  | mk {k : Nat} {w v : List Placed} {key value : Expr} (keyed : Key k w key)
    (valued : Conditional k v value) :
    Entry k (w ++ (.symbol .colon, k) :: v) (key, value)

/-- What begins with a name is that name for a key; anything else is an expression. -/
inductive Key : Nat → List Placed → Expr → Prop
  | name (k : Nat) (name : String) : Key k [(.ident name, k)] (.literal (.string name))
  | expression {k : Nat} {w : List Placed} {e : Expr} (conditional : Conditional k w e)
    (noName : ∀ name, w.head?.map Prod.fst ≠ some (.ident name)) : Key k w e

end

/-- At no token are more levels open than the limit. -/
def Within (limit : Nat) (w : List Placed) : Prop :=
  ∀ p ∈ w, p.2 ≤ limit

def tokens (w : List Placed) : List Token :=
  w.map Prod.fst

variable {k limit : Nat} {w v : List Placed} {t : Token} {e : Expr} {name : String}

@[simp] theorem tokens_nil : tokens [] = [] := rfl

@[simp] theorem tokens_cons (t : Token) (k : Nat) (w : List Placed) :
    tokens ((t, k) :: w) = t :: tokens w := rfl

@[simp] theorem tokens_append (w v : List Placed) : tokens (w ++ v) = tokens w ++ tokens v :=
  List.map_append

@[simp] theorem within_nil : Within limit [] := by
  simp [Within]

@[simp] theorem within_cons : Within limit ((t, k) :: w) ↔ k ≤ limit ∧ Within limit w := by
  simp [Within]

@[simp] theorem within_append : Within limit (w ++ v) ↔ Within limit w ∧ Within limit v := by
  simp [Within, or_imp, forall_and]

/-! ## The first token -/

def closes : Token → Bool
  | .symbol .rightParen | .symbol .rightBracket | .symbol .rightBrace => true
  | _ => false

/-- A derivation begins with a token of its own level, and not with a closing bracket. -/
def LeadsAt (k : Nat) (w : List Placed) : Prop :=
  ∃ t rest, w = (t, k) :: rest ∧ closes t = false

theorem LeadsAt.append (leads : LeadsAt k w) (v : List Placed) : LeadsAt k (w ++ v) := by
  obtain ⟨t, rest, rfl, h⟩ := leads
  exact ⟨t, rest ++ v, rfl, h⟩

theorem LeadsAt.le (leads : LeadsAt k w) (within : Within limit w) : k ≤ limit := by
  obtain ⟨t, rest, rfl, -⟩ := leads
  exact (within_cons.1 within).1

theorem LeadsAt.head?_ne {close : Symbol} (leads : LeadsAt k w) (h : closes (.symbol close) = true)
    (rest : List Token) : (tokens w ++ rest).head? ≠ some (.symbol close) := by
  obtain ⟨t, tail, rfl, ht⟩ := leads
  intro heq
  cases heq
  rw [h] at ht
  cases ht

/-- An atom begins with a token of its own level that is no prefix operator and closes nothing. -/
def LeadsAtom (k : Nat) (w : List Placed) : Prop :=
  ∃ t rest, w = (t, k) :: rest ∧ closes t = false ∧ ∀ s op, PrefixOperator s op → t ≠ .symbol s

theorem LeadsAtom.append (leads : LeadsAtom k w) (v : List Placed) : LeadsAtom k (w ++ v) := by
  obtain ⟨t, rest, rfl, h⟩ := leads
  exact ⟨t, rest ++ v, rfl, h⟩

theorem LeadsAtom.leadsAt (leads : LeadsAtom k w) : LeadsAt k w := by
  obtain ⟨t, rest, hw, h, -⟩ := leads
  exact ⟨t, rest, hw, h⟩

theorem Name.leadsAtom (h : Name k w name) : LeadsAtom k w := by
  cases h with
  | bare => exact ⟨_, _, rfl, rfl, fun _ _ _ => Token.noConfusion⟩
  | parenthesised => exact ⟨_, _, rfl, rfl, by rintro _ _ ⟨⟩ <;> decide⟩

theorem Primary.leadsAtom (h : Primary k w e) : LeadsAtom k w := by
  cases h with
  | @literal _ t _ h =>
    cases t with
    | symbol => cases h
    | _ => exact ⟨_, _, rfl, rfl, fun _ _ _ => Token.noConfusion⟩
  | var => exact ⟨_, _, rfl, rfl, fun _ _ _ => Token.noConfusion⟩
  | parenthesised | list | map => exact ⟨_, _, rfl, rfl, by rintro _ _ ⟨⟩ <;> decide⟩

theorem Postfix.leadsAtom : {w : List Placed} → {e : Expr} → Postfix k w e → LeadsAtom k w
  | _, _, .atom primary => primary.leadsAtom
  | _, _, .member object => object.leadsAtom.append _
  | _, _, .item object => object.leadsAtom.append _
  | _, _, .index object _ => object.leadsAtom.append _
  | _, _, .call called _ => called.leadsAtom.append _

theorem Unary.leadsAt (h : Unary k w e) : LeadsAt k w := by
  cases h with
  | operand postfixed => exact postfixed.leadsAtom.leadsAt
  | operator isOperator => exact ⟨_, _, rfl, by cases isOperator <;> rfl⟩

theorem Binary.leadsAt :
    {levels : List (List (Symbol × BinaryOp))} → {w : List Placed} → {e : Expr} →
      Binary k levels w e → LeadsAt k w
  | _, _, _, .operand unary => unary.leadsAt
  | _, _, _, .tighter chain => chain.leadsAt
  | _, _, _, .operator before _ _ => before.leadsAt.append _

theorem Conditional.leadsAt (h : Conditional k w e) : LeadsAt (k + 1) w := by
  cases h with
  | plain chain => exact chain.leadsAt
  | choice chain => exact chain.leadsAt.append _

theorem SomeItems.leadsAt {close : Symbol} {es : List Expr} (h : SomeItems k close w es) :
    LeadsAt (k + 1) w := by
  cases h with
  | last item => exact item.leadsAt.append _
  | cons item => exact item.leadsAt.append _

theorem Key.leadsAt (h : Key k w e) : ∃ l, LeadsAt l w := by
  cases h with
  | name => exact ⟨k, _, _, rfl, rfl⟩
  | expression conditional => exact ⟨k + 1, conditional.leadsAt⟩

theorem SomeEntries.leadsAt {es : List (Expr × Expr)} (h : SomeEntries k w es) :
    ∃ l, LeadsAt l w := by
  have entry {v : List Placed} {e : Expr × Expr} (h : Entry k v e) : ∃ l, LeadsAt l v := by
    obtain ⟨keyed, -⟩ := h
    obtain ⟨l, leads⟩ := keyed.leadsAt
    exact ⟨l, leads.append _⟩
  cases h with
  | last e =>
    obtain ⟨l, leads⟩ := entry e
    exact ⟨l, leads.append _⟩
  | cons e =>
    obtain ⟨l, leads⟩ := entry e
    exact ⟨l, leads.append _⟩

/-! ## Names -/

theorem Unary.binary (h : Unary k w e) :
    (levels : List (List (Symbol × BinaryOp))) → Binary k levels w e
  | [] => .operand h
  | _ :: levels => .tighter (h.binary levels)

theorem Postfix.conditional (h : Postfix (k + 1) w e) : Conditional k w e :=
  .plain ((Unary.operand h).binary binaryOperators)

mutual

/-- What derives just a name is one in parentheses. -/
theorem Conditional.name {k : Nat} {w : List Placed} {e : Expr} (name : String) :
    Conditional k w e → e = .var name → Name (k + 1) w name
  | .plain chain, h => chain.name name h
  | .choice _ _ _, h => by cases h

theorem Binary.name {k : Nat} {levels : List (List (Symbol × BinaryOp))} {w : List Placed}
    {e : Expr} (name : String) : Binary k levels w e → e = .var name → Name k w name
  | .operand unary, h => unary.name name h
  | .tighter chain, h => chain.name name h
  | .operator _ _ _, h => by cases h

theorem Unary.name {k : Nat} {w : List Placed} {e : Expr} (name : String) :
    Unary k w e → e = .var name → Name k w name
  | .operand postfixed, h => postfixed.name name h
  | .operator _ _, h => by cases h

theorem Postfix.name {k : Nat} {w : List Placed} {e : Expr} (name : String) :
    Postfix k w e → e = .var name → Name k w name
  | .atom primary, h => primary.name name h
  | .member _, h | .item _, h | .index _ _, h | .call _ _, h => by cases h

theorem Primary.name {k : Nat} {w : List Placed} {e : Expr} (name : String) :
    Primary k w e → e = .var name → Name k w name
  | .var k _, h => by
    cases h
    exact .bare k name
  | .parenthesised inside, h => .parenthesised (inside.name name h)
  | .literal _, h | .list _, h | .map _, h => by cases h

end

end Grammar

end StepFlow
