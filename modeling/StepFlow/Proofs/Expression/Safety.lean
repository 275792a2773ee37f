import StepFlow.Expression.Eval
import StepFlow.Proofs.Expression.Height
import StepFlow.Proofs.Expression.Parsing
import StepFlow.Proofs.Text.Bytes

/-!
# Evaluation does not panic

The operations that evaluation is made of could panic: an argument is taken by its position,
integers are divided, an operator may turn out to be none that is known, parts are cut out of the
source, and calls are nested as deeply as the expression is. Here evaluation is written down with
these operations as they are, each beside the check that is made somewhere else. It never panics,
and comes to the value of the source or to the error.
-/

namespace StepFlow.Risky

open Lexer (byteLength isBlank scan)

variable {ε : Type}

/-! ## From a source to its tokens -/

/-- The text that a lexeme between quotes stands for. -/
def unquote (lexeme : String) : Risky ε String := do
  if lexeme.utf8ByteSize = 0 then panic .overflow
  let body ← slice lexeme 1 (lexeme.utf8ByteSize - 1)
  return String.ofList (Lexer.unescape body.toList)

/-- The error for a part of a source that is no lexeme. -/
def lexError (source : String) (start stop : Nat) : Risky ε ExprError := do
  let rest ← slice source start source.utf8ByteSize
  match rest.toList with
  | [] => return .malformed .unexpectedEnd
  | c :: _ =>
    if c = '"' ∨ c = '\'' then return .unterminatedText start
    else if c.isDigit then return .malformed (.numberTooLarge (← slice source start stop))
    else return .unexpectedChar c start

/-- The token of a part of a source, which is read off this part if it is a text. -/
def tokenAt (source : String) (start stop : Nat) : Token → Risky ε Token
  | .text _ => do
    let lexeme ← slice source start stop
    return .text (← unquote lexeme)
  | t => pure t

/-- Where a part of a source ends that is no lexeme. This is known only if the part is a
number that is too large. -/
def faultEnd (unknown : Nat → Nat) (start : Nat) : Lexer.Fault → Nat
  | .numberTooLarge digits => start + byteLength digits
  | .noLexeme => unknown start

/-- The tokens of a source from an offset on, with the characters behind it. -/
def tokensFrom (source : String) (unknown : Nat → Nat) (start : Nat) :
    List Char → Risky ExprError (List Token)
  | [] => pure []
  | c :: tail =>
    if isBlank c then tokensFrom source unknown (start + c.utf8Size) tail
    else
      match scan c tail with
      | .error fault => do throw (← lexError source start (faultEnd unknown start fault))
      | .ok s => do
        let stop := start + byteLength s.lexeme
        let token ← tokenAt source start stop s.token
        let tokens ← tokensFrom source unknown stop s.rest
        return token :: tokens
termination_by cs => cs.length
decreasing_by
  · simp
  · exact s.rest_length_lt

/-! ## Operators and functions -/

/-- The remainder of signed 64-bit integers, if the division is possible. -/
def checkedRem (x y : Int) : Option Int :=
  if y ≠ 0 ∧ Number.FitsSigned (x.tdiv y) then some (x.tmod y) else none

def quotient (x y : Int) : Risky ε Int :=
  if y = 0 then panic .divisionByZero
  else if Number.FitsSigned (x.tdiv y) then pure (x.tdiv y)
  else panic .overflow

/-- Divides, exactly where this is possible. -/
def divide (a b : Operand) : Risky ε Value :=
  match a, b with
  | .int x, .int y => do
    if checkedRem x y = some 0 then return .ofInt (← quotient x y)
    else return .ofFloat (a.toFloat / b.toFloat)
  | _, _ => pure (.ofFloat (a.toFloat / b.toFloat))

/-- An arithmetic operator on numbers. -/
def arithmetic (op : BinaryOp) (a b : Operand) : Risky ExprError Value :=
  match op with
  | .add => pure (a.add b)
  | .sub => pure (a.sub b)
  | .mul => pure (a.mul b)
  | .div => if b.toFloat == 0.0 then throw .divisionByZero else divide a b
  | .rem => if b.toFloat == 0.0 then throw .divisionByZero else pure (a.rem b)
  | _ => panic .unreachable

def onNumbers (op : BinaryOp) (l r : Value) : Risky ExprError Value :=
  match l.operand?, r.operand? with
  | some a, some b => arithmetic op a b
  | _, _ => throw (.type (.arithmetic op l r))

def applyBinary (op : BinaryOp) (l r : Value) : Risky ExprError Value :=
  match op with
  | .eq => pure (.bool (l.looselyEquals r))
  | .notEq => pure (.bool (!l.looselyEquals r))
  | .lt => sure (BinaryOp.comparison Ordering.isLT l r)
  | .le => sure (BinaryOp.comparison Ordering.isLE l r)
  | .gt => sure (BinaryOp.comparison Ordering.isGT l r)
  | .ge => sure (BinaryOp.comparison Ordering.isGE l r)
  | .add =>
    match l, r with
    | .string _, _ => pure (.string (l.text ++ r.text))
    | _, .string _ => pure (.string (l.text ++ r.text))
    | .array xs, .array ys => pure (.array (xs ++ ys))
    | _, _ => onNumbers .add l r
  | _ => onNumbers op l r

/-- Refuses to go on with another number of arguments than expected. -/
def arity (f : Builtin) (args : List Value) (expected : Nat) : Risky ExprError Unit :=
  if args.length = expected then pure () else throw (.type (.arity f.name expected args.length))

/-- A function on its arguments, which it takes by their positions. -/
def call (f : Builtin) (args : List Value) : Risky ExprError Value :=
  match f with
  | .concat => pure (Builtin.applyConcat args)
  | .max | .min => sure ((f.apply args).mapError .type)
  | .ifNull => do
    arity f args 2
    if (← item args 0) = .null then item args 1 else item args 0
  | .contains => do
    arity f args 2
    sure ((Builtin.applyContains (← item args 0) (← item args 1)).mapError .type)
  | .condition => do
    arity f args 3
    if (← item args 0).truthy then item args 1 else item args 2
  | _ => do
    arity f args 1
    sure ((f.applyOne (← item args 0)).mapError .type)

/-! ## From an expression to its value -/

mutual

/-- The value of an expression, where calls may be nested as deeply as there is room. -/
def eval (look : Bindings) : Nat → Expr → Risky ExprError Value
  | 0, _ => panic .depth
  | _ + 1, .literal v => pure v
  | _ + 1, .var name =>
    match look name with
    | some v => pure v
    | none => throw (.variableNotFound name)
  | room + 1, .list items => do return .array (← evalItems look room items)
  | room + 1, .map entries => do return .object (← evalEntries look room [] entries)
  | room + 1, .member object name => do
    let v ← eval look room object
    sure ((v.member name).mapError .type)
  | room + 1, .index object position => do
    let v ← eval look room object
    let i ← eval look room position
    sure ((v.at? i).mapError .type)
  | room + 1, .call function args => do
    let vs ← evalItems look room args
    match Builtin.ofName? function with
    | some f => call f vs
    | none => throw (.functionNotFound function)
  | room + 1, .unary op operand => do
    let v ← eval look room operand
    sure ((op.apply v).mapError .type)
  | room + 1, .binary .and left right => do
    let l ← eval look room left
    if l.truthy then return .bool (← eval look room right).truthy else return .bool false
  | room + 1, .binary .or left right => do
    let l ← eval look room left
    if l.truthy then return .bool true else return .bool (← eval look room right).truthy
  | room + 1, .binary op left right => do
    let l ← eval look room left
    let r ← eval look room right
    applyBinary op l r
  | room + 1, .conditional condition yes no => do
    let c ← eval look room condition
    if c.truthy then eval look room yes else eval look room no

def evalItems (look : Bindings) (room : Nat) : List Expr → Risky ExprError (List Value)
  | [] => pure []
  | e :: rest => do
    let v ← eval look room e
    let vs ← evalItems look room rest
    return v :: vs

/-- Puts the entries of a map into an object, each key before its value. -/
def evalEntries (look : Bindings) (room : Nat) (o : Object) :
    List (Expr × Expr) → Risky ExprError Object
  | [] => pure o
  | (k, e) :: rest => do
    let key ← eval look room k
    let v ← eval look room e
    evalEntries look room (Object.insert key.text v o) rest

end

def tryEvaluate (unknown : Nat → Nat) (look : Bindings) (source : String) :
    Risky ExprError Value := do
  let tokens ← tokensFrom source unknown 0 source.toList
  let e ← sure ((Parser.parseTokens tokens).mapError .malformed)
  eval look maxDepth e

/-! ## Tokens -/

section Tokens

variable {s : String} {before inside after : List Char}

/-- The quotes of a text are a byte each, and there are two of them. -/
theorem unquote_ofList {quote : Char} (quotes : Lexer.Quote quote) (body : List Char) :
    unquote (String.ofList (quote :: body ++ [quote])) =
      (sure (.ok (String.ofList (Lexer.unescape body))) : Risky ε String) := by
  have one : byteLength [quote] = 1 := by rcases quotes with rfl | rfl <;> rfl
  have size : (String.ofList (quote :: body ++ [quote])).utf8ByteSize =
      1 + byteLength body + 1 := by
    rw [Lexer.utf8ByteSize_ofList, Lexer.byteLength_append, ← List.singleton_append,
      Lexer.byteLength_append, one]
  have part : slice (String.ofList (quote :: body ++ [quote])) 1 (1 + byteLength body) =
      (sure (.ok (String.ofList body)) : Risky ε String) := by
    have split : String.ofList (quote :: body ++ [quote]) =
        String.ofList ([quote] ++ (body ++ [quote])) := rfl
    simpa only [one] using slice_ofList split
  rw [unquote, size, if_neg (by omega), Nat.add_sub_cancel, part]
  simp [pure_eq_sure]

theorem tokenAt_lexeme {lexeme : List Char} {t : Token} (h : Lexer.Lexeme lexeme t)
    (split : s = String.ofList (before ++ (lexeme ++ after))) :
    tokenAt s (byteLength before) (byteLength before + byteLength lexeme) t =
      (sure (.ok t) : Risky ε Token) := by
  cases h with
  | text quotes inside =>
    rw [tokenAt, slice_ofList split, sure_ok_bind, unquote_ofList quotes, sure_ok_bind,
      inside.meant_eq]
    rfl
  | _ => rfl

/-- The first character of what is no lexeme decides which error it is, and whether
digits are cut out. -/
theorem lexError_of_scan {c : Char} {tail : List Char} {fault : Lexer.Fault} (unknown : Nat → Nat)
    (refused : scan c tail = .error fault) (split : s = String.ofList (before ++ c :: tail)) :
    lexError s (byteLength before) (faultEnd unknown (byteLength before) fault) =
      (sure (.ok (Lexer.faultAt (byteLength before) c fault)) : Risky ε ExprError) := by
  rw [lexError, slice_rest split, sure_ok_bind, String.toList_ofList]
  have decided := Lexer.scan_decides c tail
  rw [refused] at decided
  dsimp only
  cases decided with
  | @tooLarge l n rest front longest large =>
    have digit : c.isDigit = true := by
      cases longest.isLexeme with
      | int digits =>
        obtain ⟨d, ds, rfl⟩ := List.exists_cons_of_ne_nil digits.1
        obtain ⟨rfl, -⟩ := List.cons.inj front
        exact digits.isDigit _ List.mem_cons_self
    have noQuote : ¬(c = '"' ∨ c = '\'') := by
      rintro (rfl | rfl) <;> exact absurd digit (by decide)
    rw [if_neg noQuote, if_pos digit, faultEnd, slice_ofList (split.trans (by rw [front]))]
    rfl
  | nothing none noDigit =>
    have digit : c.isDigit = false := by
      rw [← Bool.not_eq_true, Lexer.isDigit_iff]
      exact noDigit c rfl
    rw [Lexer.faultAt]
    by_cases quote : c = '"' ∨ c = '\''
    · rw [if_pos quote, if_pos quote]
      rfl
    · rw [if_neg quote, if_neg quote, digit]
      rfl

theorem tokensFrom_eq (unknown : Nat → Nat) (before cs : List Char)
    (split : s = String.ofList (before ++ cs)) :
    tokensFrom s unknown (byteLength before) cs =
      sure (Lexer.tokensFrom (byteLength before) cs) := by
  induction h : cs.length using Nat.strongRecOn generalizing before cs with
  | ind length ih =>
    cases cs with
    | nil => rw [tokensFrom, Lexer.tokensFrom, pure_eq_sure]
    | cons c tail =>
      rw [tokensFrom, Lexer.tokensFrom]
      split
      · next blank =>
        have further := ih _ (h ▸ Nat.lt_succ_self _) (before ++ [c]) tail (by simp [split]) rfl
        rwa [Lexer.byteLength_append] at further
      · next blank =>
        cases scanned : scan c tail with
        | error fault =>
          dsimp only
          rw [lexError_of_scan unknown scanned split, sure_ok_bind, throw_eq_sure]
        | ok found =>
          have longest := (Lexer.longest_of_scan scanned).1
          have front : s = String.ofList (before ++ (found.lexeme ++ found.rest)) :=
            split.trans (congrArg (fun cs => String.ofList (before ++ cs)) found.source_eq)
          have further := ih _ (h ▸ found.rest_length_lt) (before ++ found.lexeme) found.rest
            (by rw [front, List.append_assoc]) rfl
          rw [Lexer.byteLength_append] at further
          dsimp only
          rw [tokenAt_lexeme longest.isLexeme front, sure_ok_bind, further]
          exact sure_bind fun tokens _ => rfl

end Tokens

/-! ## Values -/

section Values

variable {a b : Operand} {op : BinaryOp} {l r v : Value} {args : List Value}

/-- A quotient without remainder is in range. Zero does not get here, being zero as a float. -/
theorem divide_eq (nonzero : (b.toFloat == 0.0) = false) :
    divide a b = (sure (.ok (a.div b)) : Risky ε Value) := by
  cases a with
  | float x => rfl
  | int x =>
    cases b with
    | float y => rfl
    | int y =>
      have hy : y ≠ 0 := by
        rintro rfl
        exact absurd nonzero (by decide +kernel)
      rw [divide, Operand.div, checkedRem, Value.intOr]
      by_cases fits : Number.FitsSigned (x.tdiv y)
      · have possible : y ≠ 0 ∧ Number.FitsSigned (x.tdiv y) := ⟨hy, fits⟩
        rw [if_pos possible, if_pos fits, quotient, if_neg hy, if_pos fits]
        simp only [Option.some_inj]
        split <;> rfl
      · have impossible : ¬(y ≠ 0 ∧ Number.FitsSigned (x.tdiv y)) := fun both => fits both.2
        rw [if_neg impossible, if_neg fits, ite_self]
        rfl

theorem onNumbers_eq {f : Operand → Operand → Except ExprError Value}
    (h : ∀ a b, arithmetic op a b = sure (f a b)) :
    onNumbers op l r = sure (BinaryOp.arithmetic op f l r) := by
  rw [onNumbers, BinaryOp.arithmetic]
  cases l.operand? with
  | none => rfl
  | some a =>
    cases r.operand? with
    | none => rfl
    | some b => exact h a b

/-- Only the logical operators are not known here, and they are decided before. -/
theorem applyBinary_eq (hand : op ≠ .and) (hor : op ≠ .or) :
    applyBinary op l r = sure (op.apply l r) := by
  have checked (f : Operand → Operand → Value)
      (h : ∀ a b, (b.toFloat == 0.0) = false → arithmetic op a b = sure (.ok (f a b)))
      (hzero : ∀ a b, (b.toFloat == 0.0) = true →
        arithmetic op a b = sure (.error .divisionByZero)) :
      onNumbers op l r = sure (BinaryOp.arithmetic op (BinaryOp.nonzero f) l r) := by
    refine onNumbers_eq fun a b => ?_
    rw [BinaryOp.nonzero]
    cases zero : b.toFloat == 0.0 with
    | true => exact hzero a b zero
    | false => exact h a b zero
  cases op with
  | and => exact absurd rfl hand
  | or => exact absurd rfl hor
  | eq | notEq | lt | le | gt | ge => rfl
  | add =>
    cases l <;> cases r <;> rfl
  | sub => exact onNumbers_eq fun a b => rfl
  | mul => exact onNumbers_eq fun a b => rfl
  | div =>
    refine checked Operand.div (fun a b nonzero => ?_) fun a b zero => ?_
    · rw [arithmetic, nonzero]
      exact divide_eq nonzero
    · rw [arithmetic, zero]
      rfl
  | rem =>
    refine checked Operand.rem (fun a b nonzero => ?_) fun a b zero => ?_
    · rw [arithmetic, nonzero]
      rfl
    · rw [arithmetic, zero]
      rfl

/-- As many arguments as expected are there to be taken. -/
theorem call_eq (f : Builtin) (args : List Value) :
    call f args = sure ((f.apply args).mapError .type) := by
  cases f with
  | concat | max | min => rfl
  | ifNull =>
    obtain _ | ⟨v, _ | ⟨fallback, _ | ⟨_, rest⟩⟩⟩ := args
    · rfl
    · rfl
    · show (if v = .null then sure (.ok fallback) else sure (.ok v)) =
        sure (.ok (if v = .null then fallback else v))
      split <;> rfl
    · rfl
  | contains => obtain _ | ⟨container, _ | ⟨v, _ | ⟨_, rest⟩⟩⟩ := args <;> rfl
  | condition =>
    obtain _ | ⟨test, _ | ⟨yes, _ | ⟨no, _ | ⟨_, rest⟩⟩⟩⟩ := args
    · rfl
    · rfl
    · rfl
    · show (if test.truthy then sure (.ok yes) else sure (.ok no)) =
        sure (.ok (if test.truthy then yes else no))
      split <;> rfl
    · rfl
  | _ => obtain _ | ⟨v, _ | ⟨_, rest⟩⟩ := args <;> rfl

end Values

/-! ## Evaluation -/

open StepFlow.Expr (height heightItems heightEntries)

variable (look : Bindings) {room : Nat}

mutual

/-- An expression that is not higher than there is room is evaluated without a panic. -/
theorem eval_eq : (e : Expr) → {room : Nat} → e.height ≤ room →
    eval look room e = sure (e.eval look)
  | e, 0, h => by
    rw [Expr.height_eq_children] at h
    omega
  | .literal v, room + 1, _ => rfl
  | .var name, room + 1, _ => by
    rw [eval, Expr.eval]
    cases look name <;> rfl
  | .list items, room + 1, h => by
    rw [eval, Expr.eval, evalItems_eq items (by rw [height] at h; omega)]
    exact sure_bind fun _ _ => rfl
  | .map entries, room + 1, h => by
    rw [eval, Expr.eval, evalEntries_eq entries [] (by rw [height] at h; omega)]
    exact sure_bind fun _ _ => rfl
  | .member object name, room + 1, h => by
    rw [eval, Expr.eval, eval_eq object (by rw [height] at h; omega)]
    exact sure_bind fun _ _ => rfl
  | .index object position, room + 1, h => by
    rw [eval, Expr.eval, eval_eq object (by rw [height] at h; omega)]
    refine sure_bind fun v _ => ?_
    rw [eval_eq position (by rw [height] at h; omega)]
    exact sure_bind fun _ _ => rfl
  | .call function args, room + 1, h => by
    rw [eval, Expr.eval, evalItems_eq args (by rw [height] at h; omega)]
    refine sure_bind fun vs _ => ?_
    cases Builtin.ofName? function with
    | some f => exact call_eq f vs
    | none => rfl
  | .unary op operand, room + 1, h => by
    rw [eval, Expr.eval, eval_eq operand (by rw [height] at h; omega)]
    exact sure_bind fun _ _ => rfl
  | .binary op left right, room + 1, h => by
    have hleft : eval look room left = sure (left.eval look) :=
      eval_eq left (by rw [height] at h; omega)
    have hright : eval look room right = sure (right.eval look) :=
      eval_eq right (by rw [height] at h; omega)
    cases op with
    | and =>
      rw [eval, Expr.eval, hleft, hright]
      refine sure_bind fun l _ => ?_
      cases l.truthy with
      | true => exact sure_bind fun _ _ => rfl
      | false => rfl
    | or =>
      rw [eval, Expr.eval, hleft, hright]
      refine sure_bind fun l _ => ?_
      cases l.truthy with
      | true => rfl
      | false => exact sure_bind fun _ _ => rfl
    | _ =>
      show (eval look room left >>= fun l => eval look room right >>= fun r => applyBinary _ l r) =
        sure (left.eval look >>= fun l => right.eval look >>= fun r => BinaryOp.apply _ l r)
      rw [hleft, hright]
      exact sure_bind fun l _ => sure_bind fun r _ => applyBinary_eq nofun nofun
  | .conditional condition yes no, room + 1, h => by
    rw [eval, Expr.eval, eval_eq condition (by rw [height] at h; omega)]
    refine sure_bind fun c _ => ?_
    split
    · exact eval_eq yes (by rw [height] at h; omega)
    · exact eval_eq no (by rw [height] at h; omega)

theorem evalItems_eq : (items : List Expr) → {room : Nat} → heightItems items ≤ room →
    evalItems look room items = sure (Expr.evalItems look items)
  | [], _, _ => rfl
  | e :: rest, room, h => by
    rw [evalItems, Expr.evalItems, eval_eq e (by rw [heightItems] at h; omega)]
    refine sure_bind fun v _ => ?_
    rw [evalItems_eq rest (by rw [heightItems] at h; omega)]
    exact sure_bind fun _ _ => rfl

theorem evalEntries_eq : (entries : List (Expr × Expr)) → (o : Object) → {room : Nat} →
    heightEntries entries ≤ room →
    evalEntries look room o entries = sure (Expr.evalEntries look o entries)
  | [], _, _, _ => rfl
  | (k, e) :: rest, o, room, h => by
    rw [evalEntries, Expr.evalEntries, eval_eq k (by rw [heightEntries] at h; omega)]
    refine sure_bind fun key _ => ?_
    rw [eval_eq e (by rw [heightEntries] at h; omega)]
    exact sure_bind fun v _ => evalEntries_eq rest _ (by rw [heightEntries] at h; omega)

end

/-- Evaluation never panics, whatever the source is and the variables stand for: it comes to the
value of the source or to the error for which it has none. Nor does it matter where a part that is
no lexeme is taken to end. -/
theorem evaluation_never_panics (unknown : Nat → Nat) (look : Bindings) (source : String) :
    (tryEvaluate unknown look source).run = .ok (StepFlow.tryEvaluate look source) := by
  have tokens : tokensFrom source unknown 0 source.toList = sure (Lexer.tokenize source) :=
    tokensFrom_eq unknown [] source.toList String.ofList_toList.symm
  have value : tryEvaluate unknown look source = sure (StepFlow.tryEvaluate look source) := by
    rw [tryEvaluate, tokens, StepFlow.tryEvaluate, Parser.parse, bind_assoc]
    refine sure_bind fun ts _ => sure_bind fun e parsed => eval_eq look e ?_
    cases read : Parser.parseTokens ts with
    | error error =>
      rw [read] at parsed
      cases parsed
    | ok e =>
      rw [read] at parsed
      cases parsed
      rw [← Expr.depth_eq_height]
      exact (Parser.parseTokens_eq_ok.1 read).2
  rw [value]
  rfl

/-- Without the checks the same operations do panic. -/
example : arithmetic .and (.int 1) (.int 1) = panic .unreachable ∧
    (quotient (-9223372036854775808) (-1) : Risky ExprError Int) = panic .overflow ∧
    eval Bindings.none 0 (.literal .null) = panic .depth := ⟨rfl, rfl, rfl⟩

end StepFlow.Risky
