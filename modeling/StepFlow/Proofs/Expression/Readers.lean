import StepFlow.Expression.Parser
import StepFlow.Proofs.Outcome

/-!
# What the readers of expressions give

`Gives x a rest` says that a reader gave `a` and left `rest` behind, without the evidence that
something was taken. For each reader there is one equivalence that says what it gives in terms of
the readers it is made of; everything about what is read is derived from these.
-/

namespace StepFlow

variable {ε τ α β : Type} {P Q : List τ → Prop}

/-- A reader gives a result and leaves a list behind. -/
def Gives (x : Except ε (α × { rest : List τ // P rest })) (a : α) (rest : List τ) : Prop :=
  ∃ h, x = .ok (a, ⟨rest, h⟩)

namespace Gives

variable {x : Except ε (α × { rest : List τ // P rest })} {a b : α} {rest rest' : List τ}

theorem property (h : Gives x a rest) : P rest :=
  h.1

theorem unique (h : Gives x a rest) (h' : Gives x b rest') : a = b ∧ rest = rest' := by
  obtain ⟨_, h⟩ := h
  obtain ⟨_, h'⟩ := h'
  rw [h] at h'
  cases h'
  exact ⟨rfl, rfl⟩

end Gives

theorem gives_ok {a b : α} {r : { rest : List τ // P rest }} {rest : List τ} :
    Gives (.ok (a, r) : Except ε _) b rest ↔ a = b ∧ r.val = rest := by
  constructor
  · rintro ⟨_, h⟩
    cases h
    exact ⟨rfl, rfl⟩
  · rintro ⟨rfl, rfl⟩
    exact ⟨r.property, rfl⟩

theorem not_gives_error {e : ε} {a : α} {rest : List τ} :
    ¬Gives (.error e : Except ε (α × { rest : List τ // P rest })) a rest := by
  rintro ⟨_, h⟩
  cases h

theorem gives_bind {x : Except ε (α × { rest : List τ // P rest })}
    {f : α × { rest : List τ // P rest } → Except ε (β × { rest : List τ // Q rest })}
    {b : β} {rest : List τ} :
    Gives (x >>= f) b rest ↔
      ∃ a r, ∃ h : P r, x = .ok (a, ⟨r, h⟩) ∧ Gives (f (a, ⟨r, h⟩)) b rest := by
  constructor
  · rintro ⟨hq, h⟩
    obtain ⟨⟨a, r, hr⟩, hx, hf⟩ := bind_eq_ok.1 h
    exact ⟨a, r, hr, hx, hq, hf⟩
  · rintro ⟨a, r, hr, hx, hq, hf⟩
    exact ⟨hq, bind_eq_ok.2 ⟨_, hx, hf⟩⟩

/-- The result of a reader, handed on by a function of the result and of what is left. -/
theorem gives_bind_of {x : Except ε (α × { rest : List τ // P rest })}
    {f : α × { rest : List τ // P rest } → Except ε (β × { rest : List τ // Q rest })}
    {p : α → List τ → Prop} {b : β} {rest : List τ}
    (hf : ∀ a r h, Gives (f (a, ⟨r, h⟩)) b rest ↔ p a r) :
    Gives (x >>= f) b rest ↔ ∃ a r, Gives x a r ∧ p a r := by
  rw [gives_bind]
  constructor
  · rintro ⟨a, r, h, hx, hg⟩
    exact ⟨a, r, ⟨h, hx⟩, (hf a r h).1 hg⟩
  · rintro ⟨a, r, ⟨h, hx⟩, hp⟩
    exact ⟨a, r, h, hx, (hf a r h).2 hp⟩

/-- A result that is handed on, what is left staying as it is. -/
theorem gives_bind_return {x : Except ε (α × { rest : List τ // P rest })}
    {f : α × { rest : List τ // P rest } → Except ε (β × { rest : List τ // Q rest })}
    {g : α → β} {b : β} {rest : List τ}
    (hf : ∀ a r h, ∃ h', f (a, ⟨r, h⟩) = .ok (g a, ⟨r, h'⟩)) :
    Gives (x >>= f) b rest ↔ ∃ a, Gives x a rest ∧ g a = b := by
  have handed : ∀ a r h, Gives (f (a, ⟨r, h⟩)) b rest ↔ g a = b ∧ r = rest := by
    intro a r h
    obtain ⟨_, ha⟩ := hf a r h
    rw [ha, gives_ok]
  rw [gives_bind_of handed]
  constructor
  · rintro ⟨a, r, hx, ha, rfl⟩
    exact ⟨a, hx, ha⟩
  · rintro ⟨a, hx, ha⟩
    exact ⟨a, rest, hx, ha, rfl⟩

/-- A result that is handed on as it is. -/
theorem gives_bind_same {x : Except ε (α × { rest : List τ // P rest })}
    {f : α × { rest : List τ // P rest } → Except ε (α × { rest : List τ // Q rest })}
    {a : α} {rest : List τ} (hf : ∀ a r h, ∃ h', f (a, ⟨r, h⟩) = .ok (a, ⟨r, h'⟩)) :
    Gives (x >>= f) a rest ↔ Gives x a rest := by
  rw [gives_bind_return hf]
  constructor
  · rintro ⟨b, hb, rfl⟩
    exact hb
  · intro ha
    exact ⟨a, ha, rfl⟩

namespace Parser

variable {operand inner tighter : ExprReader} {tokens rest : List Token} {t : Token} {e left : Expr}
  {level : List (Symbol × BinaryOp)} {levels : List (List (Symbol × BinaryOp))}

theorem gives_expect {wanted : Symbol} {u : Unit} :
    Gives (expect wanted tokens) u rest ↔ tokens = .symbol wanted :: rest := by
  cases tokens with
  | nil =>
    constructor
    · exact fun h => (not_gives_error h).elim
    · intro h
      cases h
  | cons t tail =>
    rw [expect]
    split
    · next ht =>
      subst ht
      rw [gives_ok]
      constructor
      · rintro ⟨-, h⟩
        exact congrArg _ h
      · intro h
        exact ⟨rfl, (List.cons.inj h).2⟩
    · next ht =>
      constructor
      · exact fun h => (not_gives_error h).elim
      · intro h
        exact (ht (List.cons.inj h).1).elim

/-- A symbol that must come next is taken, and the reading goes on behind it. -/
theorem gives_expect_bind {β : Type} {wanted : Symbol} {Q : List Token → Prop}
    {f : Unit × Rest tokens → Except SyntaxError (β × { rest : List Token // Q rest })}
    {p : List Token → Prop} {b : β} (hf : ∀ r h, Gives (f ((), ⟨r, h⟩)) b rest ↔ p r) :
    Gives (expect wanted tokens >>= f) b rest ↔ ∃ r, tokens = .symbol wanted :: r ∧ p r := by
  rw [gives_bind_of fun _ => hf]
  constructor
  · rintro ⟨_, r, hr, hp⟩
    exact ⟨r, gives_expect.1 hr, hp⟩
  · rintro ⟨r, hr, hp⟩
    exact ⟨(), r, gives_expect.2 hr, hp⟩

/-! ## Chains and choices -/

theorem gives_chain_stop (h : ∀ t ∈ tokens.head?, operator? level t = none) :
    Gives (chain operand level left tokens) e rest ↔ left = e ∧ tokens = rest := by
  cases tokens with
  | nil =>
    rw [chain, gives_ok]
    rfl
  | cons t tail =>
    have ht : operator? level t = none := h t rfl
    rw [chain]
    split
    · rw [gives_ok]
      rfl
    · next op hop =>
      rw [ht] at hop
      cases hop

theorem gives_chain_cons {op : BinaryOp} (h : operator? level t = some op) :
    Gives (chain operand level left (t :: tokens)) e rest ↔
      ∃ right r, Gives (operand tokens) right r ∧
        Gives (chain operand level (.binary op left right) r) e rest := by
  rw [chain]
  split
  · next hop =>
    rw [h] at hop
    cases hop
  · next op' hop =>
    rw [h] at hop
    cases hop
    apply gives_bind_of
    intro right r hr
    exact gives_bind_same fun a r' h' => ⟨_, rfl⟩

theorem gives_binary_cons :
    Gives (binary operand (level :: levels) tokens) e rest ↔
      ∃ left r, Gives (binary operand levels tokens) left r ∧
        Gives (chain (binary operand levels) level left r) e rest := by
  rw [binary]
  apply gives_bind_of
  intro left r hr
  exact gives_bind_same fun a r' h' => ⟨_, rfl⟩

theorem gives_ternary :
    Gives (ternary operand inner tokens) e rest ↔
      ∃ condition r, Gives (binary operand binaryLevels tokens) condition r ∧
        ((r.head? ≠ some (.symbol .question) ∧ condition = e ∧ r = rest) ∨
          ∃ r' yes s no, r = .symbol .question :: r' ∧ Gives (inner r') yes (.symbol .colon :: s) ∧
            Gives (inner s) no rest ∧ .conditional condition yes no = e) := by
  rw [ternary]
  apply gives_bind_of
  intro condition r hr
  dsimp only
  split
  · refine (gives_bind_of (p := fun yes a => ∃ s, a = .symbol .colon :: s ∧ ∃ no,
      Gives (inner s) no rest ∧ .conditional condition yes no = e) fun yes a ha => ?_).trans ?_
    · apply gives_expect_bind
      intro s hs
      exact gives_bind_return fun no u hu => ⟨_, rfl⟩
    constructor
    · rintro ⟨yes, _, hyes, s, rfl, no, hno, he⟩
      exact .inr ⟨_, yes, s, no, rfl, hyes, hno, he⟩
    · rintro (⟨h, -⟩ | ⟨_, yes, s, no, hr', hyes, hno, he⟩)
      · exact (h rfl).elim
      · cases hr'
        exact ⟨yes, _, hyes, s, rfl, no, hno, he⟩
  · next hq =>
    refine gives_ok.trans ?_
    constructor
    · rintro ⟨he, hrest⟩
      refine .inl ⟨fun hh => ?_, he, hrest⟩
      obtain ⟨r', hr'⟩ := List.head?_eq_some_iff.1 hh
      exact hq r' hr'
    · rintro (⟨-, he, hrest⟩ | ⟨r', _, _, _, hr', -⟩)
      · exact ⟨he, hrest⟩
      · exact (hq r' hr').elim

/-! ## Lists, maps and atoms -/

section Listed

variable {α : Type} {one : Reader SyntaxError Token α} {close : Symbol} {as : List α}

theorem gives_more (apart : close ≠ .comma) :
    Gives (listed.more one close tokens) as rest ↔
      ∃ a r, Gives (one tokens) a r ∧
        ((r = .symbol close :: rest ∧ [a] = as) ∨
          ∃ r' others, r = .symbol .comma :: r' ∧ Gives (listed.more one close r') others rest ∧
            a :: others = as) := by
  rw [listed.more]
  apply gives_bind_of
  intro a r hr
  dsimp only
  split
  · constructor
    · exact fun h => (not_gives_error h).elim
    · rintro (⟨h, -⟩ | ⟨_, _, h, -⟩)
      · cases h
      · cases h
  · next t r' =>
    split
    · next ht =>
      subst ht
      refine gives_ok.trans ?_
      constructor
      · rintro ⟨has, rfl⟩
        exact .inl ⟨rfl, has⟩
      · rintro (⟨h, has⟩ | ⟨_, _, h, -⟩)
        · exact ⟨has, (List.cons.inj h).2⟩
        · exact (apart (Token.symbol.inj (List.cons.inj h).1)).elim
    · next hclose =>
      split
      · next ht =>
        subst ht
        refine Iff.trans
          (b := ∃ others, Gives (listed.more one close r') others rest ∧ a :: others = as) ?_ ?_
        · exact gives_bind_return fun others u hu => ⟨_, rfl⟩
        constructor
        · rintro ⟨others, hothers, has⟩
          exact .inr ⟨r', others, rfl, hothers, has⟩
        · rintro (⟨h, -⟩ | ⟨_, others, h, hothers, has⟩)
          · exact (hclose (List.cons.inj h).1).elim
          · cases h
            exact ⟨others, hothers, has⟩
      · next hcomma =>
        constructor
        · exact fun h => (not_gives_error h).elim
        · rintro (⟨h, -⟩ | ⟨_, _, h, -⟩)
          · exact (hclose (List.cons.inj h).1).elim
          · exact (hcomma (List.cons.inj h).1).elim

theorem gives_listed :
    Gives (listed one close tokens) as rest ↔
      (tokens = .symbol close :: rest ∧ [] = as) ∨
        tokens.head? ≠ some (.symbol close) ∧ Gives (listed.more one close tokens) as rest := by
  cases tokens with
  | nil =>
    rw [listed]
    constructor
    · intro h
      refine .inr ⟨?_, h⟩
      rintro ⟨⟩
    · rintro (⟨h, -⟩ | ⟨-, h⟩)
      · cases h
      · exact h
  | cons t r =>
    rw [listed]
    split
    · next ht =>
      subst ht
      refine gives_ok.trans ?_
      constructor
      · rintro ⟨has, rfl⟩
        exact .inl ⟨rfl, has⟩
      · rintro (⟨h, has⟩ | ⟨h, -⟩)
        · exact ⟨has, (List.cons.inj h).2⟩
        · exact (h rfl).elim
    · next ht =>
      constructor
      · intro h
        exact .inr ⟨fun hh => ht (Option.some.inj hh), h⟩
      · rintro (⟨h, -⟩ | ⟨-, h⟩)
        · exact (ht (List.cons.inj h).1).elim
        · exact h

end Listed

theorem gives_key :
    Gives (key inner tokens) e rest ↔
      (∃ name, tokens = .ident name :: rest ∧ .literal (.string name) = e) ∨
        (∀ name, tokens.head? ≠ some (.ident name)) ∧ Gives (inner tokens) e rest := by
  rw [key.eq_def]
  split
  · next name r =>
    refine gives_ok.trans ?_
    constructor
    · rintro ⟨he, rfl⟩
      exact .inl ⟨name, rfl, he⟩
    · rintro (⟨_, h, he⟩ | ⟨h, -⟩)
      · cases h
        exact ⟨he, rfl⟩
      · exact (h name rfl).elim
  · next hname =>
    constructor
    · intro h
      refine .inr ⟨fun name hh => ?_, h⟩
      obtain ⟨r', hr'⟩ := List.head?_eq_some_iff.1 hh
      exact hname name r' hr'
    · rintro (⟨name, h, -⟩ | ⟨-, h⟩)
      · exact (hname name rest h).elim
      · exact h

theorem gives_entry {entered : Expr × Expr} :
    Gives (entry inner tokens) entered rest ↔
      ∃ k r v, Gives (key inner tokens) k (.symbol .colon :: r) ∧ Gives (inner r) v rest ∧
        (k, v) = entered := by
  rw [entry]
  refine (gives_bind_of (p := fun k a => ∃ r, a = .symbol .colon :: r ∧
    ∃ v, Gives (inner r) v rest ∧ (k, v) = entered) fun k a ha => ?_).trans ?_
  · apply gives_expect_bind
    intro r hr
    exact gives_bind_return fun v u hu => ⟨_, rfl⟩
  · constructor
    · rintro ⟨k, _, hk, r, rfl, v, hv, he⟩
      exact ⟨k, r, v, hk, hv, he⟩
    · rintro ⟨k, r, v, hk, hv, he⟩
      exact ⟨k, _, hk, r, rfl, v, hv, he⟩

theorem gives_primary_parenthesised :
    Gives (primary inner (.symbol .leftParen :: tokens)) e rest ↔
      Gives (inner tokens) e (.symbol .rightParen :: rest) := by
  rw [primary]
  refine (gives_bind_of (p := fun e' a => a = .symbol .rightParen :: rest ∧ e' = e)
    fun e' a ha => ?_).trans ?_
  · refine (gives_expect_bind (p := fun r => e' = e ∧ r = rest) fun r hr => gives_ok).trans ?_
    constructor
    · rintro ⟨_, ha, he, rfl⟩
      exact ⟨ha, he⟩
    · rintro ⟨ha, he⟩
      exact ⟨rest, ha, he, rfl⟩
  · constructor
    · rintro ⟨_, _, h, rfl, rfl⟩
      exact h
    · intro h
      exact ⟨e, _, h, rfl, rfl⟩

theorem gives_primary_list :
    Gives (primary inner (.symbol .leftBracket :: tokens)) e rest ↔
      ∃ es, Gives (listed inner .rightBracket tokens) es rest ∧ .list es = e := by
  rw [primary]
  exact gives_bind_return fun es a ha => ⟨_, rfl⟩

theorem gives_primary_map :
    Gives (primary inner (.symbol .leftBrace :: tokens)) e rest ↔
      ∃ es, Gives (listed (entry inner) .rightBrace tokens) es rest ∧ .map es = e := by
  rw [primary]
  exact gives_bind_return fun es a ha => ⟨_, rfl⟩

/-! ## What follows an atom -/

theorem gives_memberName {name : String} :
    Gives (memberName tokens) name rest ↔
      tokens = .ident name :: rest ∨ ∃ n, tokens = .int n :: rest ∧ toString n = name := by
  rw [memberName.eq_def]
  split
  · refine gives_ok.trans ?_
    constructor
    · rintro ⟨rfl, rfl⟩
      exact .inl rfl
    · rintro (h | ⟨_, h, -⟩)
      · cases h
        exact ⟨rfl, rfl⟩
      · cases h
  · next n r =>
    refine gives_ok.trans ?_
    constructor
    · rintro ⟨hn, rfl⟩
      exact .inr ⟨n, rfl, hn⟩
    · rintro (h | ⟨_, h, hn⟩)
      · cases h
      · cases h
        exact ⟨hn, rfl⟩
  · next hident hint =>
    constructor
    · exact fun h => (not_gives_error h).elim
    · rintro (h | ⟨n, h, -⟩)
      · exact (hident _ _ h).elim
      · exact (hint _ _ h).elim

theorem gives_access_dot {e' : Expr} :
    Gives (access inner e (.symbol .dot :: tokens)) e' rest ↔
      ∃ name r, Gives (memberName tokens) name r ∧
        Gives (access inner (.member e name) r) e' rest := by
  rw [access]
  apply gives_bind_of
  intro name r hr
  exact gives_bind_same fun a r' h' => ⟨_, rfl⟩

theorem gives_access_bracket {e' : Expr} :
    Gives (access inner e (.symbol .leftBracket :: tokens)) e' rest ↔
      ∃ position r, Gives (inner tokens) position (.symbol .rightBracket :: r) ∧
        Gives (access inner (.index e position) r) e' rest := by
  rw [access]
  refine (gives_bind_of (p := fun position a => ∃ r, a = .symbol .rightBracket :: r ∧
    Gives (access inner (.index e position) r) e' rest) fun position a ha => ?_).trans ?_
  · apply gives_expect_bind
    intro r hr
    exact gives_bind_same fun a r' h' => ⟨_, rfl⟩
  · constructor
    · rintro ⟨position, _, hp, r, rfl, h⟩
      exact ⟨position, r, hp, h⟩
    · rintro ⟨position, r, hp, h⟩
      exact ⟨position, _, hp, r, rfl, h⟩

theorem gives_access_call {name : String} {e' : Expr} :
    Gives (access inner (.var name) (.symbol .leftParen :: tokens)) e' rest ↔
      ∃ args r, Gives (listed inner .rightParen tokens) args r ∧
        Gives (access inner (.call name args) r) e' rest := by
  rw [access]
  apply gives_bind_of
  intro args r hr
  exact gives_bind_same fun a r' h' => ⟨_, rfl⟩

/-- Only a name is called. -/
theorem eq_var_of_gives_access {e' : Expr}
    (h : Gives (access inner e (.symbol .leftParen :: tokens)) e' rest) :
    ∃ name, e = .var name := by
  rw [access.eq_def] at h
  dsimp only at h
  split at h
  · next name => exact ⟨name, rfl⟩
  · exact (not_gives_error h).elim

/-- Whether a token goes on with an expression that could end before it. -/
def goesOn : Token → Bool
  | .symbol .dot | .symbol .leftBracket | .symbol .leftParen => true
  | _ => false

theorem gives_access_stop {e' : Expr} (h : ∀ t ∈ tokens.head?, goesOn t = false) :
    Gives (access inner e tokens) e' rest ↔ e = e' ∧ tokens = rest := by
  rw [access.eq_def]
  split
  · cases h _ rfl
  · cases h _ rfl
  · cases h _ rfl
  · exact gives_ok

theorem gives_postfixed {e' : Expr} :
    Gives (postfixed inner tokens) e' rest ↔
      ∃ e r, Gives (primary inner tokens) e r ∧ Gives (access inner e r) e' rest := by
  rw [postfixed]
  apply gives_bind_of
  intro e r hr
  exact gives_bind_same fun a r' h' => ⟨_, rfl⟩

/-! ## Prefix operators and levels -/

theorem gives_unary_operator {op : UnaryOp} (h : prefixOperator? t = some op) :
    Gives (unary operand tighter (t :: tokens)) e rest ↔
      ∃ e', Gives (operand tokens) e' rest ∧ .unary op e' = e := by
  rw [unary]
  split
  · next op' hop =>
    rw [h] at hop
    cases hop
    exact gives_bind_return fun e' r hr => ⟨_, rfl⟩
  · next hop =>
    rw [h] at hop
    cases hop

theorem unary_eq_tighter (h : ∀ t ∈ tokens.head?, prefixOperator? t = none) :
    unary operand tighter tokens = tighter tokens := by
  cases tokens with
  | nil => rfl
  | cons t r =>
    have ht : prefixOperator? t = none := h t rfl
    rw [unary]
    split
    · next hop =>
      rw [ht] at hop
      cases hop
    · rfl

/-- The reader of operands of prefix operators, which are a level further in. -/
def belowUnary : Nat → ExprReader
  | 0 => noRoom
  | room + 1 => (Parser.levels room).unary

theorem levels_unary (room : Nat) :
    (Parser.levels room).unary =
      unary (belowUnary room) (postfixed (Parser.levels room).conditional) := by
  cases room <;> rfl

theorem levels_conditional_succ (room : Nat) :
    (Parser.levels (room + 1)).conditional =
      ternary (Parser.levels room).unary (Parser.levels room).conditional := rfl

theorem not_gives_conditional_zero : ¬Gives ((Parser.levels 0).conditional tokens) e rest :=
  not_gives_error

/-! ## Errors

An operand that cannot be read is an error of every chain and of every choice
that begins with it. -/

section Errors

variable {error : SyntaxError}

theorem binary_of_error (h : operand tokens = .error error) :
    ∀ levels, binary operand levels tokens = .error error
  | [] => h
  | level :: levels => by
    rw [binary]
    exact bind_of_error (binary_of_error h levels) _

theorem conditional_of_error {room : Nat} (name : String)
    (h : access (Parser.levels room).conditional (.var name) tokens = .error error) :
    (Parser.levels (room + 1)).conditional (.ident name :: tokens) = .error error := by
  have operand : (Parser.levels room).unary (.ident name :: tokens) = .error error := by
    rw [levels_unary, unary_eq_tighter (by rintro _ ⟨⟩; rfl), postfixed, primary]
    exact bind_of_error h _
  rw [levels_conditional_succ, ternary]
  exact bind_of_error (binary_of_error operand _) _

end Errors

end Parser

end StepFlow
