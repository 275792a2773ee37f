import Mathlib.Data.List.Basic
import StepFlow.Proofs.Expression.Grammar

/-!
# Brackets in derivations

A derivation closes every bracket that it opens by one of its kind. Parentheses hold the arguments
of a call if they stand behind a name or behind another parenthesis that is closed; anywhere else
they hold a conditional. So a run of tokens between two parentheses of its own is derived by itself,
if the tokens in front do not make it arguments.

`Bracketed` says this of a list of tokens, and every nonterminal keeps it. Braces are not nested
deeper than the tree is high. What it takes of parentheses alone is `ParensMatch`.
-/

namespace StepFlow.Grammar

def closing? : Symbol → Option Symbol
  | .leftParen => some .rightParen
  | .leftBracket => some .rightBracket
  | .leftBrace => some .rightBrace
  | _ => none

def isBracket : Token → Bool
  | .symbol .leftParen | .symbol .rightParen | .symbol .leftBracket | .symbol .rightBracket
  | .symbol .leftBrace | .symbol .rightBrace => true
  | _ => false

/-- Whether parentheses behind a token hold arguments. -/
def isCalled : Token → Bool
  | .ident _ | .symbol .rightParen => true
  | _ => false

/-- Every bracket is closed by one of its kind, and parentheses that hold no arguments hold a
conditional whose tree is no higher than a bound. The token in front, if there is one, tells which
do. The bound is lower between braces. -/
inductive Bracketed : Nat → Option Token → List Placed → Prop
  | nil (bound : Nat) (front : Option Token) : Bracketed bound front []
  | token {bound : Nat} {front : Option Token} {t : Token} {k : Nat} {w : List Placed}
    (plain : isBracket t = false) (behind : Bracketed bound (some t) w) :
    Bracketed bound front ((t, k) :: w)
  | nested {bound inner : Nat} {front : Option Token} {opening close : Symbol} {k k' : Nat}
    {v w : List Placed} (closed : closing? opening = some close) (within : inner ≤ bound)
    (lower : opening = .leftBrace → inner < bound)
    (inside : Bracketed inner (some (.symbol opening)) v)
    (behind : Bracketed bound (some (.symbol close)) w)
    (holds : opening = .leftParen →
      (∃ t, front = some t ∧ isCalled t = true) ∨ ∃ l e, Conditional l v e ∧ e.height ≤ bound) :
    Bracketed bound front ((.symbol opening, k) :: (v ++ (.symbol close, k') :: w))

variable {bound inner k k' : Nat} {front : Option Token} {v w : List Placed} {t : Token} {e : Expr}

namespace Bracketed

/-- Behind any token there are no more parentheses that hold a conditional than behind none. -/
theorem behind (h : Bracketed bound none w) : ∀ front, Bracketed bound front w := by
  intro front
  cases h with
  | nil => exact .nil bound front
  | token plain behind => exact .token plain behind
  | nested closed within lower inside behind holds =>
    refine .nested closed within lower inside behind fun hs => .inr ?_
    obtain ⟨t, ht, -⟩ | held := holds hs
    · cases ht
    · exact held

theorem append (hw : Bracketed bound front w) (hv : Bracketed bound none v) :
    Bracketed bound front (w ++ v) := by
  induction hw with
  | nil bound front => exact hv.behind front
  | token plain _ ih => exact .token plain (ih hv)
  | nested closed within lower inside _ holds _ ih =>
    rw [List.cons_append, List.append_assoc, List.cons_append]
    exact .nested closed within lower inside (ih hv) holds

theorem cons (plain : isBracket t = false) (h : Bracketed bound none w) :
    Bracketed bound none ((t, k) :: w) :=
  .token plain (h.behind _)

/-- Brackets other than parentheses. -/
theorem enclosed {opening close : Symbol} (closed : closing? opening = some close)
    (noParen : opening ≠ .leftParen) (h : Bracketed inner none w) (lower : inner < bound) :
    Bracketed bound none ((.symbol opening, k) :: (w ++ [(.symbol close, k')])) :=
  .nested closed (Nat.le_of_lt lower) (fun _ => lower) (h.behind _) (.nil ..) fun hs =>
    (noParen hs).elim

/-- Parentheses that hold a conditional. -/
theorem parenthesised {l : Nat} (derived : Conditional l w e) (height : e.height ≤ bound)
    (h : Bracketed bound none w) (hv : Bracketed bound (some (.symbol .rightParen)) v) :
    Bracketed bound none ((.symbol .leftParen, k) :: (w ++ (.symbol .rightParen, k') :: v)) :=
  .nested rfl (Nat.le_refl _) (fun hs => by cases hs) (h.behind _) hv fun _ =>
    .inr ⟨l, e, derived, height⟩

end Bracketed

/-! ## Derivations -/

theorem isBracket_of_mem {level : List (Symbol × BinaryOp)} {s : Symbol} {op : BinaryOp}
    (known : level ∈ binaryOperators) (h : (s, op) ∈ level) : isBracket (.symbol s) = false := by
  have free : ∀ level ∈ binaryOperators, ∀ p ∈ level, isBracket (.symbol p.1) = false := by decide
  exact free level known (s, op) h

theorem PrefixOperator.isBracket {s : Symbol} {op : UnaryOp} (h : PrefixOperator s op) :
    isBracket (.symbol s) = false := by
  cases h <;> rfl

theorem isBracket_of_literal? {value : Value} (h : literal? t = some value) :
    isBracket t = false := by
  cases t with
  | symbol => cases h
  | _ => rfl

theorem Name.postfix {name : String} (h : Name k w name) : Postfix k w (.var name) := by
  induction h with
  | bare k name => exact .atom (.var k name)
  | parenthesised _ ih => exact .atom (.parenthesised ih.conditional)

/-- What stands behind a name may take it as called. -/
theorem Name.bracketed_append {name : String} (h : Name k w name) (height : 1 ≤ bound)
    (hv : ∀ t, isCalled t = true → Bracketed bound (some t) v) : Bracketed bound none (w ++ v) := by
  induction h generalizing v with
  | bare => exact .token rfl (hv _ rfl)
  | parenthesised inside ih =>
    have name := ih (v := []) fun t _ => .nil bound (some t)
    rw [List.append_nil] at name
    rw [List.cons_append, List.append_assoc]
    exact .parenthesised inside.postfix.conditional (by rwa [Expr.height]) name (hv _ rfl)

mutual

/-- The brackets of a derivation are closed, and its parentheses hold what they should. -/
theorem Conditional.bracketed {bound k : Nat} {w : List Placed} {e : Expr} :
    Conditional k w e → e.height ≤ bound → Bracketed bound none w
  | .plain chain, h => chain.bracketed h (List.Subset.refl _)
  | .choice chain whenTrue whenFalse, h => by
    rw [Expr.height] at h
    have yes := whenTrue.bracketed (show _ ≤ bound by omega)
    have no := whenFalse.bracketed (show _ ≤ bound by omega)
    exact (chain.bracketed (by omega) (List.Subset.refl _)).append
      ((yes.append (no.cons rfl)).cons rfl)

theorem Binary.bracketed {bound k : Nat} {levels : List (List (Symbol × BinaryOp))}
    {w : List Placed}
    {e : Expr} : Binary k levels w e → e.height ≤ bound → levels ⊆ binaryOperators →
      Bracketed bound none w
  | .operand unary, h, _ => unary.bracketed h
  | .tighter chain, h, known => chain.bracketed h fun _ hl => known (List.mem_cons_of_mem _ hl)
  | .operator before isOperator behind, h, known => by
    rw [Expr.height] at h
    have right := behind.bracketed (show _ ≤ bound by omega) fun _ hl =>
      known (List.mem_cons_of_mem _ hl)
    have plain := isBracket_of_mem (known List.mem_cons_self) isOperator
    exact (before.bracketed (by omega) known).append (right.cons plain)

theorem Unary.bracketed {bound k : Nat} {w : List Placed} {e : Expr} :
    Unary k w e → e.height ≤ bound → Bracketed bound none w
  | .operand postfixed, h => postfixed.bracketed h
  | .operator isOperator behind, h => by
    rw [Expr.height] at h
    exact (behind.bracketed (by omega)).cons isOperator.isBracket

theorem Postfix.bracketed {bound k : Nat} {w : List Placed} {e : Expr} :
    Postfix k w e → e.height ≤ bound → Bracketed bound none w
  | .atom primary, h => primary.bracketed h
  | .member object, h | .item object, h => by
    rw [Expr.height] at h
    exact (object.bracketed (by omega)).append (((Bracketed.nil bound none).cons rfl).cons rfl)
  | .index object inside, h => by
    rw [Expr.height] at h
    have position := inside.bracketed (show _ ≤ bound - 1 by omega)
    have whole := object.bracketed (show _ ≤ bound by omega)
    exact whole.append (position.enclosed rfl (by decide) (by omega))
  | .call called inside, h => by
    rw [Expr.height] at h
    obtain ⟨v, rfl, hv⟩ := inside.bracketed (show _ ≤ bound by omega)
    refine called.bracketed_append (by omega) fun t ht => ?_
    exact .nested rfl (Nat.le_refl _) (fun hs => by cases hs) (hv.behind _) (.nil ..) fun _ =>
      .inl ⟨t, rfl, ht⟩

theorem Primary.bracketed {bound k : Nat} {w : List Placed} {e : Expr} :
    Primary k w e → e.height ≤ bound → Bracketed bound none w
  | .literal isLiteral, _ => (Bracketed.nil bound none).cons (isBracket_of_literal? isLiteral)
  | .var _ _, _ => (Bracketed.nil bound none).cons rfl
  | .parenthesised inside, h => (inside.bracketed h).parenthesised inside h (.nil ..)
  | .list inside, h => by
    rw [Expr.height] at h
    obtain ⟨v, rfl, hv⟩ := inside.bracketed (show _ ≤ bound - 1 by omega)
    exact hv.enclosed rfl (by decide) (by omega)
  | .map inside, h => by
    rw [Expr.height] at h
    obtain ⟨v, rfl, hv⟩ := inside.bracketed (show _ ≤ bound - 1 by omega)
    exact hv.enclosed rfl (by decide) (by omega)

theorem Items.bracketed {bound k : Nat} {close : Symbol} {w : List Placed} {es : List Expr} :
    Items k close w es → Expr.heightItems es ≤ bound →
      ∃ v, w = v ++ [(.symbol close, k)] ∧ Bracketed bound none v
  | .none k close, _ => ⟨[], rfl, .nil bound none⟩
  | .some items, h => items.bracketed h

theorem SomeItems.bracketed {bound k : Nat} {close : Symbol} {w : List Placed} {es : List Expr} :
    SomeItems k close w es → Expr.heightItems es ≤ bound →
      ∃ v, w = v ++ [(.symbol close, k)] ∧ Bracketed bound none v
  | .last item, h => by
    rw [Expr.heightItems] at h
    exact ⟨_, rfl, item.bracketed (by omega)⟩
  | .cons item others, h => by
    rw [Expr.heightItems] at h
    obtain ⟨v, rfl, hv⟩ := others.bracketed (show _ ≤ bound by omega)
    exact ⟨_, (List.append_assoc _ (_ :: v) _).symm,
      (item.bracketed (by omega)).append (hv.cons rfl)⟩

theorem Entries.bracketed {bound k : Nat} {w : List Placed} {es : List (Expr × Expr)} :
    Entries k w es → Expr.heightEntries es ≤ bound →
      ∃ v, w = v ++ [(.symbol .rightBrace, k)] ∧ Bracketed bound none v
  | .none k, _ => ⟨[], rfl, .nil bound none⟩
  | .some entries, h => entries.bracketed h

theorem SomeEntries.bracketed {bound k : Nat} {w : List Placed} {es : List (Expr × Expr)} :
    SomeEntries k w es → Expr.heightEntries es ≤ bound →
      ∃ v, w = v ++ [(.symbol .rightBrace, k)] ∧ Bracketed bound none v
  | .last entry, h => by
    rw [Expr.heightEntries] at h
    exact ⟨_, rfl, entry.bracketed (by omega) (by omega)⟩
  | .cons entry others, h => by
    rw [Expr.heightEntries] at h
    obtain ⟨v, rfl, hv⟩ := others.bracketed (show _ ≤ bound by omega)
    exact ⟨_, (List.append_assoc _ (_ :: v) _).symm,
      (entry.bracketed (by omega) (by omega)).append (hv.cons rfl)⟩

theorem Entry.bracketed {bound k : Nat} {w : List Placed} {e : Expr × Expr} :
    Entry k w e → e.1.height ≤ bound → e.2.height ≤ bound → Bracketed bound none w
  | .mk keyed valued, hk, hv => (keyed.bracketed hk).append ((valued.bracketed hv).cons rfl)

theorem Key.bracketed {bound k : Nat} {w : List Placed} {e : Expr} :
    Key k w e → e.height ≤ bound → Bracketed bound none w
  | .name _ _, _ => (Bracketed.nil bound none).cons rfl
  | .expression conditional _, h => conditional.bracketed h

end

/-! ## Parentheses -/

/-- Some tokens close no parenthesis that they did not open before. -/
def ClosesOwn (ts : List Token) : Prop :=
  ∀ n, (ts.take n).count (.symbol .rightParen) ≤ (ts.take n).count (.symbol .leftParen)

/-- Some tokens close the parentheses that they open, and no others. -/
structure ParensMatch (ts : List Token) : Prop where
  own : ClosesOwn ts
  all : ts.count (.symbol .rightParen) = ts.count (.symbol .leftParen)

theorem closesOwn_iff {ts : List Token} :
    ClosesOwn ts ↔ ∀ n < ts.length + 1,
      (ts.take n).count (.symbol .rightParen) ≤ (ts.take n).count (.symbol .leftParen) := by
  refine ⟨fun own n _ => own n, fun own n => ?_⟩
  by_cases hn : n < ts.length + 1
  · exact own n hn
  · have whole := own ts.length (by omega)
    rw [List.take_length] at whole
    rwa [List.take_of_length_le (by omega)]

instance (ts : List Token) : Decidable (ClosesOwn ts) :=
  decidable_of_iff _ closesOwn_iff.symm

instance (ts : List Token) : Decidable (ParensMatch ts) :=
  decidable_of_iff (ClosesOwn ts ∧ ts.count (.symbol .rightParen) = ts.count (.symbol .leftParen))
    ⟨fun h => ⟨h.1, h.2⟩, fun h => ⟨h.own, h.all⟩⟩

namespace ParensMatch

variable {ts us : List Token}

theorem nil : ParensMatch [] where
  own n := by simp
  all := rfl

theorem append (ht : ParensMatch ts) (hu : ParensMatch us) : ParensMatch (ts ++ us) where
  own n := by
    have first := ht.own n
    have second := hu.own (n - ts.length)
    rw [List.take_append, List.count_append, List.count_append]
    omega
  all := by
    rw [List.count_append, List.count_append, ht.all, hu.all]

theorem cons (hleft : t ≠ .symbol .leftParen) (hright : t ≠ .symbol .rightParen)
    (ht : ParensMatch ts) : ParensMatch (t :: ts) where
  own n := by
    cases n with
    | zero => simp
    | succ n =>
      rw [List.take_succ_cons, List.count_cons_of_ne hleft, List.count_cons_of_ne hright]
      exact ht.own n
  all := by
    rw [List.count_cons_of_ne hleft, List.count_cons_of_ne hright, ht.all]

theorem parenthesised (ht : ParensMatch ts) :
    ParensMatch (.symbol .leftParen :: (ts ++ [.symbol .rightParen])) where
  own n := by
    cases n with
    | zero => simp
    | succ n =>
      have inside := ht.own n
      have close : ([Token.symbol .rightParen].take (n - ts.length)).count
          (.symbol .rightParen) ≤ 1 :=
        Nat.le_trans List.count_le_length (List.length_take_le' _ _)
      rw [List.take_succ_cons, List.take_append, List.count_cons_self, List.count_append,
        List.count_cons_of_ne (by decide), List.count_append]
      omega
  all := by
    simp [ht.all]

/-- A parenthesis that is closed behind matching ones was opened in front of them. -/
theorem not_closesOwn (ht : ParensMatch ts) : ¬ClosesOwn (ts ++ .symbol .rightParen :: us) := by
  intro own
  have closed := own (ts.length + 1)
  rw [List.take_length_add_append, List.take_succ_cons, List.take_zero, List.count_append,
    List.count_append, List.count_singleton_self, List.count_singleton, ht.all] at closed
  exact absurd closed (by simp)

/-- There is one place behind matching parentheses where the one around them can be closed. -/
theorem eq_of_append {ts' us' : List Token} (ht : ParensMatch ts) (ht' : ParensMatch ts')
    (h : ts ++ .symbol .rightParen :: us = ts' ++ .symbol .rightParen :: us') : ts = ts' := by
  obtain ⟨x, rfl, hx⟩ | ⟨x, rfl, hx⟩ := List.append_eq_append_iff.1 h
  · cases x with
    | nil => exact (List.append_nil _).symm
    | cons c x =>
      obtain ⟨rfl, -⟩ := List.cons.inj hx
      exact (ht.not_closesOwn ht'.own).elim
  · cases x with
    | nil => exact List.append_nil _
    | cons c x =>
      obtain ⟨rfl, -⟩ := List.cons.inj hx
      exact (ht'.not_closesOwn ht.own).elim

end ParensMatch

theorem Bracketed.parensMatch (h : Bracketed bound front w) : ParensMatch (tokens w) := by
  induction h with
  | nil => exact .nil
  | token plain _ ih => exact ih.cons (by rintro rfl; cases plain) (by rintro rfl; cases plain)
  | @nested _ _ _ opening close _ _ v w closed _ _ _ _ _ inside behind =>
    rw [tokens_cons, tokens_append, tokens_cons]
    cases opening with
    | leftParen =>
      cases closed
      simpa using inside.parenthesised.append behind
    | leftBracket | leftBrace =>
      cases closed
      exact (inside.append (behind.cons (by decide) (by decide))).cons (by decide) (by decide)
    | _ => cases closed

/-- Behind a parenthesis that opens no arguments stand the tokens of a conditional and the
parenthesis that closes it. -/
theorem Bracketed.exists_conditional (h : Bracketed bound front w) {pre rest : List Token}
    (split : tokens w = pre ++ .symbol .leftParen :: rest)
    (free : ∀ t ∈ (front.toList ++ pre).getLast?, isCalled t = false) :
    ∃ l v e after, rest = tokens v ++ .symbol .rightParen :: after ∧ Conditional l v e ∧
      e.height ≤ bound ∧ v ⊆ w := by
  induction h generalizing pre rest with
  | nil => simp at split
  | @token bound front t k w plain _ ih =>
    cases pre with
    | nil =>
      obtain ⟨rfl, -⟩ := List.cons.inj split
      cases plain
    | cons t' pre =>
      obtain ⟨rfl, hw⟩ := List.cons.inj split
      obtain ⟨l, v, e, after, hrest, derived, height, sub⟩ :=
        ih hw fun t ht => free t (by simpa [List.getLast?_append_cons] using ht)
      exact ⟨l, v, e, after, hrest, derived, height, List.subset_cons_of_subset _ sub⟩
  | @nested bound inner front opening close k k' v w closed within _ _ _ holds inside behind =>
    rw [tokens_cons, tokens_append, tokens_cons] at split
    cases pre with
    | nil =>
      obtain ⟨hopen, rfl⟩ := List.cons.inj split
      cases hopen
      cases closed
      obtain ⟨t, rfl, ht⟩ | ⟨l, e, derived, height⟩ := holds rfl
      · rw [free t (by simp)] at ht
        cases ht
      · refine ⟨l, v, e, tokens w, rfl, derived, height, ?_⟩
        exact List.subset_cons_of_subset _ (List.subset_append_left _ _)
    | cons t' pre =>
      obtain ⟨rfl, hw⟩ := List.cons.inj split
      obtain ⟨x, rfl, hx⟩ | ⟨x, hv, hx⟩ := List.append_eq_append_iff.1 hw
      · cases x with
        | nil =>
          obtain ⟨hclose, -⟩ := List.cons.inj hx
          cases hclose
          cases opening <;> cases closed
        | cons c x =>
          obtain ⟨rfl, htail⟩ := List.cons.inj hx
          obtain ⟨l, u, e, after, hrest, derived, height, sub⟩ := behind htail fun t ht =>
            free t (by simpa [List.getLast?_append, List.getLast?_cons] using ht)
          refine ⟨l, u, e, after, hrest, derived, height, ?_⟩
          exact List.subset_cons_of_subset _
            (List.subset_append_of_subset_right _ (List.subset_cons_of_subset _ sub))
      · cases x with
        | nil =>
          obtain ⟨hclose, -⟩ := List.cons.inj hx
          cases hclose
          cases opening <;> cases closed
        | cons c x =>
          obtain ⟨rfl, rfl⟩ := List.cons.inj hx
          obtain ⟨l, u, e, after, rfl, derived, height, sub⟩ :=
            inside hv fun t ht => free t (by simpa [List.getLast?_append_cons] using ht)
          refine ⟨l, u, e, _, List.append_assoc _ (_ :: after) _, derived,
            Nat.le_trans height within, ?_⟩
          exact List.subset_cons_of_subset _ (List.subset_append_of_subset_left _ sub)

/-- Matching parentheses between two of their own that hold no arguments are
derived by themselves. -/
theorem Conditional.exists_inside {k : Nat} {w : List Placed} {e : Expr}
    (derived : Conditional k w e) {pre ts post : List Token}
    (split : tokens w = pre ++ .symbol .leftParen :: (ts ++ .symbol .rightParen :: post))
    (free : ∀ t ∈ pre.getLast?, isCalled t = false) (parens : ParensMatch ts) :
    ∃ l v e', tokens v = ts ∧ Conditional l v e' ∧ e'.height ≤ e.height ∧ v ⊆ w := by
  have bracketed := derived.bracketed (Nat.le_refl _)
  obtain ⟨l, v, e', after, hrest, inside, height, sub⟩ := bracketed.exists_conditional split free
  have same := parens.eq_of_append (inside.bracketed (Nat.le_refl _)).parensMatch hrest
  exact ⟨l, v, e', same.symm, inside, height, sub⟩

end StepFlow.Grammar
