import StepFlow.Proofs.Expression.Soundness

/-!
# What is derived is read

A derivation is read back from its tokens by the reader of its nonterminal, if there is room for
its levels and what comes behind it could not have gone on with it. Chains of operators and what
follows an atom associate to the left, while they are read from the left; so for these two the
statement is about reading on: if what is derived can be continued behind its tokens, it is read up
to there and continued.
-/

namespace StepFlow

namespace Parser

/-- Whether a token ends an expression of the given levels that could go on. -/
def StopsAt (levels : List (List (Symbol × BinaryOp))) (t : Token) : Prop :=
  goesOn t = false ∧ ∀ level ∈ levels, operator? level t = none

/-- What comes behind an expression of the given levels does not go on with it. -/
def Stops (levels : List (List (Symbol × BinaryOp))) (rest : List Token) : Prop :=
  ∀ t ∈ rest.head?, StopsAt levels t

/-- Whether a token can stand behind a conditional. -/
def ends : Token → Bool
  | .symbol .rightParen | .symbol .rightBracket | .symbol .rightBrace
  | .symbol .comma | .symbol .colon => true
  | _ => false

/-- What comes behind a conditional, if anything, is a closing bracket or a separator. -/
def Ends (rest : List Token) : Prop :=
  ∀ t ∈ rest.head?, ends t = true

/-- The operators of a level are distinct and end the expressions of the tighter ones. -/
def Stratified : List (List (Symbol × BinaryOp)) → Prop
  | [] => True
  | level :: tighter => (level.map Prod.fst).Nodup ∧ (∀ p ∈ level, StopsAt tighter (.symbol p.1)) ∧
    Stratified tighter

instance (levels : List (List (Symbol × BinaryOp))) (t : Token) : Decidable (StopsAt levels t) :=
  inferInstanceAs (Decidable (_ ∧ _))

open Grammar (binaryOperators literal? closes)

theorem stratified_binaryOperators : Stratified binaryOperators := by
  simp only [binaryOperators, Stratified]
  decide

variable {levels : List (List (Symbol × BinaryOp))} {level : List (Symbol × BinaryOp)} {s : Symbol}
  {t : Token} {op : BinaryOp} {rest : List Token}

theorem Stratified.stopsAt (stratified : Stratified (level :: levels)) (h : (s, op) ∈ level) :
    StopsAt levels (.symbol s) :=
  stratified.2.1 (s, op) h

/-- A symbol stands for one operator at a level. -/
theorem Stratified.operator?_eq (stratified : Stratified (level :: levels)) (h : (s, op) ∈ level) :
    operator? level (.symbol s) = some op := by
  obtain ⟨before, behind, rfl⟩ := List.append_of_mem h
  refine List.lookup_eq_some_iff.2 ⟨before, behind, rfl, fun p hp => ?_⟩
  have distinct := stratified.1
  simp only [List.map_append, List.map_cons, List.nodup_append, List.mem_map,
    List.mem_cons] at distinct
  have other := distinct.2.2 p.1 ⟨p, hp, rfl⟩ s (.inl rfl)
  simpa using fun same => other same.symm

theorem stopsAt_of_ends (h : ends t = true) : StopsAt binaryOperators t := by
  cases t with
  | symbol s =>
    cases s with
    | rightParen | rightBracket | rightBrace | comma | colon => decide
    | _ => cases h
  | _ => cases h

theorem Ends.stops (h : Ends rest) : Stops binaryOperators rest :=
  fun t ht => stopsAt_of_ends (h t ht)

theorem Ends.head?_ne (h : Ends rest) : rest.head? ≠ some (.symbol .question) := by
  intro hq
  cases h _ hq

theorem ends_of_closes {close : Symbol} (h : closes (.symbol close) = true) (rest : List Token) :
    Ends (.symbol close :: rest) := by
  rintro _ ⟨⟩
  cases close with
  | rightParen | rightBracket | rightBrace => rfl
  | _ => cases h

theorem ne_comma_of_closes {close : Symbol} (h : closes (.symbol close) = true) :
    close ≠ .comma := by
  rintro rfl
  cases h

theorem ends_comma (rest : List Token) : Ends (.symbol .comma :: rest) := by
  rintro _ ⟨⟩
  rfl

theorem ends_colon (rest : List Token) : Ends (.symbol .colon :: rest) := by
  rintro _ ⟨⟩
  rfl

variable {operand inner : ExprReader} {ts : List Token} {e e' : Expr} {rest' : List Token}

/-! ## Reading on -/

/-- Goes on behind an expression of the given levels with the operators of the loosest one. -/
def continueChain (operand : ExprReader) :
    List (List (Symbol × BinaryOp)) → Expr → Continuation SyntaxError Token Expr
  | [], e => fun ts => .ok (e, Tail.none ts)
  | level :: levels, e => chain (binary operand levels) level e

theorem gives_continueChain_stop (h : Stops levels rest) :
    Gives (continueChain operand levels e rest) e rest := by
  cases levels with
  | nil => exact gives_ok.2 ⟨rfl, rfl⟩
  | cons level levels =>
    refine (gives_chain_stop fun t ht => ?_).2 ⟨rfl, rfl⟩
    exact (h t ht).2 level List.mem_cons_self

theorem Stops.tail (h : Stops levels rest) : Stops levels.tail rest :=
  fun t ht => ⟨(h t ht).1, fun l hl => (h t ht).2 l (List.mem_of_mem_tail hl)⟩

/-- An operand that nothing goes on with is an expression of all levels. -/
theorem gives_binary_of_operand (h : Gives (operand ts) e rest) :
    ∀ {levels}, Stops levels rest → Gives (binary operand levels ts) e rest
  | [], _ => h
  | _ :: _, stops =>
    gives_binary_cons.2
      ⟨e, rest, gives_binary_of_operand h stops.tail, gives_continueChain_stop stops⟩

theorem Ends.gives_access (ends : Ends rest) : Gives (access inner e rest) e rest :=
  (gives_access_stop fun t ht => (ends.stops t ht).1).2 ⟨rfl, rfl⟩

/-- An operand without prefix operators that nothing goes on with is a conditional,
one level further out. -/
theorem gives_conditional_of_postfixed {room : Nat}
    (h : Gives (postfixed (Parser.levels room).conditional ts) e rest)
    (noOperator : ∀ t ∈ ts.head?, prefixOperator? t = none) (ends : Ends rest) :
    Gives ((Parser.levels (room + 1)).conditional ts) e rest := by
  have unary : Gives ((Parser.levels room).unary ts) e rest := by
    rw [levels_unary, unary_eq_tighter noOperator]
    exact h
  rw [levels_conditional_succ]
  exact gives_ternary.2
    ⟨e, rest, gives_binary_of_operand unary ends.stops, .inl ⟨ends.head?_ne, rfl, rfl⟩⟩

/-- An atom that nothing goes on with is a conditional, one level further out. -/
theorem gives_conditional_of_primary {room : Nat}
    (h : Gives (primary (Parser.levels room).conditional ts) e rest)
    (noOperator : ∀ t ∈ ts.head?, prefixOperator? t = none) (ends : Ends rest) :
    Gives ((Parser.levels (room + 1)).conditional ts) e rest := by
  exact gives_conditional_of_postfixed (gives_postfixed.2 ⟨e, rest, h, ends.gives_access⟩)
    noOperator ends

/-- A call of a name that nothing goes on with is a conditional, one level further out than its
arguments. -/
theorem gives_conditional_of_call {room : Nat} {args : List Expr} (name : String)
    (h : Gives (listed (Parser.levels room).conditional .rightParen ts) args rest)
    (ends : Ends rest) :
    Gives ((Parser.levels (room + 1)).conditional (.ident name :: .symbol .leftParen :: ts))
      (.call name args) rest := by
  have atom : Gives (primary (Parser.levels room).conditional
      (.ident name :: .symbol .leftParen :: ts)) (.var name) (.symbol .leftParen :: ts) :=
    gives_ok.2 ⟨rfl, rfl⟩
  have called := gives_postfixed.2
    ⟨_, _, atom, gives_access_call.2 ⟨args, rest, h, ends.gives_access⟩⟩
  exact gives_conditional_of_postfixed called (by rintro _ ⟨⟩; rfl) ends

theorem gives_primary_literal {v : Value} (h : literal? t = some v) :
    Gives (primary inner (t :: ts)) (.literal v) ts := by
  cases t with
  | keyword word =>
    cases word with
    | true | false | null =>
      obtain rfl := Option.some.inj h
      exact gives_ok.2 ⟨rfl, rfl⟩
  | int | float | text =>
    obtain rfl := Option.some.inj h
    exact gives_ok.2 ⟨rfl, rfl⟩
  | ident | symbol => cases h

end Parser

namespace Grammar

open StepFlow.Parser

/-- Behind a level that is opened there is room for it. -/
theorem LeadsAt.exists_room {k room : Nat} {w : List Placed} (leads : LeadsAt (k + 1) w)
    (within : Within (k + room) w) : ∃ r, room = r + 1 ∧ Within (k + 1 + r) w := by
  have := leads.le within
  refine ⟨room - 1, by omega, ?_⟩
  rwa [show k + 1 + (room - 1) = k + room by omega]

/-- Where a list of placed tokens is taken apart, so is what begins with its tokens. -/
theorem tokens_split (w v : List Placed) (t : Token) (k : Nat) (rest : List Token) :
    tokens (w ++ (t, k) :: v) ++ rest = tokens w ++ t :: (tokens v ++ rest) := by
  simp

theorem LeadsAtom.prefixOperator?_head? {k : Nat} {w : List Placed} (leads : LeadsAtom k w)
    (rest : List Token) : ∀ t ∈ (tokens w ++ rest).head?, prefixOperator? t = none := by
  obtain ⟨t, tail, rfl, -, other⟩ := leads
  rintro _ ⟨⟩
  refine Option.eq_none_iff_forall_ne_some.2 fun op hop => ?_
  obtain ⟨s, ht, isOperator⟩ := prefixOperator?_eq_some_iff.1 hop
  exact other s op isOperator ht

theorem Name.gives {k : Nat} {w : List Placed} {name : String} (h : Name k w name) :
    ∀ {room : Nat}, Within (k + room) w → ∀ rest : List Token,
      Gives (Parser.primary (Parser.levels room).conditional (tokens w ++ rest))
        (.var name) rest := by
  induction h with
  | bare => exact fun _ _ => gives_ok.2 ⟨rfl, rfl⟩
  | @parenthesised k w name inside ih =>
    intro room within rest
    simp only [within_cons, within_append, within_nil] at within
    have leads := inside.leadsAtom
    obtain ⟨room, rfl, further⟩ := leads.leadsAt.exists_room within.2.1
    have read := ih further (.symbol .rightParen :: rest)
    rw [← List.cons_append, tokens_split]
    exact gives_primary_parenthesised.2 (gives_conditional_of_primary read
      (leads.prefixOperator?_head? _) (ends_of_closes rfl rest))

mutual

/-- A conditional is read up to what ends it. -/
theorem Conditional.gives {k : Nat} {w : List Placed} {e : Expr} :
    Conditional k w e → ∀ {room : Nat}, Within (k + room) w → ∀ rest : List Token, Ends rest →
      Gives ((Parser.levels room).conditional (tokens w ++ rest)) e rest
  | .plain chain, room, within, rest, ends => by
    obtain ⟨room, rfl, further⟩ := chain.leadsAt.exists_room within
    have condition := chain.gives stratified_binaryOperators further ends.stops.tail
      (gives_continueChain_stop ends.stops)
    rw [levels_conditional_succ]
    exact gives_ternary.2 ⟨e, rest, condition, .inl ⟨ends.head?_ne, rfl, rfl⟩⟩
  | @Conditional.choice _ w y n condition yes no chain whenTrue whenFalse, room, within, rest,
      ends => by
    obtain ⟨room, rfl, further⟩ := (chain.leadsAt.append _).exists_room within
    simp only [within_append, within_cons] at further
    obtain ⟨withinChain, -, withinYes, -, withinNo⟩ := further
    have stops : Stops binaryOperators
        (.symbol .question :: (tokens y ++ .symbol .colon :: (tokens n ++ rest))) := by
      rintro _ ⟨⟩
      decide
    have readCondition := chain.gives stratified_binaryOperators withinChain stops.tail
      (gives_continueChain_stop stops)
    have readYes := whenTrue.gives withinYes (.symbol .colon :: (tokens n ++ rest)) (ends_colon _)
    have readNo := whenFalse.gives withinNo rest ends
    rw [levels_conditional_succ]
    rw [tokens_split, tokens_split]
    exact gives_ternary.2 ⟨condition, _, readCondition,
      .inr ⟨_, yes, _, no, rfl, readYes, readNo, rfl⟩⟩

/-- A chain is read up to where it is continued. -/
theorem Binary.gives {k : Nat} {levels : List (List (Symbol × BinaryOp))} {w : List Placed}
    {e : Expr} :
    Binary k levels w e → Stratified levels →
      ∀ {room : Nat} {rest rest' : List Token} {e' : Expr}, Within (k + room) w →
        Stops levels.tail rest →
        Gives (continueChain (Parser.levels room).unary levels e rest) e' rest' →
          Gives (binary (Parser.levels room).unary levels (tokens w ++ rest)) e' rest'
  | .operand unary, _, room, rest, rest', e', within, stops, more => by
    obtain ⟨rfl, rfl⟩ := gives_ok.1 more
    exact unary.gives within rest fun t ht => (stops t ht).1
  | .tighter chain, stratified, room, rest, rest', e', within, stops, more => by
    have read := chain.gives stratified.2.2 within stops.tail (gives_continueChain_stop stops)
    exact gives_binary_cons.2 ⟨_, _, read, more⟩
  | @Binary.operator _ level levels l r s op left right before isOperator behind, stratified, room,
      rest, rest', e', within, stops, more => by
    simp only [within_append, within_cons] at within
    have here : Stops levels (.symbol s :: (tokens r ++ rest)) := by
      rintro _ ⟨⟩
      exact stratified.stopsAt isOperator
    have readRight := behind.gives stratified.2.2 within.2.2 stops.tail
      (gives_continueChain_stop stops)
    have read := before.gives stratified within.1 here
      ((gives_chain_cons (stratified.operator?_eq isOperator)).2 ⟨right, rest, readRight, more⟩)
    rw [tokens_split]
    exact read

/-- Prefix operators with their operand are read up to what does not go on with it. -/
theorem Unary.gives {k : Nat} {w : List Placed} {e : Expr} :
    Unary k w e → ∀ {room : Nat}, Within (k + room) w → ∀ rest : List Token,
      (∀ t ∈ rest.head?, goesOn t = false) →
        Gives ((Parser.levels room).unary (tokens w ++ rest)) e rest
  | .operand postfixed, room, within, rest, stops => by
    have read := postfixed.gives within ((gives_access_stop stops).2 ⟨rfl, rfl⟩)
    rw [levels_unary, unary_eq_tighter (postfixed.leadsAtom.prefixOperator?_head? rest)]
    exact read
  | .operator isOperator behind, room, within, rest, stops => by
    obtain ⟨room, rfl, further⟩ := behind.leadsAt.exists_room (within_cons.1 within).2
    rw [levels_unary]
    have taken := prefixOperator?_eq_some_iff.2 ⟨_, rfl, isOperator⟩
    exact (gives_unary_operator taken).2 ⟨_, behind.gives further rest stops, rfl⟩

/-- An atom with what follows it is read up to where it is continued. -/
theorem Postfix.gives {k : Nat} {w : List Placed} {e : Expr} :
    Postfix k w e → ∀ {room : Nat} {rest rest' : List Token} {e' : Expr}, Within (k + room) w →
      Gives (access (Parser.levels room).conditional e rest) e' rest' →
        Gives (postfixed (Parser.levels room).conditional (tokens w ++ rest)) e' rest'
  | .atom primary, room, rest, rest', e', within, more =>
    gives_postfixed.2 ⟨_, _, primary.gives within rest, more⟩
  | .member object, room, rest, rest', e', within, more => by
    have read := object.gives (within_append.1 within).1
      (gives_access_dot.2 ⟨_, rest, gives_memberName.2 (.inl rfl), more⟩)
    rw [tokens_split]
    exact read
  | .item object, room, rest, rest', e', within, more => by
    have read := object.gives (within_append.1 within).1
      (gives_access_dot.2 ⟨_, rest, gives_memberName.2 (.inr ⟨_, rfl, rfl⟩), more⟩)
    rw [tokens_split]
    exact read
  | .index object inside, room, rest, rest', e', within, more => by
    simp only [within_append, within_cons] at within
    have position := inside.gives within.2.2.1 (.symbol .rightBracket :: rest)
      (ends_of_closes rfl rest)
    have read := object.gives within.1 (gives_access_bracket.2 ⟨_, rest, position, more⟩)
    rw [tokens_split, tokens_split]
    exact read
  | @Postfix.call _ _ a _ _ called inside, room, rest, rest', e', within, more => by
    simp only [within_append, within_cons] at within
    have args := inside.gives rfl within.2.2 rest
    have name := called.gives within.1 (.symbol .leftParen :: (tokens a ++ rest))
    have read := gives_postfixed.2 ⟨_, _, name, gives_access_call.2 ⟨_, rest, args, more⟩⟩
    rw [tokens_split]
    exact read

/-- An atom is read up to its end, whatever comes behind it. -/
theorem Primary.gives {k : Nat} {w : List Placed} {e : Expr} :
    Primary k w e → ∀ {room : Nat}, Within (k + room) w → ∀ rest : List Token,
      Gives (Parser.primary (Parser.levels room).conditional (tokens w ++ rest)) e rest
  | .literal isLiteral, _, _, _ => gives_primary_literal isLiteral
  | .var _ _, _, _, _ => gives_ok.2 ⟨rfl, rfl⟩
  | .parenthesised inside, room, within, rest => by
    simp only [within_cons, within_append] at within
    have read := inside.gives within.2.1 (.symbol .rightParen :: rest) (ends_of_closes rfl rest)
    rw [← List.cons_append, tokens_split]
    exact gives_primary_parenthesised.2 read
  | .list inside, room, within, rest =>
    gives_primary_list.2 ⟨_, inside.gives rfl (within_cons.1 within).2 rest, rfl⟩
  | .map inside, room, within, rest =>
    gives_primary_map.2 ⟨_, inside.gives (within_cons.1 within).2 rest, rfl⟩

/-- A list of expressions is read up to the bracket that closes it. -/
theorem Items.gives {k : Nat} {close : Symbol} {w : List Placed} {es : List Expr} :
    Items k close w es → closes (.symbol close) = true →
      ∀ {room : Nat}, Within (k + room) w → ∀ rest : List Token,
        Gives (listed (Parser.levels room).conditional close (tokens w ++ rest)) es rest
  | .none _ _, _, _, _, _ => gives_listed.2 (.inl ⟨rfl, rfl⟩)
  | .some items, closing, _, within, rest =>
    gives_listed.2 (.inr ⟨items.leadsAt.head?_ne closing rest, items.gives closing within rest⟩)

theorem SomeItems.gives {k : Nat} {close : Symbol} {w : List Placed} {es : List Expr} :
    SomeItems k close w es → closes (.symbol close) = true →
      ∀ {room : Nat}, Within (k + room) w → ∀ rest : List Token,
        Gives (listed.more (Parser.levels room).conditional close (tokens w ++ rest)) es rest
  | .last item, closing, _, within, rest => by
    have read := item.gives (within_append.1 within).1 (.symbol close :: rest)
      (ends_of_closes closing rest)
    rw [tokens_split]
    exact (gives_more (ne_comma_of_closes closing)).2 ⟨_, _, read, .inl ⟨rfl, rfl⟩⟩
  | @SomeItems.cons _ _ _ r _ _ item others, closing, room, within, rest => by
    simp only [within_append, within_cons] at within
    have readOthers := others.gives closing within.2.2 rest
    have read := item.gives within.1 (.symbol .comma :: (tokens r ++ rest)) (ends_comma _)
    rw [tokens_split]
    exact (gives_more (ne_comma_of_closes closing)).2
      ⟨_, _, read, .inr ⟨_, _, rfl, readOthers, rfl⟩⟩

/-- A list of entries is read up to the brace that closes it. -/
theorem Entries.gives {k : Nat} {w : List Placed} {es : List (Expr × Expr)} :
    Entries k w es → ∀ {room : Nat}, Within (k + room) w → ∀ rest : List Token,
      Gives (listed (entry (Parser.levels room).conditional) .rightBrace (tokens w ++ rest)) es rest
  | .none _, _, _, _ => gives_listed.2 (.inl ⟨rfl, rfl⟩)
  | .some entries, room, within, rest => by
    obtain ⟨_, leads⟩ := entries.leadsAt
    exact gives_listed.2 (.inr ⟨leads.head?_ne rfl rest, entries.gives within rest⟩)

theorem SomeEntries.gives {k : Nat} {w : List Placed} {es : List (Expr × Expr)} :
    SomeEntries k w es → ∀ {room : Nat}, Within (k + room) w → ∀ rest : List Token,
      Gives (listed.more (entry (Parser.levels room).conditional) .rightBrace (tokens w ++ rest))
        es rest
  | .last entry, _, within, rest => by
    have read := entry.gives (within_append.1 within).1 (.symbol .rightBrace :: rest)
      (ends_of_closes rfl rest)
    rw [tokens_split]
    exact (gives_more (by decide)).2 ⟨_, _, read, .inl ⟨rfl, rfl⟩⟩
  | @SomeEntries.cons _ _ r _ _ entry others, room, within, rest => by
    simp only [within_append, within_cons] at within
    have readOthers := others.gives within.2.2 rest
    have read := entry.gives within.1 (.symbol .comma :: (tokens r ++ rest)) (ends_comma _)
    rw [tokens_split]
    exact (gives_more (by decide)).2 ⟨_, _, read, .inr ⟨_, _, rfl, readOthers, rfl⟩⟩

theorem Entry.gives {k : Nat} {w : List Placed} {e : Expr × Expr} :
    Entry k w e → ∀ {room : Nat}, Within (k + room) w → ∀ rest : List Token, Ends rest →
      Gives (Parser.entry (Parser.levels room).conditional (tokens w ++ rest)) e rest
  | @Entry.mk _ _ v _ _ keyed valued, room, within, rest, ends => by
    simp only [within_append, within_cons] at within
    have readKey := keyed.gives within.1 (.symbol .colon :: (tokens v ++ rest)) (ends_colon _)
    have readValue := valued.gives within.2.2 rest ends
    rw [tokens_split]
    exact gives_entry.2 ⟨_, _, _, readKey, readValue, rfl⟩

theorem Key.gives {k : Nat} {w : List Placed} {e : Expr} :
    Key k w e → ∀ {room : Nat}, Within (k + room) w → ∀ rest : List Token, Ends rest →
      Gives (Parser.key (Parser.levels room).conditional (tokens w ++ rest)) e rest
  | .name _ name, _, _, _, _ => gives_key.2 (.inl ⟨name, rfl, rfl⟩)
  | .expression conditional noName, room, within, rest, ends => by
    refine gives_key.2 (.inr ⟨fun name hname => noName name ?_, conditional.gives within rest ends⟩)
    obtain ⟨t, tail, rfl, -⟩ := conditional.leadsAt
    exact hname

end

end Grammar

end StepFlow
