import StepFlow.Nested
import StepFlow.Proofs.Template.Blocks
import StepFlow.Proofs.Template.Interpolation

/-!
# How far a block of a template reaches

The blocks of a template are pasted, in parentheses, into the call that joins its pieces. Only
braces and quotes are matched when a block is found. So a block may close the parenthesis put in
front of it and open another one for the parenthesis behind it: then it is read as it would not be
by itself, and may even hold several arguments of the call.

This is the only way out. The lexemes of a block are its own, and as long as it closes no
parenthesis but those it opens, it is an argument by itself or the template is no expression.
-/

namespace StepFlow

namespace Template

open Grammar (ClosesOwn ParensMatch Conditional SomeItems isCalled tokens)
open Lexer (Lexes taken scan)

variable {c : Char} {cs rest : List Char} {piece : Piece} {pieces : List Piece} {t : Token}
  {ts us : List Token} {e : Expr}

/-! ## The tokens of the pieces -/

theorem exists_lexes_of_symbol {symbol : Symbol} (noBlank : Lexer.isBlank c = false)
    (first : taken (scan c rest) = .ok (.symbol symbol, rest)) (h : Lexes (c :: rest) us) :
    ∃ ts, us = .symbol symbol :: ts ∧ Lexes rest ts := by
  cases h with
  | blank isBlank =>
    rw [noBlank] at isBlank
    cases isBlank
  | lexeme _ first' behind =>
    rw [first] at first'
    cases first'
    exact ⟨_, rfl, behind⟩

theorem lexes_of_blank (isBlank : Lexer.isBlank c = true) (h : Lexes (c :: rest) us) :
    Lexes rest us := by
  cases h with
  | blank _ behind => exact behind
  | lexeme noBlank =>
    rw [isBlank] at noBlank
    cases noBlank

/-- The tokens of pieces pasted together, from behind the opening parenthesis of the call
to the closing one. -/
inductive Pasted : List Piece → List Token → Prop
  | last {piece : Piece} {ts : List Token} (lexed : Lexes piece.source ts) :
    Pasted [piece] (ts ++ [.symbol .rightParen])
  | cons {piece : Piece} {pieces : List Piece} {ts us : List Token} (lexed : Lexes piece.source ts)
    (others : Pasted pieces us) : Pasted (piece :: pieces) (ts ++ .symbol .comma :: us)

/-- The search gets behind every block among some pieces. -/
def PassedBlocks (pieces : List Piece) : Prop :=
  ∀ cs, .block cs ∈ pieces → Passed 0 cs

theorem passedBlocks_of_pieces? {s : String} (h : pieces? s.toList = some pieces) :
    PassedBlocks pieces := by
  intro cs hcs
  obtain ⟨_, _, _, -, ⟨balanced, -⟩ | ⟨through, -⟩⟩ := split_of_mem_pieces h hcs
  · exact balanced.passed
  · exact ⟨maxInner, through⟩

theorem Piece.passed_source (h : ∀ cs, piece = .block cs → Passed 0 cs) :
    Passed 0 piece.source := by
  cases piece with
  | literal cs => exact (balanced_quoteLiteral _ 0).passed
  | block cs =>
    obtain ⟨depth, through⟩ : Passed 0 (cs ++ [')']) :=
      (h cs rfl).append (balanced_plain (by decide))
    have left : Balanced 0 ['('] := balanced_plain (by decide) 0
    exact ⟨depth, (run_append_of left _).trans through⟩

theorem PassedBlocks.head (h : PassedBlocks (piece :: pieces)) : Passed 0 piece.source :=
  Piece.passed_source fun cs hcs => h cs (hcs ▸ List.mem_cons_self)

theorem PassedBlocks.tail (h : PassedBlocks (piece :: pieces)) : PassedBlocks pieces :=
  fun cs hcs => h cs (List.mem_cons_of_mem _ hcs)

theorem pasted_of_lexes (passed : PassedBlocks pieces) (hne : pieces ≠ [])
    (h : Lexes ([',', ' '].intercalate (pieces.map Piece.source) ++ [')']) us) :
    Pasted pieces us := by
  induction pieces generalizing us with
  | nil => exact (hne rfl).elim
  | cons piece others ih =>
    cases others with
    | nil =>
      have alone : Lexes (piece.source ++ ')' :: []) us := by simpa [List.intercalate] using h
      obtain ⟨ts, us', rfl, lexed, behind⟩ := passed.head.exists_lexes (by decide) alone rfl
      obtain ⟨_, rfl, nothing⟩ := exists_lexes_of_symbol rfl rfl behind
      cases nothing
      exact .last lexed
    | cons second others =>
      rw [List.map_cons, List.map_cons, List.intercalate_cons_cons] at h
      simp only [List.append_assoc, List.cons_append, List.nil_append] at h
      obtain ⟨ts, us', rfl, lexed, behind⟩ := passed.head.exists_lexes (by decide) h rfl
      obtain ⟨us, rfl, spaced⟩ := exists_lexes_of_symbol rfl rfl behind
      exact .cons lexed (ih passed.tail (by simp) (lexes_of_blank rfl spaced))

/-- The tokens of the call are those of its pieces. -/
theorem exists_pasted (passed : PassedBlocks pieces) (hne : pieces ≠ [])
    (h : Lexes (joinSource pieces) us) :
    ∃ ts, us = .ident "concat" :: .symbol .leftParen :: ts ∧ Pasted pieces ts := by
  have source : joinSource pieces = "concat(".toList ++
      ([',', ' '].intercalate (pieces.map Piece.source) ++ [')']) := List.append_assoc _ _ _
  have opening : "concat(".toList = "concat".toList ++ ['('] := by decide
  have name : Balanced 0 "concat".toList := balanced_of_plain (by simp [IsDelimiter]) 0
  have call : Lexes ("concat".toList ++ '(' ::
      ([',', ' '].intercalate (pieces.map Piece.source) ++ [')'])) us := by
    rwa [source, opening, List.append_assoc, List.singleton_append] at h
  obtain ⟨ts, us', rfl, lexed, behind⟩ := name.passed.exists_lexes (by decide) call rfl
  obtain ⟨us, rfl, args⟩ := exists_lexes_of_symbol rfl rfl behind
  have ident : Lexes "concat".toList [.ident "concat"] := .lexeme rfl rfl .nil
  rw [lexed.unique ident]
  exact ⟨us, rfl, pasted_of_lexes passed hne args⟩

theorem eq_of_lexes_literal (h : Lexes (Piece.literal cs).source ts) :
    ts = [.text (String.ofList (unescapeChars cs))] := by
  have quoted := lexes_quoteLiteral (unescapeChars cs) Lexes.nil
  rw [List.append_nil] at quoted
  exact h.unique quoted

theorem exists_lexes_of_block (passed : Passed 0 cs) (h : Lexes (Piece.block cs).source ts) :
    ∃ us, ts = .symbol .leftParen :: (us ++ [.symbol .rightParen]) ∧ Lexes cs us := by
  rw [Piece.source, List.append_assoc] at h
  obtain ⟨ts, rfl, inside⟩ := exists_lexes_of_symbol rfl rfl h
  obtain ⟨us, ts', rfl, lexed, behind⟩ := passed.exists_lexes (by decide) inside rfl
  obtain ⟨_, rfl, nothing⟩ := exists_lexes_of_symbol rfl rfl behind
  cases nothing
  exact ⟨us, rfl, lexed⟩

/-- A block stands between its parentheses, and these open no arguments. -/
theorem Pasted.exists_split (h : Pasted pieces us) (passed : PassedBlocks pieces)
    (hm : .block cs ∈ pieces) (ht : isCalled t = false) :
    ∃ front t' ts post, t :: us =
        front ++ t' :: .symbol .leftParen :: (ts ++ .symbol .rightParen :: post) ∧
      isCalled t' = false ∧ Lexes cs ts := by
  induction h generalizing t with
  | last lexed =>
    obtain rfl := List.mem_singleton.1 hm
    obtain ⟨ts, rfl, inside⟩ := exists_lexes_of_block (passed _ List.mem_cons_self) lexed
    exact ⟨[], t, ts, [.symbol .rightParen], by simp, ht, inside⟩
  | @cons piece pieces ts us lexed others ih =>
    rcases List.mem_cons.1 hm with rfl | hm
    · obtain ⟨ts, rfl, inside⟩ := exists_lexes_of_block (passed _ List.mem_cons_self) lexed
      exact ⟨[], t, ts, .symbol .comma :: us, by simp, ht, inside⟩
    · obtain ⟨front, t', inner, post, hus, ht', inside⟩ :=
        ih passed.tail hm (t := .symbol .comma) rfl
      refine ⟨t :: (ts ++ front), t', inner, post, ?_, ht', inside⟩
      rw [hus]
      simp

/-! ## Matching parentheses -/

/-- What holds of the tokens of a block, if it has tokens. -/
def OfTokens (p : List Token → Prop) (cs : List Char) : Prop :=
  ∀ ts, Lexer.tokenize (String.ofList cs) = .ok ts → p ts

instance (p : List Token → Prop) [DecidablePred p] (cs : List Char) : Decidable (OfTokens p cs) :=
  match h : Lexer.tokenize (String.ofList cs) with
  | .ok ts => decidable_of_iff (p ts)
    ⟨fun hp _ h' => Except.ok.inj (h.symm.trans h') ▸ hp, fun hp => hp ts h⟩
  | .error _ => isTrue fun _ h' => by
    rw [h] at h'
    cases h'

/-- A block closes no parenthesis but those that it opens. -/
def Contained (cs : List Char) : Prop := OfTokens ClosesOwn cs

/-- A block closes the parentheses that it opens, and no others. -/
def Enclosed (cs : List Char) : Prop := OfTokens ParensMatch cs

instance (cs : List Char) : Decidable (Contained cs) := inferInstanceAs (Decidable (OfTokens _ _))

instance (cs : List Char) : Decidable (Enclosed cs) := inferInstanceAs (Decidable (OfTokens _ _))

theorem tokenize_of_lexes (h : Lexes cs ts) : Lexer.tokenize (String.ofList cs) = .ok ts :=
  Lexer.tokenize_eq_ok.2 (by rwa [String.toList_ofList])

/-- A piece closes no more parentheses than it opens if its block is contained; if it closes as
many, then its block is enclosed. -/
theorem count_of_lexes (passed : PassedBlocks [piece])
    (contained : ∀ cs, piece = .block cs → Contained cs) (h : Lexes piece.source ts) :
    ts.count (.symbol .rightParen) ≤ ts.count (.symbol .leftParen) ∧
      (ts.count (.symbol .rightParen) = ts.count (.symbol .leftParen) →
        ∀ cs, piece = .block cs → Enclosed cs) := by
  cases piece with
  | literal cs =>
    rw [eq_of_lexes_literal h]
    exact ⟨by simp, fun _ _ hcs => by cases hcs⟩
  | block cs =>
    obtain ⟨us, rfl, inside⟩ := exists_lexes_of_block (passed cs (by simp)) h
    have own := contained cs rfl us (tokenize_of_lexes inside)
    have whole := own us.length
    rw [List.take_length] at whole
    have counts (s : Symbol) :
        (Token.symbol .leftParen :: (us ++ [.symbol .rightParen])).count (.symbol s) =
          us.count (.symbol s) + [Token.symbol .leftParen, .symbol .rightParen].count
            (.symbol s) := by
      simp only [List.count_cons, List.count_append, List.count_nil]
      omega
    rw [counts, counts]
    refine ⟨Nat.add_le_add_right whole 1, fun same cs' hcs ts lexed => ?_⟩
    cases hcs
    rw [tokenize_of_lexes inside] at lexed
    cases lexed
    exact ⟨own, Nat.add_right_cancel same⟩

/-- Contained blocks leave the parenthesis of the call open, unless they are all enclosed. -/
theorem Pasted.count_le (h : Pasted pieces us) (passed : PassedBlocks pieces)
    (contained : ∀ cs, .block cs ∈ pieces → Contained cs) :
    us.count (.symbol .rightParen) ≤ us.count (.symbol .leftParen) + 1 ∧
      (us.count (.symbol .rightParen) = us.count (.symbol .leftParen) + 1 →
        ∀ cs, .block cs ∈ pieces → Enclosed cs) := by
  induction h with
  | last lexed =>
    obtain ⟨le, enclosed⟩ :=
      count_of_lexes passed (fun cs hcs => contained cs (by simp [hcs])) lexed
    simp only [List.count_append, List.count_singleton_self, List.mem_singleton]
    refine ⟨by simpa using le, fun same cs hcs => enclosed ?_ cs hcs.symm⟩
    simpa using same
  | @cons piece pieces ts us lexed others ih =>
    have first : PassedBlocks [piece] := fun cs hcs =>
      passed cs (List.mem_cons.2 (.inl (List.mem_singleton.1 hcs)))
    obtain ⟨le, enclosed⟩ := count_of_lexes first (fun cs hcs => contained cs (by simp [hcs])) lexed
    obtain ⟨le', enclosed'⟩ :=
      ih passed.tail fun cs hcs => contained cs (List.mem_cons_of_mem _ hcs)
    have notOpen : Token.symbol .comma ≠ .symbol .leftParen := by decide
    have notClose : Token.symbol .comma ≠ .symbol .rightParen := by decide
    simp only [List.count_append, List.count_cons_of_ne notOpen, List.count_cons_of_ne notClose]
    refine ⟨by omega, fun same cs hcs => ?_⟩
    rcases List.mem_cons.1 hcs with hcs | hcs
    · exact enclosed (by omega) cs hcs.symm
    · exact enclosed' (by omega) cs hcs

/-! ## The call of a template -/

/-- The tree that a piece has by itself. -/
def Piece.StandsFor : Piece → Expr → Prop
  | .literal cs, e => e = .literal (.string (String.ofList (unescapeChars cs)))
  | .block cs, e => Parser.parse (String.ofList cs) = .ok e

theorem standsFor_of_parse {source : String} (h : Parser.parse source = .ok e) :
    ∃ w, Lexes source.toList (tokens w) ∧ Conditional 0 w e ∧ Grammar.Within maxDepth w ∧
      e.height ≤ maxDepth := by
  obtain ⟨w, hw, derived, within, depth⟩ := Parser.parse_eq_ok_iff.1 h
  rw [Expr.depth_eq_height] at depth
  exact ⟨w, Lexer.tokenize_eq_ok.1 hw, derived, within, depth⟩

/-- An enclosed block of a template that is an expression is one by itself. -/
theorem exists_parse_of_enclosed (passed : PassedBlocks pieces)
    (parsed : Parser.parse (String.ofList (joinSource pieces)) = .ok e)
    (hm : .block cs ∈ pieces) (enclosed : Enclosed cs) :
    ∃ e', Parser.parse (String.ofList cs) = .ok e' := by
  obtain ⟨w, lexed, derived, within, height⟩ := standsFor_of_parse parsed
  rw [String.toList_ofList] at lexed
  obtain ⟨us, hus, pasted⟩ := exists_pasted passed (List.ne_nil_of_mem hm) lexed
  obtain ⟨front, t, ts, post, split, ht, inside⟩ :=
    pasted.exists_split passed hm (t := .symbol .leftParen) rfl
  have split' : tokens w = (.ident "concat" :: front ++ [t]) ++
      .symbol .leftParen :: (ts ++ .symbol .rightParen :: post) := by
    rw [hus, split]
    simp
  have tokenized := tokenize_of_lexes inside
  obtain ⟨l, v, e', hv, derived', height', sub⟩ :=
    derived.exists_inside split' (by simpa [List.getLast?_cons] using ht) (enclosed ts tokenized)
  have within' : Grammar.Within maxDepth v := fun p hp => within p (sub hp)
  obtain ⟨v', hv', placed, moved⟩ := derived'.exists_at within' 0
  refine ⟨e', Parser.parse_eq_ok_iff.2 ⟨v', ?_, placed, moved.mono (by omega), ?_⟩⟩
  · rw [hv', hv, tokenized]
  · rw [Expr.depth_eq_height]
    omega

/-- Pieces that stand for trees by themselves derive them as the arguments of the call. -/
theorem Pasted.exists_items (h : Pasted pieces us) (passed : PassedBlocks pieces)
    (accepted : ∀ cs, .block cs ∈ pieces → ∃ e, Parser.parse (String.ofList cs) = .ok e) :
    ∃ w es, tokens w = us ∧ SomeItems 1 .rightParen w es ∧
      List.Forall₂ Piece.StandsFor pieces es := by
  have argument {piece : Piece} {ts : List Token} (lexed : Lexes piece.source ts)
      (hb : ∀ cs, piece = .block cs → Passed 0 cs)
      (accepted : ∀ cs, piece = .block cs → ∃ e, Parser.parse (String.ofList cs) = .ok e) :
      ∃ w e, tokens w = ts ∧ Conditional 1 w e ∧ piece.StandsFor e := by
    cases piece with
    | literal cs =>
      rw [eq_of_lexes_literal lexed]
      exact ⟨[(_, 2)], _, rfl, (Grammar.Postfix.atom (.literal rfl)).conditional, rfl⟩
    | block cs =>
      obtain ⟨us, rfl, inside⟩ := exists_lexes_of_block (hb cs rfl) lexed
      obtain ⟨e, parsed⟩ := accepted cs rfl
      obtain ⟨w, hw, derived, within, -⟩ := standsFor_of_parse parsed
      rw [String.toList_ofList] at hw
      obtain ⟨v, hv, moved, -⟩ := derived.exists_at within 2
      refine ⟨(.symbol .leftParen, 2) :: (v ++ [(.symbol .rightParen, 2)]), e, ?_, ?_, parsed⟩
      · simp [hv, hw.unique inside]
      · exact (Grammar.Postfix.atom (.parenthesised moved)).conditional
  induction h with
  | last lexed =>
    obtain ⟨w, e, rfl, item, stands⟩ := argument lexed (fun cs hcs => passed cs (by simp [hcs]))
      fun cs hcs => accepted cs (by simp [hcs])
    exact ⟨_, [e], by simp, .last item, .cons stands .nil⟩
  | cons lexed _ ih =>
    obtain ⟨w, e, rfl, item, stands⟩ := argument lexed (fun cs hcs => passed cs (by simp [hcs]))
      fun cs hcs => accepted cs (by simp [hcs])
    obtain ⟨w', es, rfl, items, others⟩ :=
      ih passed.tail fun cs hcs => accepted cs (List.mem_cons_of_mem _ hcs)
    exact ⟨_, e :: es, by simp, .cons item items, .cons stands others⟩

/-- The parentheses of a derivation match, so contained blocks are all enclosed. -/
theorem enclosed_of_contained (passed : PassedBlocks pieces)
    (contained : ∀ cs, .block cs ∈ pieces → Contained cs)
    (parsed : Parser.parse (String.ofList (joinSource pieces)) = .ok e) :
    ∀ cs, .block cs ∈ pieces → Enclosed cs := by
  intro cs hm
  obtain ⟨w, lexed, derived, -⟩ := standsFor_of_parse parsed
  rw [String.toList_ofList] at lexed
  obtain ⟨us, hus, pasted⟩ := exists_pasted passed (List.ne_nil_of_mem hm) lexed
  have all := (derived.bracketed (Nat.le_refl _)).parensMatch.all
  rw [hus] at all
  exact (pasted.count_le passed contained).2 (by simpa [List.count_cons] using all) cs hm

/-- If the blocks of a template are expressions by themselves and the template is one, then it is
the call of its pieces. -/
theorem exists_call (passed : PassedBlocks pieces) (hne : pieces ≠ [])
    (accepted : ∀ cs, .block cs ∈ pieces → ∃ e, Parser.parse (String.ofList cs) = .ok e)
    (parsed : Parser.parse (String.ofList (joinSource pieces)) = .ok e) :
    ∃ es, e = .call "concat" es ∧ List.Forall₂ Piece.StandsFor pieces es := by
  obtain ⟨w, lexed, derived, -⟩ := standsFor_of_parse parsed
  rw [String.toList_ofList] at lexed
  obtain ⟨us, hus, pasted⟩ := exists_pasted passed hne lexed
  obtain ⟨w', es, hw', items, stands⟩ := pasted.exists_items passed accepted
  have call := (Grammar.Postfix.call (.bare 1 "concat") (.some items)).conditional
  refine ⟨es, derived.unique call ?_, stands⟩
  rw [hus]
  simp [hw']

/-- A template is the call of its pieces. -/
theorem source?_of_pieces? {s : String} (h : pieces? s.toList = some pieces)
    (several : ∀ cs, pieces ≠ [.block cs]) :
    source? s =
      if pieces.any Piece.isBlock then some (String.ofList (joinSource pieces)) else none := by
  rw [source?, h]
  split
  · next cs hcs => exact (several cs (Option.some.inj hcs)).elim
  · next hfound =>
    cases hfound
    rfl
  · next hnone => cases hnone

/-- A template with a block that is not accepted by itself evaluates to nothing, if the
parentheses of that block match or no block closes a parenthesis that it did not open. In the
second case a template that is an expression is the call of its pieces, each standing for what it
stands for by itself. -/
theorem template_blocks_contained {s : String} {pieces : List Piece}
    (template : pieces? s.toList = some pieces) (several : ∀ cs, pieces ≠ [.block cs]) :
    (∀ cs, .block cs ∈ pieces → (∀ e, Parser.parse (String.ofList cs) ≠ .ok e) →
      Enclosed cs ∨ (∀ other, .block other ∈ pieces → Contained other) →
      ∀ look, (∀ shape, (ExprOr.ofDocument shape (.string s)).evaluate look = none) ∧
        Nested.evaluate look (.string s) = .null) ∧
    ((∀ cs, .block cs ∈ pieces → Contained cs) → ∀ source e, source? s = some source →
      Parser.parse source = .ok e →
      ∃ es, e = .call "concat" es ∧ List.Forall₂ Piece.StandsFor pieces es) := by
  have passed : PassedBlocks pieces := passedBlocks_of_pieces? template
  refine ⟨?_, ?_⟩
  · intro cs hm refused parens look
    have source : source? s = some (String.ofList (joinSource pieces)) := by
      rw [source?_of_pieces? template several, if_pos (List.any_eq_true.2 ⟨_, hm, rfl⟩)]
    have nothing : StepFlow.evaluate look (String.ofList (joinSource pieces)) = none := by
      rw [StepFlow.evaluate, tryEvaluate]
      cases parsed : Parser.parse (String.ofList (joinSource pieces)) with
      | error error => rfl
      | ok e =>
        have enclosed : Enclosed cs :=
          parens.elim id fun contained => enclosed_of_contained passed contained parsed cs hm
        obtain ⟨e', accepted⟩ := exists_parse_of_enclosed passed parsed hm enclosed
        exact (refused e' accepted).elim
    refine ⟨fun shape => ?_, ?_⟩
    · rw [ExprOr.ofDocument, ExprOr.ofValue?, ExprOr.source?, source]
      exact congrArg (Option.bind · shape.ofValue?) nothing
    · rw [Nested.evaluate, Nested.evaluateText, source]
      exact congrArg (Option.getD · Value.null) nothing
  · intro contained source e hsource parsed
    rw [source?_of_pieces? template several] at hsource
    split at hsource
    · next blocks =>
      cases hsource
      have hne : pieces ≠ [] := by
        rintro rfl
        cases blocks
      have enclosed := enclosed_of_contained passed contained parsed
      refine exists_call passed hne (fun cs hm => ?_) parsed
      exact exists_parse_of_enclosed passed parsed hm (enclosed cs hm)
    · cases hsource

/-- A block that closes the parenthesis in front of it is read with what the template puts around
it: as an operator between two parentheses, or as two arguments. By itself it is no expression. -/
theorem uncontained_blocks_evaluate :
    (pieces? "x@\x7b1)+(2\x7d".toList = some [.literal ['x'], .block "1)+(2".toList] ∧
      (Parser.parse "1)+(2").isOk = false ∧
      Nested.evaluate Bindings.none (.string "x@\x7b1)+(2\x7d") = .string "x3") ∧
    pieces? "x@\x7b1), (2\x7d".toList = some [.literal ['x'], .block "1), (2".toList] ∧
      (Parser.parse "1), (2").isOk = false ∧
      Nested.evaluate Bindings.none (.string "x@\x7b1), (2\x7d") = .string "x12" := by
  refine ⟨⟨?_, ?_, ?_⟩, ?_, ?_, ?_⟩
  all_goals decide +kernel

/-- A parenthesis that one block opens and a block behind it might have closed stays open. -/
theorem template_blocks_contained_open :
    pieces? "n@\x7bf(\x7d@\x7b1 +\x7d".toList =
        some [.literal ['n'], .block "f(".toList, .block "1 +".toList] ∧
      ∀ look, Nested.evaluate look (.string "n@\x7bf(\x7d@\x7b1 +\x7d") = .null := by
  have template : pieces? "n@\x7bf(\x7d@\x7b1 +\x7d".toList =
      some [.literal ['n'], .block "f(".toList, .block "1 +".toList] := by decide +kernel
  refine ⟨template, fun look => ?_⟩
  have refused : ∀ e, Parser.parse (String.ofList "f(".toList) ≠ .ok e := by
    intro e parsed
    have error : (Parser.parse (String.ofList "f(".toList)).isOk = false := by decide +kernel
    rw [parsed] at error
    cases error
  have contained : ∀ other,
      .block other ∈ [Piece.literal ['n'], .block "f(".toList, .block "1 +".toList] →
        Contained other := by
    intro other hm
    have hother : other = "f(".toList ∨ other = "1 +".toList := by simpa using hm
    obtain rfl | rfl := hother
    · decide +kernel
    · decide +kernel
  obtain ⟨nothing, -⟩ := template_blocks_contained template (by simp)
  exact (nothing "f(".toList (by simp) refused (.inr contained) look).2

end Template

end StepFlow
