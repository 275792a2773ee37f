import StepFlow.Proofs.Expression.Completeness
import StepFlow.Proofs.Expression.Soundness

/-!
# Parsing is derivation within the limits

A source is parsed exactly if its tokens derive a tree in the grammar, at no token more levels being
open than the limit allows and the tree being no deeper than that. The tokens then leave no choice:
reading them with enough room shows that every derivation of theirs is of one tree.
-/

namespace StepFlow

namespace Grammar

/-- A source stands for a tree: its tokens derive it with no more than so many levels open at any of
them, and the tree is no deeper than so much. -/
def StandsFor (levels depth : Nat) (source : String) (e : Expr) : Prop :=
  ∃ w, Lexer.tokenize source = .ok (tokens w) ∧ Conditional 0 w e ∧ Within levels w ∧
    e.depth ≤ depth

theorem Within.mono {limit limit' : Nat} {w : List Placed} (h : Within limit w)
    (hl : limit ≤ limit') : Within limit' w := by
  intro p hp
  have hlevel := h p hp
  omega

theorem StandsFor.mono {levels depth levels' depth' : Nat} {source : String} {e : Expr}
    (h : StandsFor levels depth source e) (hl : levels ≤ levels') (hd : depth ≤ depth') :
    StandsFor levels' depth' source e := by
  obtain ⟨w, hw, derived, within, hdepth⟩ := h
  refine ⟨w, hw, derived, within.mono hl, ?_⟩
  omega

theorem exists_within (w : List Placed) : ∃ limit, Within limit w := by
  induction w with
  | nil => exact ⟨0, within_nil⟩
  | cons p w ih =>
    obtain ⟨t, k⟩ := p
    obtain ⟨limit, h⟩ := ih
    refine ⟨max k limit, within_cons.2 ⟨?_, h.mono ?_⟩⟩
    · omega
    · omega

/-- No list of tokens derives two trees. -/
theorem Conditional.unique {w w' : List Placed} {e e' : Expr} (h : Conditional 0 w e)
    (h' : Conditional 0 w' e') (same : tokens w = tokens w') : e = e' := by
  obtain ⟨limit, hw⟩ := exists_within w
  obtain ⟨limit', hw'⟩ := exists_within w'
  have within : Within (0 + max limit limit') w := hw.mono (by omega)
  have within' : Within (0 + max limit limit') w' := hw'.mono (by omega)
  have read := h.gives within [] (by simp [Parser.Ends])
  have read' := h'.gives within' [] (by simp [Parser.Ends])
  rw [← same] at read'
  exact (read.unique read').1

/-- The tokens of a derivation derive the same tree at every other level, no more levels being open
above it than before. -/
theorem Conditional.exists_at {l limit : Nat} {v : List Placed} {e : Expr}
    (derived : Conditional l v e) (within : Within limit v) (k : Nat) :
    ∃ w, tokens w = tokens v ∧ Conditional k w e ∧ Within (k + (limit - l)) w := by
  have hl := derived.leadsAt.le within
  have room : Within (l + (limit - l)) v := within.mono (by omega)
  have read := derived.gives room [] (by simp [Parser.Ends])
  obtain ⟨w, htokens, placed, moved⟩ := (Parser.sound_levels (limit - l) k).1 read
  exact ⟨w, by simpa using htokens.symm, moved, placed⟩

end Grammar

namespace Parser

open Grammar

theorem parseTokens_eq_ok {ts : List Token} {e : Expr} :
    parseTokens ts = .ok e ↔
    Gives ((levels maxDepth).conditional ts) e [] ∧ e.depth ≤ maxDepth := by
  cases ts with
  | nil =>
    constructor
    · intro h
      cases h
    · rintro ⟨h, -⟩
      cases h.property
  | cons t ts =>
    rw [parseTokens, if_neg (by simp), bind_eq_ok]
    constructor
    · rintro ⟨⟨e', r, hr⟩, read, h⟩
      dsimp only at h
      split at h
      · cases h
      · split at h
        · next hdepth =>
          cases h
          exact ⟨⟨hr, read⟩, hdepth⟩
        · cases h
    · rintro ⟨⟨hr, read⟩, hdepth⟩
      refine ⟨_, read, ?_⟩
      dsimp only
      rw [if_pos hdepth]
      rfl

/-- An expression that is read to its end is refused only for its depth. -/
theorem parseTokens_of_gives {ts : List Token} {e : Expr}
    (h : Gives ((levels maxDepth).conditional ts) e []) :
    parseTokens ts = if e.depth ≤ maxDepth then .ok e else .error .tooDeep := by
  by_cases fits : e.depth ≤ maxDepth
  · rw [if_pos fits]
    exact parseTokens_eq_ok.2 ⟨h, fits⟩
  · obtain ⟨shorter, read⟩ := h
    have some : ts.isEmpty = false := by
      cases ts with
      | nil => cases shorter
      | cons t ts => rfl
    rw [if_neg fits, parseTokens, some, if_neg Bool.false_ne_true, read]
    exact if_neg fits

theorem parseTokens_of_error {ts : List Token} {error : SyntaxError} (name : String)
    (h : (levels maxDepth).conditional (.ident name :: ts) = .error error) :
    parseTokens (.ident name :: ts) = .error error := by
  rw [parseTokens, if_neg (by simp)]
  exact bind_of_error h _

theorem parse_eq_ok_iff_tokens {source : String} {e : Expr} :
    parse source = .ok e ↔
      ∃ ts, Lexer.tokenize source = .ok ts ∧ Gives ((levels maxDepth).conditional ts) e [] ∧
        e.depth ≤ maxDepth := by
  rw [parse, bind_eq_ok]
  constructor
  · rintro ⟨ts, hts, h⟩
    exact ⟨ts, hts, parseTokens_eq_ok.1 (mapError_eq_ok.1 h)⟩
  · rintro ⟨ts, hts, h⟩
    exact ⟨ts, hts, mapError_eq_ok.2 (parseTokens_eq_ok.2 h)⟩

/-- Parsing gives exactly the trees that sources stand for. -/
theorem parse_eq_ok_iff {source : String} {e : Expr} :
    parse source = .ok e ↔ StandsFor maxDepth maxDepth source e := by
  rw [parse_eq_ok_iff_tokens]
  constructor
  · rintro ⟨ts, hts, read, hdepth⟩
    obtain ⟨w, rfl, within, derived⟩ := (sound_levels maxDepth 0).1 read
    rw [List.append_nil] at hts
    exact ⟨w, hts, derived, by rwa [Nat.zero_add] at within, hdepth⟩
  · rintro ⟨w, hts, derived, within, hdepth⟩
    rw [← Nat.zero_add maxDepth] at within
    have read := derived.gives within [] (by simp [Ends])
    rw [List.append_nil] at read
    exact ⟨tokens w, hts, read, hdepth⟩

end Parser

/-- Parsing gives the tree that the tokens of a source derive within the limits and fails on every
other source, and no list of tokens derives two different trees. -/
theorem parse_decides_grammar :
    (∀ source e, Parser.parse source = .ok e ↔ Grammar.StandsFor maxDepth maxDepth source e) ∧
      (∀ source, (∀ e, ¬Grammar.StandsFor maxDepth maxDepth source e) →
        ∃ error, Parser.parse source = .error error) ∧
      ∀ w w' e e', Grammar.Conditional 0 w e → Grammar.Conditional 0 w' e' →
        Grammar.tokens w = Grammar.tokens w' → e = e' := by
  refine ⟨?_, ?_, ?_⟩
  · intro source e
    exact Parser.parse_eq_ok_iff
  · intro source none
    cases h : Parser.parse source with
    | error error => exact ⟨error, rfl⟩
    | ok e => exact (none e (Parser.parse_eq_ok_iff.1 h)).elim
  · intro w w' e e' h h' same
    exact h.unique h' same

/-- A product binds tighter than the sum that is the condition of a choice. The branches of the
choice are a level further in than its condition, and an operand a level more. The source derives no
other tree, and without its branches it derives none. -/
theorem parse_decides_grammar_choice :
    let choice : Expr := .conditional (.binary .add (.var "a") (.binary .mul (.var "d") (.var "a")))
      (.unary .neg (.var "b")) (.call "c" [.literal (.ofNat 1)])
    Parser.parse "a + d * a ? -b : c(1)" = .ok choice ∧
      (∀ e, Grammar.StandsFor maxDepth maxDepth "a + d * a ? -b : c(1)" e → e = choice) ∧
      ∃ error, Parser.parse "a ?" = .error error := by
  intro choice
  obtain ⟨decides, refuses, unique⟩ := parse_decides_grammar
  have name (name : String) : Grammar.Unary 1 [(.ident name, 1)] (.var name) :=
    .operand (.atom (.var 1 name))
  have product : Grammar.Binary 1 [[(.star, .mul), (.slash, .div), (.percent, .rem)]]
      [(.ident "d", 1), (.symbol .star, 1), (.ident "a", 1)] (.binary .mul (.var "d") (.var "a")) :=
    .operator ((name "d").binary _) (by decide) ((name "a").binary _)
  have condition : Grammar.Binary 1 Grammar.binaryOperators
      [(.ident "a", 1), (.symbol .plus, 1), (.ident "d", 1), (.symbol .star, 1), (.ident "a", 1)]
      (.binary .add (.var "a") (.binary .mul (.var "d") (.var "a"))) :=
    .tighter (.tighter (.tighter (.tighter (.operator ((name "a").binary _) (by decide) product))))
  have operand : Grammar.Unary 3 [(.ident "b", 3)] (.var "b") := .operand (.atom (.var 3 "b"))
  have negated : Grammar.Unary 2 [(.symbol .minus, 2), (.ident "b", 3)] (.unary .neg (.var "b")) :=
    .operator .neg operand
  have one : Grammar.Postfix 3 [(.int 1, 3)] (.literal (.ofNat 1)) := .atom (.literal rfl)
  have call : Grammar.Postfix 2
      [(.ident "c", 2), (.symbol .leftParen, 2), (.int 1, 3), (.symbol .rightParen, 2)]
      (.call "c" [.literal (.ofNat 1)]) :=
    .call (.bare 2 "c") (.some (.last one.conditional))
  have derived := Grammar.Conditional.choice condition (.plain (negated.binary _))
    call.conditional
  have stands : Grammar.StandsFor maxDepth maxDepth "a + d * a ? -b : c(1)" choice :=
    ⟨_, by decide +kernel, derived, by simp [Grammar.Within, maxDepth], by decide +kernel⟩
  refine ⟨?_, ?_, ?_⟩
  · exact (decides _ _).2 stands
  · rintro e ⟨w', hw', derived', -⟩
    obtain ⟨w, hw, derived, -⟩ := stands
    apply unique _ _ _ _ derived' derived
    exact Except.ok.inj (hw'.symm.trans hw)
  · apply refuses
    intro e stands
    have read := (decides _ _).2 stands
    have refused : (Parser.parse "a ?").isOk = false := by decide +kernel
    rw [read] at refused
    cases refused

end StepFlow
