import StepFlow.Proofs.Expression.Brackets
import StepFlow.Proofs.Expression.Height
import StepFlow.Proofs.Expression.Lexing
import StepFlow.Proofs.Expression.Parsing
import StepFlow.Proofs.Outcome
import StepFlow.Proofs.Template.Balanced

/-!
# Sources are balanced texts

The search for the brace that closes a block works on characters and knows nothing of tokens. It
agrees with them all the same: outside of texts between quotes a brace is a lexeme of its own, and a
text between quotes ends for the search where it ends as a lexeme. So a source whose tokens can be
derived is balanced, because the grammar lets a brace open only where it is closed again. No more
braces are open at once than the tree is high, so they are all counted.
-/

namespace StepFlow

/-- How many braces are open behind some tokens, `depth` of them being open in front; nothing if one
is closed that was never opened, or opened that is not counted. -/
def Grammar.openBraces : Nat → List Token → Option Nat
  | depth, [] => some depth
  | depth, .symbol .leftBrace :: ts =>
    if depth < Template.maxInner then openBraces (depth + 1) ts else none
  | 0, .symbol .rightBrace :: _ => none
  | depth + 1, .symbol .rightBrace :: ts => openBraces depth ts
  | depth, _ :: ts => openBraces depth ts

namespace Grammar

variable {bound k depth : Nat} {w : List Placed} {t : Token} {ts : List Token}

theorem openBraces_cons (hleft : t ≠ .symbol .leftBrace) (hright : t ≠ .symbol .rightBrace) :
    openBraces depth (t :: ts) = openBraces depth ts := by
  cases t with
  | symbol s =>
    cases s with
    | leftBrace => exact (hleft rfl).elim
    | rightBrace => exact (hright rfl).elim
    | _ => rw [openBraces] <;> simp
  | _ => rw [openBraces] <;> simp

/-- Some tokens close every brace that they open, and no other, with no more open
at once than a bound. -/
def Braced (bound : Nat) (w : List Placed) : Prop :=
  ∀ depth rest, depth + bound ≤ Template.maxInner →
    openBraces depth (tokens w ++ rest) = openBraces depth rest

theorem Braced.append {v : List Placed} (hw : Braced bound w) (hv : Braced bound v) :
    Braced bound (w ++ v) := by
  intro depth rest fits
  rw [tokens_append, List.append_assoc, hw _ _ fits, hv _ _ fits]

theorem Braced.cons (hw : Braced bound w) (hleft : t ≠ .symbol .leftBrace)
    (hright : t ≠ .symbol .rightBrace) : Braced bound ((t, k) :: w) := by
  intro depth rest fits
  rw [tokens_cons, List.cons_append, openBraces_cons hleft hright]
  exact hw depth rest fits

theorem Braced.mono {bound' : Nat} (hw : Braced bound w) (h : bound ≤ bound') : Braced bound' w :=
  fun depth rest fits => hw depth rest (by omega)

theorem braced_nil (bound : Nat) : Braced bound [] := fun _ _ _ => rfl

/-- Where every bracket is closed, every brace is. -/
theorem Bracketed.braced {front : Option Token} (h : Bracketed bound front w) : Braced bound w := by
  induction h with
  | nil => exact braced_nil _
  | token plain _ ih =>
    exact ih.cons (by rintro rfl; cases plain) (by rintro rfl; cases plain)
  | @nested _ _ _ opening _ _ _ _ _ closed within lower _ _ _ inside behind =>
    cases opening with
    | leftBrace =>
      cases closed
      intro depth rest fits
      have deeper := lower rfl
      rw [tokens_cons, tokens_append, List.cons_append, List.append_assoc, openBraces,
        if_pos (by omega), inside _ _ (by omega)]
      exact behind depth rest fits
    | leftParen | leftBracket =>
      cases closed
      exact ((inside.mono within).append (behind.cons (by decide) (by decide))).cons (by decide)
        (by decide)
    | _ => cases closed

end Grammar

namespace Template

open Lexer (Lexes Scanned scan splitAtQuote)

variable {c : Char} {cs rest : List Char} {ts : List Token}

/-! ## Lexemes -/

theorem not_isDelimiter_of_isNameChar (h : Lexer.isNameChar c = true) : ¬IsDelimiter c := by
  rintro (rfl | rfl | rfl | rfl) <;> exact absurd h (by decide)

theorem isNameChar_of_isDigit (h : c.isDigit = true) : Lexer.isNameChar c = true := by
  simp [Lexer.isNameChar, h]

theorem not_isDelimiter_of_isDigit (h : c.isDigit = true) : ¬IsDelimiter c :=
  not_isDelimiter_of_isNameChar (isNameChar_of_isDigit h)

theorem not_isDelimiter_of_isBlank (h : Lexer.isBlank c = true) : ¬IsDelimiter c := by
  rintro (rfl | rfl | rfl | rfl) <;> exact absurd h (by decide)

theorem balanced_takeWhile {p : Char → Bool} (h : ∀ c, p c = true → ¬IsDelimiter c)
    (cs : List Char) (depth : Nat) : Balanced depth (cs.takeWhile p) :=
  balanced_of_plain (fun c hc => h c (List.all_eq_true.1 List.all_takeWhile c hc)) depth

/-- A lexeme that is no symbol and that the search passes over. -/
def Inert {source : List Char} (s : Scanned source) : Prop :=
  (∀ symbol, s.token ≠ .symbol symbol) ∧ ∀ depth, Balanced depth s.lexeme

theorem passed_whole {more tail after : List Char} {split : tail = more ++ after}
    {s : Scanned (c :: tail)} (hb : ∀ depth, Balanced depth (c :: more))
    (h : Lexer.scanNumber.whole c more tail after split = .ok s) : Inert s := by
  delta Lexer.scanNumber.whole at h
  by_cases fits : Number.FitsSigned (Lexer.numeral (c :: more))
  · rw [if_pos fits] at h
    cases h
    exact ⟨fun _ => Token.noConfusion, hb⟩
  · rw [if_neg fits] at h
    cases h

theorem passed_number {tail : List Char} {s : Scanned (c :: tail)} (hc : c.isDigit = true)
    (h : Lexer.scanNumber c tail = .ok s) : Inert s := by
  have digits (cs : List Char) (depth : Nat) : Balanced depth (cs.takeWhile Char.isDigit) :=
    balanced_takeWhile (fun _ => not_isDelimiter_of_isDigit) cs depth
  have whole (depth : Nat) : Balanced depth (c :: tail.takeWhile Char.isDigit) :=
    (balanced_plain (not_isDelimiter_of_isDigit hc) depth).append (digits tail depth)
  rw [Lexer.scanNumber] at h
  split at h
  · next d rest _ _ _ _ =>
    by_cases hd : d.isDigit = true
    · have point (depth : Nat) : Balanced depth ['.'] := balanced_plain (by decide) depth
      have digit : ∀ depth, Balanced depth [d] := balanced_plain (not_isDelimiter_of_isDigit hd)
      rw [if_pos hd] at h
      cases h
      refine ⟨fun _ => Token.noConfusion, fun depth => ?_⟩
      exact (whole depth).append ((point depth).append ((digit depth).append (digits rest depth)))
    · rw [if_neg hd] at h
      exact passed_whole whole h
  · exact passed_whole whole h

/-- A text between quotes ends for the search where it ends as a lexeme. -/
theorem run_of_splitAtQuote {quote : Char} {body after : List Char}
    (h : splitAtQuote quote cs = some (body, after)) (depth : Nat) :
    run (depth, .quoted quote) body = some (depth, .quoted quote) := by
  fun_induction splitAtQuote quote cs generalizing body after with
  | case1 => cases h
  | case2 =>
    cases h
    rfl
  | case3 => cases h
  | case4 => cases h
  | case5 d tail hd hq' ih =>
    obtain ⟨⟨b, a⟩, hs, hb⟩ := Option.map_eq_some_iff.1 h
    cases hb
    show run (depth, .quoted quote) b = _
    exact ih hs
  | case6 c tail hc hb' ih =>
    obtain ⟨⟨b, a⟩, hs, hb⟩ := Option.map_eq_some_iff.1 h
    cases hb
    rw [run_cons, step_quoted hb' hc]
    exact ih hs

theorem passed_text {tail : List Char} {s : Scanned (c :: tail)} (hc : c = '"' ∨ c = '\'')
    (h : Lexer.scanText c tail = .ok s) : Inert s := by
  rw [Lexer.scanText] at h
  split at h
  · cases h
  · next body after hsplit =>
    cases h
    refine ⟨fun _ => Token.noConfusion, fun depth => ?_⟩
    show run _ (c :: (body ++ [c])) = _
    rw [run_cons, step_quote hc.symm, Option.bind_some,
      run_append_of (run_of_splitAtQuote hsplit depth),
      run_cons, step_endQuote (ne_backslash hc.symm)]
    rfl

theorem passed_name {tail : List Char} (hc : Lexer.isNameStart c = true) :
    Inert (Lexer.scanName c tail) := by
  have first : ∀ depth, Balanced depth [c] :=
    balanced_plain (not_isDelimiter_of_isNameChar (by simp [Lexer.isNameChar, hc]))
  constructor
  · intro symbol
    simp only [Lexer.scanName, Lexer.nameToken]
    split <;> exact Token.noConfusion
  · intro depth
    exact (first depth).append
      (balanced_takeWhile (fun _ => not_isDelimiter_of_isNameChar) tail depth)

/-- A lexeme is a brace, or the search passes over it and its token is no brace. -/
theorem lexeme_cases {tail : List Char} {s : Scanned (c :: tail)} (h : scan c tail = .ok s) :
    (s.token = .symbol .leftBrace ∧ s.lexeme = ['\x7b']) ∨
      (s.token = .symbol .rightBrace ∧ s.lexeme = ['\x7d']) ∨
      (s.token ≠ .symbol .leftBrace ∧ s.token ≠ .symbol .rightBrace ∧
        ∀ depth, Balanced depth s.lexeme) := by
  have passed (h : Inert s) : s.token ≠ .symbol .leftBrace ∧ s.token ≠ .symbol .rightBrace ∧
      ∀ depth, Balanced depth s.lexeme := ⟨h.1 _, h.1 _, h.2⟩
  rw [scan] at h
  split at h
  · next hc => exact .inr (.inr (passed (passed_number hc h)))
  · split at h
    · next hc => exact .inr (.inr (passed (passed_text hc h)))
    · split at h
      · next hc =>
        cases h
        exact .inr (.inr (passed (passed_name hc)))
      · rw [Lexer.scanSymbol] at h
        split at h
        · cases h
        · next symbol _ =>
          cases h
          cases symbol with
          | leftBrace => exact .inl ⟨rfl, rfl⟩
          | rightBrace => exact .inr (.inl ⟨rfl, rfl⟩)
          | _ =>
            exact .inr
              (.inr ⟨by simp, by simp, balanced_of_plain (by simp [Symbol.spelling]; decide)⟩)

/-- The search passes over a text as its tokens open and close braces. -/
theorem run_of_lexes (h : Lexes cs ts) : ∀ {depth depth' : Nat},
    Grammar.openBraces depth ts = some depth' →
      run (depth, .outside) cs = some (depth', .outside) := by
  induction h with
  | nil =>
    intro depth depth' hopen
    cases hopen
    rfl
  | blank isBlank _ ih =>
    intro depth depth' hopen
    rw [run_cons, step_plain (not_isDelimiter_of_isBlank isBlank)]
    exact ih hopen
  | @lexeme c cs behind t ts noBlank first _ ih =>
    intro depth depth' hopen
    obtain ⟨s, hs, hfirst⟩ := map_eq_ok.1 first
    cases hfirst
    rw [s.source_eq]
    obtain ⟨ht, hl⟩ | ⟨ht, hl⟩ | ⟨hleft, hright, hl⟩ := lexeme_cases hs
    · rw [ht, Grammar.openBraces] at hopen
      split at hopen
      · next further =>
        rw [hl, List.singleton_append, run_cons, step_open further]
        exact ih hopen
      · cases hopen
    · rw [ht] at hopen
      cases depth with
      | zero => cases hopen
      | succ depth =>
        rw [Grammar.openBraces] at hopen
        rw [hl, List.singleton_append, run_cons, step_close]
        exact ih hopen
    · rw [Grammar.openBraces_cons hleft hright] at hopen
      rw [run_append_of (hl depth)]
      exact ih hopen

/-- A source whose tokens can be derived is balanced, if its tree is not too high
to count its braces. -/
theorem balanced_of_conditional {k : Nat} {w : List Placed} {e : Expr}
    (h : Lexes cs (Grammar.tokens w)) (derived : Grammar.Conditional k w e)
    (low : e.height ≤ maxInner) : Balanced 0 cs := by
  have hopen := (derived.bracketed (Nat.le_refl _)).braced 0 [] (by omega)
  rw [List.append_nil] at hopen
  exact run_of_lexes h hopen

/-- A source that is accepted is balanced, whatever its texts between quotes hold. -/
theorem balanced_of_parse {source : String} {e : Expr} (h : Parser.parse source = .ok e) :
    Balanced 0 source.toList := by
  obtain ⟨w, hw, derived, -, depth⟩ := Parser.parse_eq_ok_iff.1 h
  have bound : maxDepth ≤ maxInner := by decide
  rw [Expr.depth_eq_height] at depth
  exact balanced_of_conditional (Lexer.tokenize_eq_ok.1 hw) derived (Nat.le_trans depth bound)

end Template

end StepFlow
