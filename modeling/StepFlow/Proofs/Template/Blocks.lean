import StepFlow.ExprOr
import StepFlow.Proofs.Template.Braces

/-!
# Sources in blocks

A block of a document and an expression are found by two readers that know nothing of each other:
one looks for the closing brace character by character, the other takes lexemes. Where a source
is accepted they agree on where it ends, so a field that can be evaluated is written as a block
and read back as it is.

Conversely, what stands in a block ends no text between quotes and leaves none open,
whether it is accepted or not. So it has the same lexemes in the expression that it is
pasted into as it has alone.
-/

namespace StepFlow

namespace Template

open Lexer (Lexes Separates scan splitAtQuote taken)

/-! ## Blocks among other text -/

variable {c d : Char} {cs lexeme rest more : List Char} {depth : Nat} {us : List Token}

/-- The search for a closing brace gets behind a text, and is outside of texts
between quotes there. -/
def Passed (depth : Nat) (cs : List Char) : Prop :=
  ∃ depth', run (depth, .outside) cs = some (depth', .outside)

theorem Balanced.passed (h : Balanced depth cs) : Passed depth cs := ⟨depth, h⟩

theorem Passed.append (h : Passed depth cs) (hr : ∀ depth, Balanced depth rest) :
    Passed depth (cs ++ rest) := by
  obtain ⟨depth', through⟩ := h
  exact ⟨depth', (run_append_of through rest).trans (hr depth')⟩

theorem Passed.of_append {inner : Nat} (h : Passed depth (lexeme ++ rest))
    (hl : run (depth, .outside) lexeme = some (inner, .outside)) : Passed inner rest := by
  obtain ⟨depth', through⟩ := h
  exact ⟨depth', (run_append_of hl rest).symm.trans through⟩

theorem Passed.of_open (h : Passed depth ('\x7b' :: rest)) : Passed (depth + 1) rest := by
  obtain ⟨depth', through⟩ := h
  rw [run_cons, step, if_pos rfl] at through
  split at through
  · exact ⟨depth', through⟩
  · cases through

theorem Passed.of_close (h : Passed depth ('\x7d' :: rest)) : ∃ outer, Passed outer rest := by
  obtain ⟨depth', through⟩ := h
  cases depth with
  | zero => cases through
  | succ outer => exact ⟨outer, depth', through⟩

/-- The search for a brace does not get out of a text between quotes that is
closed only further on. -/
theorem run_of_unclosed (hopen : splitAtQuote c cs = none)
    (hclosed : ∃ found, splitAtQuote c (cs ++ more) = some found) (hc : c ≠ '\\')
    (depth depth' : Nat) :
    run (depth, .quoted c) cs ≠ some (depth', .outside) := by
  obtain ⟨found, hfound⟩ := hclosed
  fun_induction splitAtQuote c cs generalizing found with
  | case1 => rintro ⟨⟩
  | case2 => cases hopen
  | case3 => rintro ⟨⟩
  | case4 =>
    rw [List.cons_append, List.cons_append, splitAtQuote.eq_def] at hfound
    simp [hc.symm] at hfound
  | case5 d tail hd hn ih =>
    rw [List.cons_append, List.cons_append, splitAtQuote.eq_def] at hfound
    simp only [hn, hd, if_true, if_false] at hfound
    obtain ⟨found', hfound', -⟩ := Option.map_eq_some_iff.1 hfound
    exact ih (Option.map_eq_none_iff.1 hopen) _ hfound'
  | case6 c' tail hc' hb ih =>
    rw [List.cons_append, splitAtQuote.eq_def] at hfound
    simp only [hc', hb, if_false] at hfound
    obtain ⟨found', hfound', -⟩ := Option.map_eq_some_iff.1 hfound
    rw [run_cons, step_quoted hb hc']
    exact ih (Option.map_eq_none_iff.1 hopen) _ hfound'

theorem Passed.exists_splitAtQuote (h : Passed depth (c :: cs)) (hc : c = '"' ∨ c = '\'')
    (more : List Char) (hclosed : ∃ found, splitAtQuote c (cs ++ more) = some found) :
    ∃ found, splitAtQuote c cs = some found := by
  obtain ⟨depth', through⟩ := h
  cases hopen : splitAtQuote c cs with
  | some found => exact ⟨found, rfl⟩
  | none =>
    rw [run_cons, step_quote hc.symm] at through
    exact (run_of_unclosed hopen hclosed (ne_backslash hc.symm) depth depth' through).elim

/-- Behind its first lexeme a text is passed over as before. -/
theorem Passed.exists_rest {t : Token} (h : Passed depth (c :: cs))
    (first : taken (scan c cs) = .ok (t, rest)) : ∃ depth', Passed depth' rest := by
  obtain ⟨s, hs, hfirst⟩ := map_eq_ok.1 first
  cases hfirst
  rw [s.source_eq] at h
  obtain ⟨-, hl⟩ | ⟨-, hl⟩ | ⟨-, -, hl⟩ := lexeme_cases hs
  · rw [hl] at h
    exact ⟨_, h.of_open⟩
  · rw [hl] at h
    exact h.of_close
  · exact ⟨depth, h.of_append (hl depth)⟩

/-- A text that the search passes over ends with a lexeme in front of a separating character. -/
theorem Passed.exists_lexes (hd : Separates d) {text : List Char} (h : Lexes text us) :
    ∀ {depth cs}, Passed depth cs → text = cs ++ d :: rest →
      ∃ ts us', us = ts ++ us' ∧ Lexes cs ts ∧ Lexes (d :: rest) us' := by
  induction h with
  | nil =>
    intro depth cs _ htext
    simp at htext
  | @blank c behind ts isBlank more ih =>
    intro depth cs passed htext
    cases cs with
    | nil =>
      obtain ⟨rfl, rfl⟩ := List.cons.inj htext
      exact ⟨[], ts, rfl, .nil, .blank isBlank more⟩
    | cons c' cs =>
      obtain ⟨rfl, hbehind⟩ := List.cons.inj htext
      have single : Balanced depth [c] := balanced_plain (not_isDelimiter_of_isBlank isBlank) depth
      have others : Passed depth cs := Passed.of_append passed single
      obtain ⟨ts, us', rfl, hcs, hus⟩ := ih others hbehind
      exact ⟨ts, us', rfl, .blank isBlank hcs, hus⟩
  | @lexeme c tail behind t ts noBlank first more ih =>
    intro depth cs passed htext
    cases cs with
    | nil =>
      obtain ⟨rfl, rfl⟩ := List.cons.inj htext
      exact ⟨[], t :: ts, rfl, .nil, .lexeme noBlank first more⟩
    | cons c' cs =>
      obtain ⟨rfl, rfl⟩ := List.cons.inj htext
      have closed : c = '"' ∨ c = '\'' → ∃ found, splitAtQuote c cs = some found := by
        intro hc
        refine passed.exists_splitAtQuote hc (d :: rest) ?_
        rw [Lexer.taken_scan_of_quote hc, Lexer.taken_scanText] at first
        split at first
        · cases first
        · next body after hsplit => exact ⟨_, hsplit⟩
      obtain ⟨rest', hfirst, rfl⟩ := Lexer.exists_taken_of_append hd first closed
      obtain ⟨depth', passed'⟩ := passed.exists_rest hfirst
      obtain ⟨ts, us', rfl, hcs, hus⟩ := ih passed' rfl
      exact ⟨t :: ts, us', rfl, .lexeme noBlank hfirst hcs, hus⟩

end Template

namespace ExprOr

variable {shape : Shape} {source : String}

theorem ofValue?_ofSource (h : Template.Balanced 0 source.toList) (shape : Shape) :
    ofValue? shape (.string (Template.ofSource source)) = some (.expression source) := by
  rw [ofValue?, ExprOr.source?, Template.source?_ofSource h]

/-- Between the delimiters, a source that is accepted is read as that expression, at every
shape. So an expression that has a value under some bindings, or a field that does, is read
back as it was written. -/
theorem accepted_source_reads_back :
    (∀ source e, Parser.parse source = .ok e → ∀ shape,
      ofValue? shape (.string ("@\x7b" ++ source ++ "\x7d")) = some (.expression source)) ∧
    (∀ source look v, tryEvaluate look source = .ok v → ∀ shape,
      ofValue? shape (expression source : ExprOr shape).toValue = some (.expression source)) ∧
    ∀ shape source look a, (expression source : ExprOr shape).evaluate look = some a →
      ofDocument shape (expression source : ExprOr shape).toValue = .expression source := by
  have accepted (source e) (h : Parser.parse source = .ok e) (shape : Shape) :
      ofValue? shape (.string (Template.ofSource source)) = some (.expression source) :=
    ofValue?_ofSource (Template.balanced_of_parse h) shape
  have evaluated (source look v) (h : tryEvaluate look source = .ok v) (shape : Shape) :
      ofValue? shape (.string (Template.ofSource source)) = some (.expression source) := by
    obtain ⟨e, he, -⟩ := bind_eq_ok.1 h
    exact accepted source e he shape
  refine ⟨accepted, evaluated, ?_⟩
  intro shape source look a h
  obtain ⟨v, hv, -⟩ := Option.bind_eq_some_iff.1 h
  obtain ⟨v', hv'⟩ : ∃ v', tryEvaluate look source = .ok v' := by
    cases ht : tryEvaluate look source with
    | ok v' => exact ⟨v', rfl⟩
    | error error =>
      rw [StepFlow.evaluate, ht] at hv
      cases hv
  rw [ofDocument, toValue, evaluated source look v' hv' shape]
  rfl

/-- Quotes, escapes, braces and delimiters between quotes do not end a block, and neither do
the braces of a map. -/
theorem accepted_source_reads_back_quoted :
    let source := "concat('it\\'s \x7d', \"@\x7b\\\"\", \x7b'é': '\x7b'\x7d['é'])"
    ∃ e, Parser.parse source = .ok e ∧
      ofValue? .text (.string ("@\x7b" ++ source ++ "\x7d")) = some (.expression source) := by
  intro source
  have parsed : (Parser.parse source).isOk = true := by decide +kernel
  cases he : Parser.parse source with
  | error error =>
    rw [he] at parsed
    cases parsed
  | ok e => exact ⟨e, rfl, accepted_source_reads_back.1 source e he .text⟩

end ExprOr

end StepFlow
