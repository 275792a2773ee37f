import Mathlib.Data.List.TakeWhile
import Mathlib.Data.Nat.Init
import StepFlow.Expression.Lexer
import StepFlow.Proofs.Outcome

/-!
# Texts and their tokens

`Lexes` relates a text to its tokens without offsets: where a lexeme stands matters for errors only.
A text keeps its tokens when another is put behind it, provided that the first character of the
other extends no lexeme. Parentheses and commas extend none, so sources can be pasted between them.
-/

namespace StepFlow.Lexer

variable {c d : Char} {cs rest more : List Char} {t : Token} {ts us : List Token} {offset : Nat}

def taken {source : List Char} (x : Except Fault (Scanned source)) :
    Except Fault (Token × List Char) :=
  x.map fun s => (s.token, s.rest)

/-- A text consists of blanks and of lexemes for the given tokens. -/
inductive Lexes : List Char → List Token → Prop
  | nil : Lexes [] []
  | blank {c : Char} {cs : List Char} {ts : List Token} (isBlank : isBlank c = true)
    (behind : Lexes cs ts) : Lexes (c :: cs) ts
  | lexeme {c : Char} {cs rest : List Char} {t : Token} {ts : List Token}
    (noBlank : isBlank c = false) (first : taken (scan c cs) = .ok (t, rest))
    (behind : Lexes rest ts) : Lexes (c :: cs) (t :: ts)

theorem lexes_of_tokensFrom (h : tokensFrom offset cs = .ok ts) : Lexes cs ts := by
  fun_induction tokensFrom offset cs generalizing ts with
  | case1 =>
    cases h
    exact .nil
  | case2 offset c tail hc ih => exact .blank hc (ih h)
  | case3 => cases h
  | case4 offset c tail hc s hs ih =>
    cases htail : tokensFrom (offset + byteLength s.lexeme) s.rest with
    | error e =>
      rw [htail] at h
      cases h
    | ok more =>
      rw [htail] at h
      cases h
      exact .lexeme (by simpa using hc) (by rw [hs]; rfl) (ih htail)

theorem Lexes.tokensFrom (h : Lexes cs ts) : ∀ offset, tokensFrom offset cs = .ok ts := by
  induction h with
  | nil =>
    intro offset
    rw [Lexer.tokensFrom]
  | blank isBlank _ ih =>
    intro offset
    rw [Lexer.tokensFrom, if_pos isBlank]
    exact ih _
  | @lexeme c cs rest t ts noBlank first _ ih =>
    intro offset
    rw [Lexer.tokensFrom, if_neg (by simp [noBlank])]
    cases hs : scan c cs with
    | error fault =>
      rw [hs] at first
      cases first
    | ok s =>
      rw [hs] at first
      cases first
      dsimp only
      rw [ih]
      rfl

/-- The tokens of a source are those that its text consists of. -/
theorem tokenize_eq_ok {source : String} : tokenize source = .ok ts ↔ Lexes source.toList ts :=
  ⟨lexes_of_tokensFrom, fun h => h.tokensFrom 0⟩

/-- A text has no other tokens. -/
theorem Lexes.unique (h : Lexes cs ts) (h' : Lexes cs us) : ts = us :=
  Except.ok.inj ((h.tokensFrom 0).symm.trans (h'.tokensFrom 0))

/-! ## What is put behind a lexeme -/

/-- A character that extends no lexeme. -/
def Separates (c : Char) : Prop :=
  c.isDigit = false ∧ isNameChar c = false ∧ c ≠ '.' ∧ c ≠ '=' ∧ c ≠ '&' ∧ c ≠ '|'

instance (c : Char) : Decidable (Separates c) := inferInstanceAs (Decidable (_ ∧ _))

theorem takeWhile_append_stop {p : Char → Bool} (h : p d = false) (cs rest : List Char) :
    (cs ++ d :: rest).takeWhile p = cs.takeWhile p := by
  induction cs with
  | nil => simp [h]
  | cons c cs ih =>
    rw [List.cons_append, List.takeWhile_cons, List.takeWhile_cons, ih]

theorem dropWhile_append_stop {p : Char → Bool} (h : p d = false) (cs rest : List Char) :
    (cs ++ d :: rest).dropWhile p = cs.dropWhile p ++ d :: rest := by
  induction cs with
  | nil => simp [h]
  | cons c cs ih =>
    rw [List.cons_append, List.dropWhile_cons, List.dropWhile_cons, ih]
    split <;> rfl

/-- All characters of one class are taken when another one, or nothing, comes behind them. -/
theorem span_append {p : Char → Bool} (inside : ∀ c ∈ cs, p c = true)
    (stop : ∀ c ∈ rest.head?, p c = false) :
    (cs ++ rest).takeWhile p = cs ∧ (cs ++ rest).dropWhile p = rest := by
  cases rest with
  | nil =>
    rw [List.append_nil]
    exact ⟨List.takeWhile_eq_self_iff.2 inside, List.dropWhile_eq_nil_iff.2 inside⟩
  | cons d rest =>
    have hd : p d = false := stop d rfl
    rw [takeWhile_append_stop hd, dropWhile_append_stop hd, List.takeWhile_eq_self_iff.2 inside,
      List.dropWhile_eq_nil_iff.2 inside]
    exact ⟨rfl, rfl⟩

/-- The fraction of a number behind its whole part: the first digit and what comes behind it. -/
def fraction? : List Char → Option (Char × List Char)
  | '.' :: d :: rest => if d.isDigit then some (d, rest) else none
  | _ => none

theorem fraction?_append (hd : Separates d) (cs rest : List Char) :
    fraction? (cs ++ d :: rest) = (fraction? cs).map fun found =>
      (found.1, found.2 ++ d :: rest) := by
  cases cs with
  | nil =>
    rw [List.nil_append, fraction?.eq_def]
    split
    · next h => exact absurd (List.cons.inj h).1 hd.2.2.1
    · rfl
  | cons c cs =>
    by_cases hc : c = '.'
    · subst hc
      cases cs with
      | nil => simp [fraction?, hd.1]
      | cons x cs =>
        simp only [List.cons_append, fraction?]
        split <;> rfl
    · rw [List.cons_append, fraction?.eq_def, fraction?.eq_def]
      split
      · next h => exact absurd (List.cons.inj h).1 hc
      · split
        · next h => exact absurd (List.cons.inj h).1 hc
        · rfl

theorem taken_whole (c : Char) (more tail after : List Char) (split : tail = more ++ after) :
    taken (scanNumber.whole c more tail after split) =
      if Number.FitsSigned (numeral (c :: more)) then .ok (.int (numeral (c :: more)), after)
      else .error (.numberTooLarge (c :: more)) := by
  delta scanNumber.whole
  by_cases h : Number.FitsSigned (numeral (c :: more))
  · rw [if_pos h, if_pos h]
    rfl
  · rw [if_neg h, if_neg h]
    rfl

/-- A number is read from its digits and from the digits of its fraction. -/
theorem taken_scanNumber (c : Char) (tail : List Char) :
    taken (scanNumber c tail) =
      match fraction? (tail.dropWhile Char.isDigit) with
      | some (d, rest) =>
        .ok (.float (Numeral.nearest
            (numeral (c :: tail.takeWhile Char.isDigit ++ d :: rest.takeWhile Char.isDigit))
            (-((rest.takeWhile Char.isDigit).length + 1 : Nat))),
          rest.dropWhile Char.isDigit)
      | none =>
        if Number.FitsSigned (numeral (c :: tail.takeWhile Char.isDigit)) then
          .ok (.int (numeral (c :: tail.takeWhile Char.isDigit)), tail.dropWhile Char.isDigit)
        else .error (.numberTooLarge (c :: tail.takeWhile Char.isDigit)) := by
  rw [scanNumber]
  split
  · next d rest _ split h _ =>
    by_cases hd : d.isDigit = true
    · have found : fraction? (tail.dropWhile Char.isDigit) = some (d, rest) := by
        rw [h, fraction?, if_pos hd]
      rw [found, if_pos hd]
      rfl
    · have none : fraction? (tail.dropWhile Char.isDigit) = none := by
        rw [h, fraction?, if_neg hd]
      rw [none, if_neg hd, taken_whole, h]
  · next split h =>
    have none : fraction? (tail.dropWhile Char.isDigit) = none := by
      rw [fraction?.eq_def]
      split
      · next d rest hd => exact (h d rest (hd ▸ split) hd (proof_irrel_heq _ _)).elim
      · rfl
    rw [none, taken_whole]

theorem splitAtQuote_append {quote : Char} {body after : List Char}
    (h : splitAtQuote quote cs = some (body, after)) (more : List Char) :
    splitAtQuote quote (cs ++ more) = some (body, after ++ more) := by
  fun_induction splitAtQuote quote cs generalizing body after with
  | case1 => cases h
  | case2 =>
    cases h
    rw [List.cons_append, splitAtQuote.eq_def]
    simp
  | case3 => cases h
  | case4 => cases h
  | case5 d rest hd hq ih =>
    obtain ⟨⟨b, a⟩, hs, hb⟩ := Option.map_eq_some_iff.1 h
    cases hb
    rw [List.cons_append, List.cons_append, splitAtQuote.eq_def]
    simp [hd, hq, ih hs]
  | case6 c rest hq hc ih =>
    obtain ⟨⟨b, a⟩, hs, hb⟩ := Option.map_eq_some_iff.1 h
    cases hb
    rw [List.cons_append, splitAtQuote.eq_def]
    simp [hq, hc, ih hs]

theorem taken_scanText (quote : Char) (tail : List Char) :
    taken (scanText quote tail) =
      match splitAtQuote quote tail with
      | none => .error .noLexeme
      | some (body, after) => .ok (.text (String.ofList (unescape body)), after) := by
  rw [scanText]
  split
  · next h =>
    simp only [h]
    rfl
  · next body after h =>
    simp only [h]
    rfl

theorem taken_scanSymbol (source : List Char) :
    taken (scanSymbol source) =
      match Symbol.all.find? fun s => s.spelling.isPrefixOf source with
      | none => .error .noLexeme
      | some s => .ok (.symbol s, source.drop s.spelling.length) := by
  rw [scanSymbol]
  split
  · next h =>
    simp only [h]
    rfl
  · next s h =>
    simp only [h]
    rfl

/-- A symbol is spelled with one character, or with one of three as the second. -/
theorem spelling_cases (s : Symbol) :
    (∃ x, s.spelling = [x]) ∨
      ∃ x y, s.spelling = [x, y] ∧ (y = '=' ∨ y = '&' ∨ y = '|') := by
  cases s with
  | eqEq | notEq | le | ge => exact .inr ⟨_, _, rfl, .inl rfl⟩
  | andAnd => exact .inr ⟨_, _, rfl, .inr (.inl rfl)⟩
  | orOr => exact .inr ⟨_, _, rfl, .inr (.inr rfl)⟩
  | _ => exact .inl ⟨_, rfl⟩

theorem isPrefixOf_spelling_append (hd : Separates d) (s : Symbol) (c : Char)
    (cs rest : List Char) :
    s.spelling.isPrefixOf (c :: (cs ++ d :: rest)) = s.spelling.isPrefixOf (c :: cs) := by
  obtain ⟨x, hs⟩ | ⟨x, y, hs, hy⟩ := spelling_cases s
  · simp [hs, List.isPrefixOf]
  · cases cs with
    | nil =>
      have apart : y ≠ d := by
        rintro rfl
        obtain ⟨-, -, -, heq, hand, hor⟩ := hd
        obtain h | h | h := hy
        · exact heq h
        · exact hand h
        · exact hor h
      simp [hs, List.isPrefixOf, apart]
    | cons z cs => simp [hs, List.isPrefixOf]

/-! What is scanned stays the longest lexeme when a separating character comes behind it, and what
is not scanned does not become a lexeme by it, unless it is a text that goes on behind it. -/

theorem taken_scanNumber_append (hd : Separates d) (c : Char) (cs more : List Char) :
    taken (scanNumber c (cs ++ d :: more)) =
      (taken (scanNumber c cs)).map fun found => (found.1, found.2 ++ d :: more) := by
  rw [taken_scanNumber, taken_scanNumber, takeWhile_append_stop hd.1, dropWhile_append_stop hd.1,
    fraction?_append hd]
  cases fraction? (cs.dropWhile Char.isDigit) with
  | some found =>
    simp only [Option.map_some, takeWhile_append_stop hd.1, dropWhile_append_stop hd.1]
    rfl
  | none =>
    dsimp only [Option.map_none]
    split <;> rfl

theorem taken_scanText_append (h : taken (scanText c cs) = .ok (t, rest)) (more : List Char) :
    taken (scanText c (cs ++ more)) = .ok (t, rest ++ more) := by
  rw [taken_scanText] at h ⊢
  cases hs : splitAtQuote c cs with
  | none =>
    rw [hs] at h
    cases h
  | some found =>
    obtain ⟨body, after⟩ := found
    rw [hs] at h
    cases h
    rw [splitAtQuote_append hs]

theorem taken_scanSymbol_append (hd : Separates d) (c : Char) (cs more : List Char) :
    taken (scanSymbol (c :: (cs ++ d :: more))) =
      (taken (scanSymbol (c :: cs))).map fun found => (found.1, found.2 ++ d :: more) := by
  rw [taken_scanSymbol, taken_scanSymbol]
  simp only [isPrefixOf_spelling_append hd]
  cases hf : Symbol.all.find? fun s => s.spelling.isPrefixOf (c :: cs) with
  | none => rfl
  | some s =>
    have starts : s.spelling.isPrefixOf (c :: cs) = true := by simpa using List.find?_some hf
    have short := (List.isPrefixOf_iff_prefix.1 starts).length_le
    dsimp only
    rw [← List.cons_append, List.drop_append_of_le_length short]
    rfl

theorem taken_scan_append_of_ne_quote (hd : Separates d) (hc : ¬(c = '"' ∨ c = '\''))
    (cs more : List Char) :
    taken (scan c (cs ++ d :: more)) =
      (taken (scan c cs)).map fun found => (found.1, found.2 ++ d :: more) := by
  rw [scan, scan, if_neg hc, if_neg hc]
  split
  · exact taken_scanNumber_append hd c cs more
  · split
    · simp only [taken, scanName, takeWhile_append_stop hd.2.1, dropWhile_append_stop hd.2.1]
      rfl
    · exact taken_scanSymbol_append hd c cs more

theorem taken_scan_of_quote (hc : c = '"' ∨ c = '\'') (cs : List Char) :
    taken (scan c cs) = taken (scanText c cs) := by
  have noDigit : c.isDigit = false := by rcases hc with rfl | rfl <;> decide
  rw [scan, if_neg (by simp [noDigit]), if_pos hc]

theorem taken_scan_append (hd : Separates d) (h : taken (scan c cs) = .ok (t, rest))
    (more : List Char) : taken (scan c (cs ++ d :: more)) = .ok (t, rest ++ d :: more) := by
  by_cases hc : c = '"' ∨ c = '\''
  · rw [taken_scan_of_quote hc] at h ⊢
    exact taken_scanText_append h (d :: more)
  · rw [taken_scan_append_of_ne_quote hd hc, h]
    rfl

/-- A lexeme does not reach beyond a separating character, unless it is a text
that is open there. -/
theorem exists_taken_of_append {r : List Char} (hd : Separates d)
    (h : taken (scan c (cs ++ d :: more)) = .ok (t, r))
    (closed : c = '"' ∨ c = '\'' → ∃ found, splitAtQuote c cs = some found) :
    ∃ rest, taken (scan c cs) = .ok (t, rest) ∧ r = rest ++ d :: more := by
  obtain ⟨⟨t', rest⟩, found⟩ : ∃ found, taken (scan c cs) = .ok found := by
    by_cases hc : c = '"' ∨ c = '\''
    · obtain ⟨⟨body, after⟩, hsplit⟩ := closed hc
      rw [taken_scan_of_quote hc, taken_scanText, hsplit]
      exact ⟨_, rfl⟩
    · rw [taken_scan_append_of_ne_quote hd hc] at h
      obtain ⟨found, hfound, -⟩ := map_eq_ok.1 h
      exact ⟨found, hfound⟩
  have whole := taken_scan_append hd found more
  rw [h] at whole
  cases whole
  exact ⟨rest, found, rfl⟩

/-- Put behind each other with a separating character between them, two texts keep their tokens. -/
theorem Lexes.append (h : Lexes cs ts) (hd : Separates d) (h' : Lexes (d :: rest) us) :
    Lexes (cs ++ d :: rest) (ts ++ us) := by
  induction h with
  | nil => exact h'
  | blank isBlank _ ih => exact .blank isBlank ih
  | lexeme noBlank first _ ih => exact .lexeme noBlank (taken_scan_append hd first rest) ih

end StepFlow.Lexer
