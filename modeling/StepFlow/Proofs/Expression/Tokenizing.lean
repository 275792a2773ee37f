import StepFlow.Proofs.Expression.Lexeme

/-!
# Tokenizing takes the longest lexemes

A source is split into tokens from its front: blanks are passed over, and at every other place the
longest lexeme is taken, as long as there is one and its token fits. `Splits` says how far this
goes. It leaves no choice, so a source is either split to its end, or up to the first place where
that is not possible, and what is wrong there is the error: a text that is never closed, a number
that is too large, or a character that starts no lexeme.
-/

namespace StepFlow.Lexer

/-! ## A lexeme has one token -/

section Unique

variable {c : Char} {cs l l' source : List Char} {t t' : Token}

theorem NumberLexeme.unique (h : NumberLexeme (c :: cs) t)
    (h' : NumberLexeme (c :: cs) t') : t = t' := by
  have apart {whole fraction : List Char} (digits : Digits (c :: cs))
      (split : c :: cs = whole ++ '.' :: fraction) : False := by
    have point := digits.isDigit '.' (by simp [split])
    cases point
  obtain ⟨digits, rfl⟩ | ⟨whole, fraction, before, behind, split, rfl⟩ := h
  · obtain ⟨-, rfl⟩ | ⟨whole, fraction, -, -, split, -⟩ := h'
    · rfl
    · exact (apart digits split).elim
  · obtain ⟨digits, -⟩ | ⟨whole', fraction', before', behind', split', rfl⟩ := h'
    · exact (apart digits split).elim
    · -- both whole parts are all the digits at the front
      obtain ⟨d, more, rest, hwhole, -, -, -⟩ :=
        fraction_of_front before behind ⟨[], (List.append_nil _).trans split.symm⟩
      obtain ⟨d', more', rest', hwhole', -, -, -⟩ :=
        fraction_of_front before' behind' ⟨[], (List.append_nil _).trans split'.symm⟩
      obtain rfl : whole = whole' := hwhole.trans hwhole'.symm
      obtain rfl : fraction = fraction' :=
        (List.cons.inj (List.append_cancel_left (split.symm.trans split'))).2
      rfl

theorem Body.meant_eq {quote : Char} {body meant : List Char} (h : Body quote body meant) :
    meant = unescape body := by
  induction h with
  | nil => rfl
  | plain _ noEscape _ ih => rw [unescape_cons noEscape, ih]
  | lineFeed _ ih | tab _ ih | carriageReturn _ ih => rw [unescape, ih]; rfl
  | itself other _ ih =>
    obtain ⟨hn, ht, hr, -⟩ := other
    rw [unescape, ih, escaped, if_neg hn, if_neg ht, if_neg hr]

theorem Lexeme.unique (h : Lexeme l t) (h' : Lexeme l t') :
    t = t' ∨ ∃ word : Keyword, l = word.spelling := by
  obtain ⟨c, cs, rfl⟩ := List.exists_cons_of_ne_nil h.ne_nil
  have first := h.by_first
  have first' := h'.by_first
  split at first
  · next hc =>
    rw [if_pos hc] at first'
    exact .inl (first.unique first')
  · next hc =>
    rw [if_neg hc] at first'
    split at first
    · next hq =>
      rw [if_pos hq] at first'
      obtain ⟨body, meant, inside, hbody, rfl⟩ := first
      obtain ⟨body', meant', inside', hbody', rfl⟩ := first'
      obtain rfl : body = body' := List.append_cancel_right (hbody.symm.trans hbody')
      rw [inside.meant_eq, inside'.meant_eq]
      exact .inl rfl
    · next hq =>
      rw [if_neg hq] at first'
      split at first
      · next hs =>
        rw [if_pos hs] at first'
        obtain ⟨-, rfl | ⟨word, spelled, -⟩⟩ := first
        · obtain ⟨-, rfl | ⟨word, spelled, -⟩⟩ := first'
          · exact .inl rfl
          · exact .inr ⟨word, spelled.symm⟩
        · exact .inr ⟨word, spelled.symm⟩
      · next hs =>
        rw [if_neg hs] at first'
        obtain ⟨s, spelled, rfl⟩ := first
        obtain ⟨s', spelled', rfl⟩ := first'
        rw [Symbol.eq_of_spelling (spelled.trans spelled'.symm)]
        exact .inl rfl

theorem Longest.unique (h : Longest l t source) (h' : Longest l' t' source) : l = l' ∧ t = t' := by
  have short := h'.longest l t h.isLexeme h.front
  have short' := h.longest l' t' h'.isLexeme h'.front
  have front := List.prefix_of_prefix_length_le h.front h'.front short
  obtain rfl : l = l' := front.eq_of_length (Nat.le_antisymm short short')
  refine ⟨rfl, ?_⟩
  obtain rfl | ⟨word, spelled⟩ := h.isLexeme.unique h'.isLexeme
  · rfl
  · rw [h.wordFirst word spelled, h'.wordFirst word spelled]

/-- The longest lexeme of a text is that of every shorter text that it starts. -/
theorem Longest.restrict {before after : List Char} (h : Longest l t (l ++ (before ++ after))) :
    Longest l t (l ++ before) where
  isLexeme := h.isLexeme
  front := List.prefix_append _ _
  longest := by
    intro lexeme t isLexeme front
    refine h.longest lexeme t isLexeme (front.trans ?_)
    rw [← List.append_assoc]
    exact List.prefix_append _ _
  wordFirst := h.wordFirst

/-- No lexeme starts with a blank. -/
theorem Lexeme.head_not_blank (h : Lexeme (c :: cs) t) : isBlank c = false := by
  rw [← Bool.not_eq_true]
  intro blank
  have first := h.by_first
  obtain rfl | rfl | rfl | rfl | rfl := isBlank_iff.1 blank
  all_goals
    obtain ⟨s, spelled, -⟩ := first
    cases s <;> cases spelled

end Unique

/-! ## Sources -/

/-- The front of a text consists of blanks and of lexemes for the given tokens, each the longest one
where it starts. The rest is left. -/
inductive Splits : List Char → List Token → List Char → Prop
  | stop {rest} : Splits rest [] rest
  | blank {c cs ts rest} (blank : Blank c) (behind : Splits cs ts rest) : Splits (c :: cs) ts rest
  | lexeme {l t cs ts rest} (longest : Longest l t (l ++ cs)) (fits : Fits t)
    (behind : Splits cs ts rest) : Splits (l ++ cs) (t :: ts) rest

/-- A text that starts at an offset of the source cannot be split any further, for the reason
that the error gives. -/
inductive Refused (offset : Nat) : List Char → ExprError → Prop
  | openText {quote cs} (quotes : Quote quote) (none : NoLexeme (quote :: cs)) :
    Refused offset (quote :: cs) (.unterminatedText offset)
  | tooLarge {l n cs} (longest : Longest l (.int n) (l ++ cs)) (large : ¬Fits (.int n)) :
    Refused offset (l ++ cs) (.malformed (.numberTooLarge (String.ofList l)))
  | noLexeme {c cs} (noBlank : ¬Blank c) (noDigit : ¬Digit c) (noQuote : ¬Quote c)
    (none : NoLexeme (c :: cs)) : Refused offset (c :: cs) (.unexpectedChar c offset)

section Sources

variable {c : Char} {cs l rest : List Char} {t : Token} {ts : List Token} {offset : Nat}
    {e : ExprError}

theorem Lexeme.exists_head (h : Lexeme l t) (cs : List Char) :
    ∃ c tail, l ++ cs = c :: tail ∧ isBlank c = false := by
  obtain ⟨c, tail, rfl⟩ := List.exists_cons_of_ne_nil h.ne_nil
  exact ⟨c, tail ++ cs, rfl, h.head_not_blank⟩

theorem longest_of_scan {s : Scanned (c :: cs)} (hs : scan c cs = .ok s) :
    Longest s.lexeme s.token (s.lexeme ++ s.rest) ∧ Fits s.token := by
  have decided := scan_decides c cs
  rw [hs] at decided
  cases decided with
  | @found l _ _ split longest fits =>
    have same : s.lexeme = l := List.append_cancel_right (s.source_eq.symm.trans split)
    rw [same, ← split]
    exact ⟨longest, fits⟩

/-- The longest lexeme is what is scanned. -/
theorem tokensFrom_lexeme (longest : Longest l t (l ++ cs)) (fits : Fits t) (offset : Nat) :
    tokensFrom offset (l ++ cs) = (tokensFrom (offset + byteLength l) cs).map (t :: ·) := by
  obtain ⟨c, tail, hsource, noBlank⟩ := longest.isLexeme.exists_head cs
  rw [hsource] at longest ⊢
  rw [tokensFrom, if_neg (by simp [noBlank])]
  cases hs : scan c tail with
  | ok s =>
    have longest' := (longest_of_scan hs).1
    rw [← s.source_eq] at longest'
    obtain ⟨rfl, rfl⟩ := longest.unique longest'
    obtain rfl : cs = s.rest := List.append_cancel_left (hsource.trans s.source_eq)
    dsimp only
    cases tokensFrom (offset + byteLength s.lexeme) s.rest <;> rfl
  | error fault =>
    have decided := scan_decides c tail
    rw [hs] at decided
    cases decided with
    | tooLarge split longest' large =>
      obtain ⟨-, rfl⟩ := longest.unique longest'
      exact absurd fits large
    | nothing none => exact absurd longest.front (none l t longest.isLexeme)

theorem Refused.not_blank (h : Refused offset (c :: cs) e) : ¬Blank c := by
  generalize hsource : c :: cs = source at h
  cases h with
  | openText quotes =>
    obtain ⟨rfl, -⟩ := List.cons.inj hsource
    obtain rfl | rfl := quotes <;> simp [Blank]
  | tooLarge longest =>
    obtain ⟨c', tail, head, noBlank⟩ := longest.isLexeme.exists_head _
    obtain ⟨rfl, -⟩ := List.cons.inj (hsource.trans head)
    rw [← isBlank_iff, noBlank]
    exact Bool.false_ne_true
  | noLexeme noBlank =>
    obtain ⟨rfl, -⟩ := List.cons.inj hsource
    exact noBlank

theorem Refused.not_fits (h : Refused offset rest e) (longest : Longest l t rest) : ¬Fits t := by
  cases h with
  | openText _ none => exact absurd longest.front (none l t longest.isLexeme)
  | tooLarge longest' large =>
    obtain ⟨-, rfl⟩ := longest.unique longest'
    exact large
  | noLexeme _ _ _ none => exact absurd longest.front (none l t longest.isLexeme)

theorem Refused.unique {e' : ExprError} (h : Refused offset rest e) (h' : Refused offset rest e') :
    e = e' := by
  cases h with
  | openText quotes none =>
    generalize hsource : _ :: _ = source at h' none
    cases h' with
    | openText => rfl
    | tooLarge longest => exact absurd longest.front (none _ _ longest.isLexeme)
    | noLexeme _ _ noQuote =>
      obtain ⟨rfl, -⟩ := List.cons.inj hsource
      exact absurd quotes noQuote
  | @tooLarge l n cs longest large =>
    generalize l ++ cs = source at h' longest
    cases h' with
    | openText _ none => exact absurd longest.front (none _ _ longest.isLexeme)
    | tooLarge longest' =>
      obtain ⟨rfl, -⟩ := longest.unique longest'
      rfl
    | noLexeme _ _ _ none => exact absurd longest.front (none _ _ longest.isLexeme)
  | noLexeme _ _ noQuote none =>
    generalize hsource : _ :: _ = source at h' none
    cases h' with
    | openText quotes =>
      obtain ⟨rfl, -⟩ := List.cons.inj hsource
      exact absurd quotes noQuote
    | tooLarge longest => exact absurd longest.front (none _ _ longest.isLexeme)
    | noLexeme =>
      obtain ⟨rfl, -⟩ := List.cons.inj hsource
      rfl

/-- What is wrong at a place where nothing could be scanned is why it is refused. -/
theorem Decided.refused {fault : Fault} (decided : Decided (c :: cs) (.error fault))
    (noBlank : ¬Blank c) (offset : Nat) : Refused offset (c :: cs) (faultAt offset c fault) := by
  cases decided with
  | tooLarge split longest large =>
    rw [split] at longest ⊢
    exact .tooLarge longest large
  | nothing none noDigit =>
    dsimp only [faultAt]
    split
    · next quotes => exact .openText quotes none
    · next noQuote => exact .noLexeme noBlank (noDigit c rfl) noQuote none

/-- Where a text cannot be split further, its error is reported. -/
theorem Refused.tokensFrom (h : Refused offset rest e) : tokensFrom offset rest = .error e := by
  obtain ⟨c, cs, rfl⟩ : ∃ c cs, rest = c :: cs := by
    cases h with
    | openText => exact ⟨_, _, rfl⟩
    | tooLarge longest =>
      obtain ⟨c, cs, head, -⟩ := longest.isLexeme.exists_head _
      exact ⟨c, cs, head⟩
    | noLexeme => exact ⟨_, _, rfl⟩
  rw [Lexer.tokensFrom, if_neg (mt isBlank_iff.1 h.not_blank)]
  have decided := scan_decides c cs
  cases hs : scan c cs with
  | ok s =>
    rw [hs] at decided
    cases decided with
    | found _ longest fits => exact absurd fits (h.not_fits longest)
  | error fault =>
    rw [hs] at decided
    exact congrArg Except.error ((decided.refused h.not_blank offset).unique h)

theorem byteLength_append (l cs : List Char) :
    byteLength (l ++ cs) = byteLength l + byteLength cs := by
  induction l with
  | nil => exact (Nat.zero_add _).symm
  | cons c l ih =>
    show c.utf8Size + byteLength (l ++ cs) = c.utf8Size + byteLength l + byteLength cs
    rw [ih, Nat.add_assoc]

theorem utf8ByteSize_ofList (cs : List Char) : (String.ofList cs).utf8ByteSize = byteLength cs := by
  induction cs with
  | nil => rfl
  | cons c cs ih =>
    rw [← List.singleton_append, String.ofList_append, String.utf8ByteSize_append, ih,
      ← String.singleton_eq_ofList, String.utf8ByteSize_singleton]
    rfl

/-- The tokens of a text are those of what is split off and those of the rest. By itself, what is
split off has the same tokens. -/
theorem Splits.tokensFrom (h : Splits cs ts rest) :
    ∃ before, cs = before ++ rest ∧ Splits before ts [] ∧ ∀ offset,
      tokensFrom offset cs = (tokensFrom (offset + byteLength before) rest).map (ts ++ ·) := by
  induction h with
  | @stop rest =>
    refine ⟨[], rfl, .stop, fun offset => ?_⟩
    show Lexer.tokensFrom offset rest = (Lexer.tokensFrom offset rest).map fun ts => ts
    cases Lexer.tokensFrom offset rest <;> rfl
  | @blank c cs ts rest blank _ ih =>
    obtain ⟨before, rfl, splits, same⟩ := ih
    refine ⟨c :: before, rfl, .blank blank splits, fun offset => ?_⟩
    rw [Lexer.tokensFrom, if_pos (isBlank_iff.2 blank), same, Nat.add_assoc]
    rfl
  | @lexeme l t cs ts rest longest fits _ ih =>
    obtain ⟨before, rfl, splits, same⟩ := ih
    refine ⟨l ++ before, (List.append_assoc ..).symm, .lexeme longest.restrict fits splits,
      fun offset => ?_⟩
    rw [tokensFrom_lexeme longest fits, same, byteLength_append, Nat.add_assoc]
    cases Lexer.tokensFrom _ rest <;> rfl

theorem splits_of_tokensFrom (h : tokensFrom offset cs = .ok ts) : Splits cs ts [] := by
  have lexes := lexes_of_tokensFrom h
  clear h
  induction lexes with
  | nil => exact .stop
  | blank isBlank _ ih => exact .blank (isBlank_iff.1 isBlank) ih
  | @lexeme c cs rest t ts _ first _ ih =>
    have decided := scan_decides c cs
    rw [first] at decided
    cases decided with
    | found split longest fits =>
      rw [split] at longest ⊢
      exact .lexeme longest fits ih

theorem refused_of_tokensFrom (h : tokensFrom offset cs = .error e) :
    ∃ before rest ts, cs = before ++ rest ∧ Splits cs ts rest ∧
      Refused (offset + byteLength before) rest e := by
  fun_induction tokensFrom offset cs with
  | case1 => cases h
  | case2 offset c tail hc ih =>
    obtain ⟨before, rest, ts, rfl, splits, refused⟩ := ih h
    refine ⟨c :: before, rest, ts, rfl, .blank (isBlank_iff.1 hc) splits, ?_⟩
    rw [Nat.add_assoc] at refused
    exact refused
  | case3 offset c tail hc fault hs =>
    cases h
    have decided := scan_decides c tail
    rw [hs] at decided
    exact ⟨[], c :: tail, [], rfl, .stop, decided.refused (mt isBlank_iff.2 hc) offset⟩
  | case4 offset c tail hc s hs ih =>
    cases htail : tokensFrom (offset + byteLength s.lexeme) s.rest with
    | ok ts =>
      rw [htail] at h
      cases h
    | error e' =>
      rw [htail] at h
      cases h
      obtain ⟨before, rest, ts, hrest, splits, refused⟩ := ih htail
      obtain ⟨longest, fits⟩ := longest_of_scan hs
      have splits' := Splits.lexeme longest fits splits
      rw [← s.source_eq] at splits'
      refine ⟨s.lexeme ++ before, rest, s.token :: ts, ?_, splits', ?_⟩
      · rw [List.append_assoc, ← hrest]
        exact s.source_eq
      · rwa [byteLength_append, ← Nat.add_assoc]

/-- Splitting leaves no choice: of two splits, one goes on from the other. -/
theorem Splits.linear {ts' : List Token} {rest' : List Char} (h : Splits cs ts rest)
    (h' : Splits cs ts' rest') :
    (∃ more, Splits rest more rest') ∨ ∃ more, Splits rest' more rest := by
  induction h generalizing ts' with
  | stop => exact .inl ⟨ts', h'⟩
  | @blank c cs ts rest blank behind ih =>
    generalize hsource : c :: cs = source at h'
    cases h' with
    | stop => exact .inr ⟨ts, hsource ▸ .blank blank behind⟩
    | blank _ behind' =>
      obtain ⟨rfl, rfl⟩ := List.cons.inj hsource
      exact ih behind'
    | @lexeme l _ cs' _ _ longest =>
      obtain ⟨c', tail, head, noBlank⟩ := longest.isLexeme.exists_head cs'
      obtain ⟨rfl, -⟩ := List.cons.inj (hsource.trans head)
      rw [isBlank_iff.2 blank] at noBlank
      cases noBlank
  | @lexeme l t cs ts rest longest fits behind ih =>
    generalize hsource : l ++ cs = source at h'
    cases h' with
    | stop => exact .inr ⟨t :: ts, hsource ▸ .lexeme longest fits behind⟩
    | blank blank =>
      obtain ⟨c', tail, head, noBlank⟩ := longest.isLexeme.exists_head cs
      obtain ⟨rfl, -⟩ := List.cons.inj (hsource.symm.trans head)
      rw [isBlank_iff.2 blank] at noBlank
      cases noBlank
    | @lexeme l' _ cs' _ _ longest' _ behind' =>
      rw [hsource] at longest
      obtain ⟨rfl, -⟩ := longest.unique longest'
      obtain rfl := List.append_cancel_left hsource
      exact ih behind'

/-- Nothing is split off where a text is refused. -/
theorem Refused.stops {more : List Token} {rest' : List Char} (h : Refused offset rest e)
    (h' : Splits rest more rest') : rest' = rest := by
  cases h' with
  | stop => rfl
  | blank blank => exact absurd blank h.not_blank
  | lexeme longest fits => exact absurd fits (h.not_fits longest)

end Sources

/-- A source has the tokens that it is split into at the longest lexemes. Where it cannot be
split to its end, the error is that of the one place where splitting is refused: all before
it is split, no other place is refused, and the error tells its offset in bytes or the
number that stands there. -/
theorem tokenize_takes_longest (source : String) :
    (∀ ts, tokenize source = .ok ts ↔ Splits source.toList ts []) ∧
      ∀ e, tokenize source = .error e ↔
        ∃ before rest ts, source.toList = before ++ rest ∧ Splits source.toList ts rest ∧
          Splits before ts [] ∧ Refused (String.ofList before).utf8ByteSize rest e ∧
          ∀ ts' rest' offset e', Splits source.toList ts' rest' → Refused offset rest' e' →
            rest' = rest := by
  have whole (before : List Char) :
      0 + byteLength before = (String.ofList before).utf8ByteSize := by
    rw [utf8ByteSize_ofList, Nat.zero_add]
  refine ⟨fun ts => ⟨splits_of_tokensFrom, ?_⟩, fun e => ⟨?_, ?_⟩⟩
  · intro splits
    obtain ⟨before, -, -, same⟩ := splits.tokensFrom
    rw [tokenize, same 0, tokensFrom]
    exact congrArg Except.ok (List.append_nil ts)
  · intro failed
    obtain ⟨before, rest, ts, hsource, splits, refused⟩ := refused_of_tokensFrom failed
    obtain ⟨before', hsource', alone, -⟩ := splits.tokensFrom
    obtain rfl := List.append_cancel_right (hsource.symm.trans hsource')
    rw [whole] at refused
    refine ⟨before, rest, ts, hsource, splits, alone, refused, ?_⟩
    intro ts' rest' offset e' splits' refused'
    obtain ⟨more, further⟩ | ⟨more, further⟩ := splits.linear splits'
    · exact refused.stops further
    · exact (refused'.stops further).symm
  · rintro ⟨before, rest, ts, hsource, splits, -, refused, -⟩
    obtain ⟨before', hsource', -, same⟩ := splits.tokensFrom
    obtain rfl := List.append_cancel_right (hsource.symm.trans hsource')
    rw [tokenize, same 0, whole, refused.tokensFrom]
    rfl

/-- A point behind a number is an operator where no digit follows, a word goes on as a name, and a
number that is too large is the first thing wrong, though a text is open behind it. -/
example : tokenize "1.a 1.5.2" =
    .ok [.int 1, .symbol .dot, .ident "a", .float (Numeral.nearest 15 (-1)), .symbol .dot, .int 2] ∧
    tokenize "trueish<=true" = .ok [.ident "trueish", .symbol .le, .keyword .true] ∧
    tokenize "é" = .error (.unexpectedChar 'é' 0) ∧
    tokenize "'é' \"a" = .error (.unterminatedText 5) ∧
    tokenize "9223372036854775808 'a" =
      .error (.malformed (.numberTooLarge "9223372036854775808")) := by
  decide +kernel

end StepFlow.Lexer
