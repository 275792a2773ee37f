import StepFlow.Proofs.Expression.Lexing

/-!
# The longest lexeme at a place

The lexemes of each kind of token are given by what they consist of, without regard to how they
are found: `Lexeme` relates a lexeme to its token. Kinds overlap: a word is spelled like a
name, a number with a fraction begins with a whole number, and some symbols begin with others.
So at a place of a source the longest lexeme counts, and of two kinds with the same lexeme a
word counts before a name.

`scan_decides` says that scanning finds just this lexeme. A whole number beyond 64 bits is a lexeme
like any other here, whose token is then refused.
-/

namespace StepFlow.Symbol

theorem mem_all (s : Symbol) : s ∈ all := by
  cases s <;> decide

theorem longer_first : all.Pairwise fun s s' => s'.spelling.length ≤ s.spelling.length := by
  decide

theorem eq_of_spelling {s s' : Symbol} (h : s.spelling = s'.spelling) : s = s' := by
  have apart : ∀ s ∈ all, ∀ s' ∈ all, s.spelling = s'.spelling → s = s' := by decide
  exact apart s s.mem_all s' s'.mem_all h

end StepFlow.Symbol

namespace StepFlow.Lexer

/-! ## Characters -/

/-- What separates lexemes: space, tab, carriage return, line feed and form feed. -/
def Blank (c : Char) : Prop := c = ' ' ∨ c = '\t' ∨ c = '\r' ∨ c = '\n' ∨ c = '\x0c'

def Digit (c : Char) : Prop := '0' ≤ c ∧ c ≤ '9'

def NameStart (c : Char) : Prop :=
  ('a' ≤ c ∧ c ≤ 'z') ∨ ('A' ≤ c ∧ c ≤ 'Z') ∨ c = '_' ∨ c = '$'

def NameChar (c : Char) : Prop := NameStart c ∨ Digit c

def Quote (c : Char) : Prop := c = '"' ∨ c = '\''

section Characters

variable {c : Char}

theorem isBlank_iff : isBlank c = true ↔ Blank c := by
  simp only [isBlank, Blank, Bool.or_eq_true, decide_eq_true_eq, or_assoc]

theorem isDigit_iff : c.isDigit = true ↔ Digit c := by
  simp only [Char.isDigit, Digit, Char.le_def, Bool.and_eq_true, decide_eq_true_eq]

theorem isNameStart_iff : isNameStart c = true ↔ NameStart c := by
  have upper : c.isUpper = true ↔ 'A' ≤ c ∧ c ≤ 'Z' := decide_eq_true_iff
  have lower : c.isLower = (decide ('a' ≤ c) && decide (c ≤ 'z')) := rfl
  have alpha : c.isAlpha = (c.isUpper || c.isLower) := rfl
  simp only [isNameStart, alpha, upper, lower, NameStart, Bool.or_eq_true, Bool.and_eq_true,
    decide_eq_true_eq, or_assoc]
  exact or_left_comm

theorem isNameChar_iff : isNameChar c = true ↔ NameChar c := by
  rw [isNameChar, Bool.or_eq_true, isNameStart_iff, isDigit_iff, NameChar]

theorem Quote.isDigit_eq_false (h : Quote c) : c.isDigit = false := by
  obtain rfl | rfl := h <;> decide

theorem NameStart.isDigit_eq_false (h : NameStart c) : c.isDigit = false := by
  rw [← Bool.not_eq_true, isDigit_iff]
  rintro ⟨low, high⟩
  obtain ⟨low', -⟩ | ⟨low', -⟩ | rfl | rfl := h
  · exact absurd (Char.le_trans low' high) (by decide)
  · exact absurd (Char.le_trans low' high) (by decide)
  · exact absurd high (by decide)
  · exact absurd low (by decide)

theorem NameStart.not_quote (h : NameStart c) : ¬(c = '"' ∨ c = '\'') := by
  rw [← isNameStart_iff] at h
  rintro (rfl | rfl) <;> exact absurd h (by decide)

end Characters

/-! ## Lexemes -/

def Digits (ds : List Char) : Prop := ds ≠ [] ∧ ∀ c ∈ ds, Digit c

/-- What is written between two quotes, and the text that it stands for. -/
inductive Body (quote : Char) : List Char → List Char → Prop
  | nil : Body quote [] []
  | plain {c cs ds} (noQuote : c ≠ quote) (noEscape : c ≠ '\\') (rest : Body quote cs ds) :
    Body quote (c :: cs) (c :: ds)
  | lineFeed {cs ds} (rest : Body quote cs ds) : Body quote ('\\' :: 'n' :: cs) ('\n' :: ds)
  | tab {cs ds} (rest : Body quote cs ds) : Body quote ('\\' :: 't' :: cs) ('\t' :: ds)
  | carriageReturn {cs ds} (rest : Body quote cs ds) : Body quote ('\\' :: 'r' :: cs) ('\r' :: ds)
  /-- Any other character behind a backslash stands for itself. A line feed cannot stand there. -/
  | itself {c cs ds} (other : c ≠ 'n' ∧ c ≠ 't' ∧ c ≠ 'r' ∧ c ≠ '\n') (rest : Body quote cs ds) :
    Body quote ('\\' :: c :: cs) (c :: ds)

/-- The lexemes with their tokens. A whole number may be of any size. -/
inductive Lexeme : List Char → Token → Prop
  | int {ds} (digits : Digits ds) : Lexeme ds (.int (Nat.ofDigitChars 10 ds 0))
  | float {whole fraction} (before : Digits whole) (behind : Digits fraction) :
    Lexeme (whole ++ '.' :: fraction)
      (.float
        (Numeral.nearest (Nat.ofDigitChars 10 (whole ++ fraction) 0) (-(fraction.length : Int))))
  | text {quote body meant} (quotes : Quote quote) (inside : Body quote body meant) :
    Lexeme (quote :: body ++ [quote]) (.text (String.ofList meant))
  | name {c cs} (start : NameStart c) (rest : ∀ d ∈ cs, NameChar d) :
    Lexeme (c :: cs) (.ident (String.ofList (c :: cs)))
  | word (word : Keyword) : Lexeme word.spelling (.keyword word)
  | symbol (s : Symbol) : Lexeme s.spelling (.symbol s)

/-- The longest lexeme at the front of a text, with its token. A word is no name. -/
structure Longest (lexeme : List Char) (t : Token) (source : List Char) : Prop where
  isLexeme : Lexeme lexeme t
  front : lexeme <+: source
  longest : ∀ lexeme' t', Lexeme lexeme' t' → lexeme' <+: source → lexeme'.length ≤ lexeme.length
  wordFirst : ∀ word : Keyword, lexeme = word.spelling → t = .keyword word

/-- A token that is a whole number fits signed 64 bits. -/
def Fits (t : Token) : Prop := ∀ n, t = .int n → n < 9223372036854775808

/-- No lexeme starts a text. -/
def NoLexeme (source : List Char) : Prop := ∀ lexeme t, Lexeme lexeme t → ¬lexeme <+: source

/-! ## Digits -/

section Digits

variable {ds cs rest l : List Char} {c d : Char} {p : Char → Bool}

theorem Digits.isDigit (h : Digits ds) : ∀ c ∈ ds, c.isDigit = true :=
  fun c hc => isDigit_iff.2 (h.2 c hc)

/-- A number is what its digits say in base ten. -/
theorem numeral_eq (h : ∀ c ∈ ds, c.isDigit = true) : numeral ds = Nat.ofDigitChars 10 ds 0 := by
  have digits : (Numeral.digits ds).1 = ds.map fun c => c.toNat - '0'.toNat := by
    induction ds with
    | nil => rfl
    | cons c rest ih =>
      obtain ⟨hc, hrest⟩ := List.forall_mem_cons.1 h
      rw [Numeral.digits, Numeral.digit?, if_pos hc]
      simp only [List.map_cons, ih hrest]
  rw [numeral, digits, Numeral.ofDigits, List.foldl_map]
  rfl

/-- What consists of characters of one class does not reach beyond all of them at the front. -/
theorem prefix_takeWhile (h : l <+: cs) (inside : ∀ c ∈ l, p c = true) : l <+: cs.takeWhile p := by
  obtain ⟨rest, rfl⟩ := h
  rw [List.takeWhile_append_of_pos inside]
  exact List.prefix_append _ _

theorem digits_takeWhile (hc : c.isDigit = true) (cs : List Char) :
    Digits (c :: cs.takeWhile Char.isDigit) := by
  refine ⟨List.cons_ne_nil _ _, List.forall_mem_cons.2 ⟨isDigit_iff.1 hc, ?_⟩⟩
  intro d hd
  exact isDigit_iff.1 (List.mem_takeWhile_imp hd)

theorem fraction?_eq_some :
    fraction? cs = some (d, rest) ↔ cs = '.' :: d :: rest ∧ d.isDigit = true := by
  unfold fraction?
  constructor
  · intro h
    split at h
    · split at h
      · next hd =>
        cases h
        exact ⟨rfl, hd⟩
      · cases h
    · cases h
  · rintro ⟨rfl, hd⟩
    exact if_pos hd

end Digits

/-! ## Which lexemes start with a character -/

/-- The lexemes that start with a digit. -/
def NumberLexeme (l : List Char) (t : Token) : Prop :=
  Digits l ∧ t = .int (Nat.ofDigitChars 10 l 0) ∨
    ∃ whole fraction, Digits whole ∧ Digits fraction ∧ l = whole ++ '.' :: fraction ∧
      t = .float
        (Numeral.nearest (Nat.ofDigitChars 10 (whole ++ fraction) 0) (-(fraction.length : Int)))

/-- The lexemes that start with a letter. -/
def NameLexeme (c : Char) (cs : List Char) (t : Token) : Prop :=
  (∀ d ∈ cs, isNameChar d = true) ∧
    (t = .ident (String.ofList (c :: cs)) ∨
      ∃ word : Keyword, word.spelling = c :: cs ∧ t = .keyword word)

/-- The first character of a lexeme tells what else it can consist of. -/
theorem Lexeme.by_first {c : Char} {cs : List Char} {t : Token} (h : Lexeme (c :: cs) t) :
    if c.isDigit then NumberLexeme (c :: cs) t
    else if c = '"' ∨ c = '\'' then
      ∃ body meant, Body c body meant ∧ cs = body ++ [c] ∧ t = .text (String.ofList meant)
    else if isNameStart c then NameLexeme c cs t
    else ∃ s : Symbol, s.spelling = c :: cs ∧ t = .symbol s := by
  generalize hl : c :: cs = l at h
  cases h with
  | int digits =>
    subst hl
    rw [if_pos (digits.isDigit c List.mem_cons_self)]
    exact .inl ⟨digits, rfl⟩
  | @float whole fraction before behind =>
    cases whole with
    | nil => exact absurd rfl before.1
    | cons d whole =>
      obtain ⟨rfl, rfl⟩ := List.cons.inj hl
      rw [if_pos (before.isDigit _ List.mem_cons_self)]
      exact .inr ⟨_, _, before, behind, rfl, rfl⟩
  | text quotes inside =>
    obtain ⟨rfl, rfl⟩ := List.cons.inj hl
    rw [if_neg (by simp [quotes.isDigit_eq_false]), if_pos (show c = '"' ∨ c = '\'' from quotes)]
    exact ⟨_, _, inside, rfl, rfl⟩
  | name start rest =>
    obtain ⟨rfl, rfl⟩ := List.cons.inj hl
    rw [if_neg (by simp [start.isDigit_eq_false]), if_neg start.not_quote,
      if_pos (isNameStart_iff.2 start)]
    exact ⟨fun d hd => isNameChar_iff.2 (rest d hd), .inl rfl⟩
  | word word =>
    cases word <;> obtain ⟨rfl, rfl⟩ := List.cons.inj hl
    · exact ⟨List.all_eq_true.1 rfl, .inr ⟨.true, rfl, rfl⟩⟩
    · exact ⟨List.all_eq_true.1 rfl, .inr ⟨.false, rfl, rfl⟩⟩
    · exact ⟨List.all_eq_true.1 rfl, .inr ⟨.null, rfl, rfl⟩⟩
  | symbol s =>
    have apart : c.isDigit = false ∧ ¬(c = '"' ∨ c = '\'') ∧ isNameStart c = false := by
      cases s <;> obtain ⟨rfl, -⟩ := List.cons.inj hl <;> decide
    obtain ⟨digit, quote, start⟩ := apart
    rw [if_neg (by simp [digit]), if_neg quote, if_neg (by simp [start])]
    exact ⟨s, rfl, rfl⟩

theorem Lexeme.ne_nil {l : List Char} {t : Token} (h : Lexeme l t) : l ≠ [] := by
  cases h with
  | int digits => exact digits.1
  | float => simp
  | text => simp
  | name => simp
  | word word => cases word <;> exact List.cons_ne_nil _ _
  | symbol s => cases s <;> exact List.cons_ne_nil _ _

theorem Lexeme.exists_cons {l cs : List Char} {t : Token} {c : Char} (h : Lexeme l t)
    (front : l <+: c :: cs) : ∃ l', l = c :: l' ∧ l' <+: cs := by
  cases l with
  | nil => exact absurd rfl h.ne_nil
  | cons d l' =>
    obtain ⟨rfl, front'⟩ := List.cons_prefix_cons.1 front
    exact ⟨l', rfl, front'⟩

theorem isNameStart_of_spelling {word : Keyword} {c : Char} {cs : List Char}
    (h : c :: cs = word.spelling) : isNameStart c = true := by
  cases word <;> cases h <;> rfl

/-! ## Numbers -/

section Numbers

variable {c d : Char} {tail rest whole fraction : List Char}

/-- The whole part and the fraction of a number at the front of a text are those that are scanned,
as far as the fraction goes. -/
theorem fraction_of_front (before : Digits whole) (behind : Digits fraction)
    (front : whole ++ '.' :: fraction <+: c :: tail) :
    ∃ d more rest, whole = c :: tail.takeWhile Char.isDigit ∧ fraction = d :: more ∧
      fraction? (tail.dropWhile Char.isDigit) = some (d, rest) ∧
      more <+: rest.takeWhile Char.isDigit := by
  obtain ⟨after, hafter⟩ := front
  cases whole with
  | nil => exact absurd rfl before.1
  | cons w ws =>
    obtain ⟨rfl, htail⟩ := List.cons.inj hafter
    have inside : ∀ x ∈ ws, x.isDigit = true :=
      fun x hx => before.isDigit x (List.mem_cons_of_mem _ hx)
    cases fraction with
    | nil => exact absurd rfl behind.1
    | cons d more =>
      obtain ⟨hd, hmore⟩ := List.forall_mem_cons.1 behind.isDigit
      replace htail : tail = ws ++ '.' :: d :: (more ++ after) := by
        rw [← htail]
        exact List.append_assoc _ _ _
      have stop : ('.' : Char).isDigit = false := by decide
      refine ⟨d, more, more ++ after, ?_, rfl, ?_, ?_⟩
      · rw [htail, takeWhile_append_stop stop, List.takeWhile_eq_self_iff.2 inside]
      · rw [htail, dropWhile_append_stop stop, List.dropWhile_eq_nil_iff.2 inside]
        exact fraction?_eq_some.2 ⟨rfl, hd⟩
      · exact prefix_takeWhile (List.prefix_append _ _) hmore

/-- Digits that no fraction follows are the longest lexeme. -/
theorem longest_int (hc : c.isDigit = true)
    (none : fraction? (tail.dropWhile Char.isDigit) = none) :
    Longest (c :: tail.takeWhile Char.isDigit)
      (.int (Nat.ofDigitChars 10 (c :: tail.takeWhile Char.isDigit) 0)) (c :: tail) where
  isLexeme := .int (digits_takeWhile hc tail)
  front := List.cons_prefix_cons.2 ⟨rfl, List.takeWhile_prefix _⟩
  longest := by
    intro l t isLexeme front
    obtain ⟨l, rfl, front'⟩ := isLexeme.exists_cons front
    have number := isLexeme.by_first
    rw [if_pos hc] at number
    obtain ⟨digits, -⟩ | ⟨whole, fraction, before, behind, hl, -⟩ := number
    · have inside := (List.forall_mem_cons.1 digits.isDigit).2
      exact Nat.succ_le_succ (prefix_takeWhile front' inside).length_le
    · rw [hl] at front
      obtain ⟨d, more, rest, -, -, some, -⟩ := fraction_of_front before behind front
      rw [none] at some
      cases some
  wordFirst := by
    intro word spelled
    have start := isNameStart_iff.1 (isNameStart_of_spelling spelled)
    rw [start.isDigit_eq_false] at hc
    cases hc

/-- Digits with a fraction are the longest lexeme, with all digits that the fraction has. -/
theorem longest_float (hc : c.isDigit = true)
    (some : fraction? (tail.dropWhile Char.isDigit) = some (d, rest)) :
    Longest (c :: tail.takeWhile Char.isDigit ++ '.' :: d :: rest.takeWhile Char.isDigit)
      (.float (Numeral.nearest
        (Nat.ofDigitChars 10
          (c :: tail.takeWhile Char.isDigit ++ d :: rest.takeWhile Char.isDigit) 0)
        (-((d :: rest.takeWhile Char.isDigit).length : Int)))) (c :: tail) := by
  obtain ⟨after, hd⟩ := fraction?_eq_some.1 some
  have behind := digits_takeWhile hd rest
  refine ⟨.float (digits_takeWhile hc tail) behind, ?_, ?_, ?_⟩
  · have split : c :: tail.takeWhile Char.isDigit ++ '.' :: d :: rest = c :: tail := by
      rw [List.cons_append, ← after, List.takeWhile_append_dropWhile]
    rw [← split, List.prefix_append_right_inj]
    exact List.cons_prefix_cons.2 ⟨rfl, List.cons_prefix_cons.2 ⟨rfl, List.takeWhile_prefix _⟩⟩
  · intro l t isLexeme front
    obtain ⟨l, rfl, front'⟩ := isLexeme.exists_cons front
    have number := isLexeme.by_first
    rw [if_pos hc] at number
    obtain ⟨digits, -⟩ | ⟨whole, fraction, before', behind', hl, -⟩ := number
    · have inside := (List.forall_mem_cons.1 digits.isDigit).2
      have short := (prefix_takeWhile front' inside).length_le
      simp only [List.length_cons, List.length_append]
      omega
    · rw [hl] at front
      obtain ⟨d', more, rest', rfl, rfl, some', more_front⟩ :=
        fraction_of_front before' behind' front
      cases some.symm.trans some'
      have short := more_front.length_le
      rw [hl]
      simp only [List.length_cons, List.length_append]
      omega
  · intro word spelled
    have start := isNameStart_iff.1 (isNameStart_of_spelling spelled)
    rw [start.isDigit_eq_false] at hc
    cases hc

end Numbers

/-! ## Texts -/

section Texts

variable {quote c : Char} {cs body meant after rest : List Char}

theorem Quote.ne_backslash (h : Quote quote) : quote ≠ '\\' := by
  obtain rfl | rfl := h <;> decide

theorem unescape_cons (h : c ≠ '\\') (cs : List Char) : unescape (c :: cs) = c :: unescape cs := by
  rw [unescape.eq_def]
  split
  · next h' => cases h'
  · next h' => exact absurd (List.cons.inj h').1 h
  · next h' => exact absurd (List.cons.inj h').1 h
  · next h' =>
    obtain ⟨rfl, rfl⟩ := List.cons.inj h'
    rfl

/-- What is split off in front of a closing quote is written as a text is, and stands for what it
says without its escapes. -/
theorem body_of_splitAtQuote (h : splitAtQuote quote cs = some (body, after)) :
    Body quote body (unescape body) := by
  fun_induction splitAtQuote quote cs generalizing body after with
  | case1 => cases h
  | case2 =>
    cases h
    exact .nil
  | case3 => cases h
  | case4 => cases h
  | case5 d rest hd hq ih =>
    obtain ⟨⟨b, a⟩, hs, hb⟩ := Option.map_eq_some_iff.1 h
    cases hb
    have inside := ih hs
    show Body quote _ (escaped d :: unescape b)
    unfold escaped
    split
    · next hn => exact hn ▸ .lineFeed inside
    · split
      · next ht => exact ht ▸ .tab inside
      · split
        · next hr => exact hr ▸ .carriageReturn inside
        · next hn ht hr => exact .itself ⟨hn, ht, hr, hd⟩ inside
  | case6 c rest hq hc ih =>
    obtain ⟨⟨b, a⟩, hs, hb⟩ := Option.map_eq_some_iff.1 h
    cases hb
    rw [unescape_cons hc]
    exact .plain hq hc (ih hs)

/-- What is written as a text is split off in front of the quote behind it. -/
theorem Body.splitAtQuote (h : Body quote body meant) (hq : quote ≠ '\\') (rest : List Char) :
    splitAtQuote quote (body ++ quote :: rest) = some (body, rest) := by
  induction h with
  | nil =>
    rw [List.nil_append, Lexer.splitAtQuote.eq_def]
    simp
  | plain noQuote noEscape _ ih =>
    rw [List.cons_append, Lexer.splitAtQuote.eq_def]
    simp [noQuote, noEscape, ih]
  | lineFeed _ ih | tab _ ih | carriageReturn _ ih =>
    rw [List.cons_append, List.cons_append, Lexer.splitAtQuote.eq_def]
    simp [hq.symm, ih]
  | itself other _ ih =>
    rw [List.cons_append, List.cons_append, Lexer.splitAtQuote.eq_def]
    simp [hq.symm, other.2.2.2, ih]

/-- A text with its quotes is the longest lexeme, no other text being one. -/
theorem longest_text (hq : Quote quote) (h : splitAtQuote quote cs = some (body, after)) :
    Longest (quote :: body ++ [quote]) (.text (String.ofList (unescape body))) (quote :: cs) where
  isLexeme := .text hq (body_of_splitAtQuote h)
  front := by
    refine ⟨after, ?_⟩
    rw [eq_append_of_splitAtQuote h]
    simp
  longest := by
    intro l t isLexeme front
    obtain ⟨l, rfl, rest, rfl⟩ := isLexeme.exists_cons front
    have text := isLexeme.by_first
    rw [if_neg (by simp [hq.isDigit_eq_false]),
      if_pos (show quote = '"' ∨ quote = '\'' from hq)] at text
    obtain ⟨body', meant, inside, rfl, -⟩ := text
    rw [List.append_assoc, List.singleton_append, inside.splitAtQuote hq.ne_backslash] at h
    cases h
    exact Nat.le_refl _
  wordFirst := by
    intro word spelled
    have start := isNameStart_iff.1 (isNameStart_of_spelling spelled)
    exact absurd hq start.not_quote

theorem noLexeme_of_open (hq : Quote quote) (h : splitAtQuote quote cs = none) :
    NoLexeme (quote :: cs) := by
  intro l t isLexeme front
  obtain ⟨l, rfl, rest, rfl⟩ := isLexeme.exists_cons front
  have text := isLexeme.by_first
  rw [if_neg (by simp [hq.isDigit_eq_false]),
    if_pos (show quote = '"' ∨ quote = '\'' from hq)] at text
  obtain ⟨body, meant, inside, rfl, -⟩ := text
  rw [List.append_assoc, List.singleton_append, inside.splitAtQuote hq.ne_backslash] at h
  cases h

end Texts

/-! ## Names and words -/

theorem nameToken_cases (name : List Char) :
    (∃ word : Keyword, name = word.spelling ∧ nameToken name = .keyword word) ∨
      (∀ word : Keyword, name ≠ word.spelling) ∧ nameToken name = .ident (String.ofList name) := by
  unfold nameToken
  split
  · next word found =>
    have spelled : word.spelling = name := by simpa using List.find?_some found
    exact .inl ⟨word, spelled.symm, rfl⟩
  · next missing =>
    refine .inr ⟨?_, rfl⟩
    rintro word rfl
    have apart := List.find?_eq_none.1 missing word (by cases word <;> simp)
    simp at apart

/-- All characters that a name can go on with make the longest lexeme. -/
theorem longest_name {c : Char} (start : isNameStart c = true) (cs : List Char) :
    Longest (c :: cs.takeWhile isNameChar) (nameToken (c :: cs.takeWhile isNameChar))
      (c :: cs) := by
  have named : NameStart c := isNameStart_iff.1 start
  refine ⟨?_, List.cons_prefix_cons.2 ⟨rfl, List.takeWhile_prefix _⟩, ?_, ?_⟩
  · obtain ⟨word, spelled, token⟩ | ⟨-, token⟩ := nameToken_cases (c :: cs.takeWhile isNameChar)
    · rw [token, spelled]
      exact .word word
    · rw [token]
      exact .name named fun d hd => isNameChar_iff.1 (List.mem_takeWhile_imp hd)
  · intro l t isLexeme front
    obtain ⟨l, rfl, front'⟩ := isLexeme.exists_cons front
    have name := isLexeme.by_first
    rw [if_neg (by simp [named.isDigit_eq_false]), if_neg named.not_quote, if_pos start] at name
    exact Nat.succ_le_succ (prefix_takeWhile front' name.1).length_le
  · intro word spelled
    obtain ⟨word', spelled', token⟩ | ⟨other, -⟩ := nameToken_cases (c :: cs.takeWhile isNameChar)
    · have same : word.spelling = word'.spelling := spelled.symm.trans spelled'
      rw [token]
      cases word <;> cases word' <;> first | rfl | cases same
    · exact absurd spelled (other word)

/-! ## Symbols -/

section Symbols

variable {c : Char} {cs : List Char}

/-- Where no other lexeme starts, those that do are symbols. -/
theorem symbol_of_front {l : List Char} {t : Token} (digit : c.isDigit = false)
    (quote : ¬(c = '"' ∨ c = '\'')) (start : isNameStart c = false) (isLexeme : Lexeme l t)
    (front : l <+: c :: cs) :
    ∃ s : Symbol, s.spelling = l ∧ t = .symbol s ∧ s.spelling.isPrefixOf (c :: cs) = true := by
  obtain ⟨l, rfl, -⟩ := isLexeme.exists_cons front
  have symbol := isLexeme.by_first
  rw [if_neg (by simp [digit]), if_neg quote, if_neg (by simp [start])] at symbol
  obtain ⟨s, spelled, token⟩ := symbol
  exact ⟨s, spelled, token, List.isPrefixOf_iff_prefix.2 (spelled ▸ front)⟩

theorem longest_symbol {s : Symbol} (digit : c.isDigit = false) (quote : ¬(c = '"' ∨ c = '\''))
    (start : isNameStart c = false)
    (found : Symbol.all.find? (fun s => s.spelling.isPrefixOf (c :: cs)) = some s) :
    Longest s.spelling (.symbol s) (c :: cs) := by
  obtain ⟨starts, earlier, later, all, apart⟩ := List.find?_eq_some_iff_append.1 found
  refine ⟨.symbol s, List.isPrefixOf_iff_prefix.1 starts, ?_, ?_⟩
  · intro l t isLexeme front
    obtain ⟨s', rfl, -, starts'⟩ := symbol_of_front digit quote start isLexeme front
    have mem := Symbol.mem_all s'
    have ordered := Symbol.longer_first
    rw [all] at mem ordered
    rcases List.mem_append.1 mem with mem | mem
    · have none := apart s' mem
      simp [starts'] at none
    · rcases List.mem_cons.1 mem with rfl | mem
      · exact Nat.le_refl _
      · exact (List.pairwise_cons.1 (List.pairwise_append.1 ordered).2.1).1 s' mem
  · intro word spelled
    obtain ⟨l, hl, -⟩ := (Lexeme.symbol s).exists_cons (List.isPrefixOf_iff_prefix.1 starts)
    rw [hl] at spelled
    rw [isNameStart_of_spelling spelled] at start
    cases start

theorem noLexeme_of_symbol (digit : c.isDigit = false) (quote : ¬(c = '"' ∨ c = '\''))
    (start : isNameStart c = false)
    (missing : Symbol.all.find? (fun s => s.spelling.isPrefixOf (c :: cs)) = none) :
    NoLexeme (c :: cs) := by
  intro l t isLexeme front
  obtain ⟨s, -, -, starts⟩ := symbol_of_front digit quote start isLexeme front
  exact List.find?_eq_none.1 missing s (Symbol.mem_all s) starts

end Symbols

/-! ## What scanning finds -/

/-- What scanning a text gives goes with the lexemes that start it. -/
inductive Decided (source : List Char) : Except Fault (Token × List Char) → Prop
  | found {l t rest} (split : source = l ++ rest) (longest : Longest l t source) (fits : Fits t) :
    Decided source (.ok (t, rest))
  | tooLarge {l n rest} (split : source = l ++ rest) (longest : Longest l (.int n) source)
    (large : ¬Fits (.int n)) : Decided source (.error (.numberTooLarge l))
  | nothing (none : NoLexeme source) (noDigit : ∀ c ∈ source.head?, ¬Digit c) :
    Decided source (.error .noLexeme)

theorem fits_int {n : Nat} : Fits (.int n) ↔ Number.FitsSigned (n : Int) := by
  constructor
  · intro h
    have := h n rfl
    exact ⟨by omega, by omega⟩
  · rintro ⟨-, h⟩ _ ⟨⟩
    omega

theorem Longest.split {l source : List Char} {t : Token} (h : Longest l t source) :
    ∃ rest, source = l ++ rest := by
  obtain ⟨rest, hrest⟩ := h.front
  exact ⟨rest, hrest.symm⟩

theorem decided_number {c : Char} (hc : c.isDigit = true) (tail : List Char) :
    Decided (c :: tail) (taken (scanNumber c tail)) := by
  have digits := (digits_takeWhile hc tail).isDigit
  rw [taken_scanNumber]
  cases hf : fraction? (tail.dropWhile Char.isDigit) with
  | some found =>
    obtain ⟨d, rest⟩ := found
    have longest := longest_float hc hf
    obtain ⟨after, hd⟩ := fraction?_eq_some.1 hf
    have all : ∀ x ∈ c :: tail.takeWhile Char.isDigit ++ d :: rest.takeWhile Char.isDigit,
        x.isDigit = true :=
      List.forall_mem_append.2 ⟨digits, (digits_takeWhile hd rest).isDigit⟩
    have split : c :: tail = c :: tail.takeWhile Char.isDigit ++
        '.' :: d :: rest.takeWhile Char.isDigit ++ rest.dropWhile Char.isDigit := by
      simp only [List.append_assoc, List.cons_append, List.takeWhile_append_dropWhile]
      rw [← after, List.takeWhile_append_dropWhile]
    dsimp only
    rw [numeral_eq all]
    exact .found split longest fun n h => nomatch h
  | none =>
    have longest := longest_int hc hf
    have split : c :: tail = c :: tail.takeWhile Char.isDigit ++ tail.dropWhile Char.isDigit := by
      rw [List.cons_append, List.takeWhile_append_dropWhile]
    dsimp only
    rw [numeral_eq digits]
    generalize Nat.ofDigitChars 10 (c :: tail.takeWhile Char.isDigit) 0 = n at longest ⊢
    by_cases fits : Number.FitsSigned n
    · rw [if_pos fits]
      exact .found split longest (fits_int.2 fits)
    · rw [if_neg fits]
      exact .tooLarge split longest fun h => fits (fits_int.1 h)

theorem decided_text {quote : Char} (hq : Quote quote) (tail : List Char) :
    Decided (quote :: tail) (taken (scanText quote tail)) := by
  rw [taken_scanText]
  cases hs : splitAtQuote quote tail with
  | none =>
    refine .nothing (noLexeme_of_open hq hs) ?_
    rintro _ ⟨⟩
    rw [← isDigit_iff, hq.isDigit_eq_false]
    exact Bool.false_ne_true
  | some found =>
    obtain ⟨body, after⟩ := found
    refine .found ?_ (longest_text hq hs) fun n h => nomatch h
    rw [eq_append_of_splitAtQuote hs]
    simp

theorem decided_name {c : Char} (start : isNameStart c = true) (tail : List Char) :
    Decided (c :: tail) (.ok ((scanName c tail).token, (scanName c tail).rest)) := by
  refine .found (scanName c tail).source_eq (longest_name start tail) ?_
  intro n h
  obtain ⟨word, -, token⟩ | ⟨-, token⟩ := nameToken_cases (c :: tail.takeWhile isNameChar)
  · cases token.symm.trans h
  · cases token.symm.trans h

theorem decided_symbol {c : Char} (digit : c.isDigit = false) (quote : ¬(c = '"' ∨ c = '\''))
    (start : isNameStart c = false) (tail : List Char) :
    Decided (c :: tail) (taken (scanSymbol (c :: tail))) := by
  rw [taken_scanSymbol]
  cases hf : Symbol.all.find? fun s => s.spelling.isPrefixOf (c :: tail) with
  | none =>
    refine .nothing (noLexeme_of_symbol digit quote start hf) ?_
    rintro _ ⟨⟩
    rw [← isDigit_iff, digit]
    exact Bool.false_ne_true
  | some s =>
    have longest := longest_symbol digit quote start hf
    obtain ⟨rest, split⟩ := longest.split
    refine .found ?_ longest fun n h => nomatch h
    rw [split, List.drop_left]

theorem scan_decides (c : Char) (tail : List Char) : Decided (c :: tail) (taken (scan c tail)) := by
  unfold scan
  split
  · next digit => exact decided_number digit tail
  · next digit =>
    split
    · next quote => exact decided_text quote tail
    · next quote =>
      split
      · next start => exact decided_name start tail
      · next start =>
        exact decided_symbol (by simpa using digit) quote (by simpa using start) tail

end StepFlow.Lexer
