import StepFlow.Expression.Error
import StepFlow.Numeral

/-!
# From characters to tokens

A source is a sequence of blanks and lexemes, each lexeme being the longest one that starts where it
starts. Every kind of lexeme has its own first characters, so the longest lexeme at a place is found
by looking at the first character and then taking as much as the kind allows. A scanned lexeme
carries the evidence that it and what follows it make up the text it was taken from.
-/

namespace StepFlow.Lexer

/-- A token found at the front of a text, with the characters it was read from. -/
structure Scanned (source : List Char) where
  token : Token
  lexeme : List Char
  rest : List Char
  source_eq : source = lexeme ++ rest
  lexeme_ne_nil : lexeme ≠ []

namespace Scanned

variable {source : List Char}

theorem rest_length_lt (s : Scanned source) : s.rest.length < source.length := by
  have h := congrArg List.length s.source_eq
  have := List.length_pos_iff.2 s.lexeme_ne_nil
  simp only [List.length_append] at h
  omega

end Scanned

/-- What a lexeme can fail with. -/
inductive Fault where
  | noLexeme
  | numberTooLarge (digits : List Char)
deriving DecidableEq

def isBlank (c : Char) : Bool :=
  c = ' ' || c = '\t' || c = '\r' || c = '\n' || c = '\x0c'

def isNameStart (c : Char) : Bool :=
  c.isAlpha || c = '_' || c = '$'

def isNameChar (c : Char) : Bool :=
  isNameStart c || c.isDigit

/-- The number that a list of digits stands for. -/
def numeral (digits : List Char) : Nat :=
  Numeral.ofDigits (Numeral.digits digits).1

/-- A number: digits, with a fraction if a point and another digit follow. -/
def scanNumber (c : Char) (tail : List Char) : Except Fault (Scanned (c :: tail)) :=
  let more := tail.takeWhile Char.isDigit
  let after := tail.dropWhile Char.isDigit
  have split : tail = more ++ after := List.takeWhile_append_dropWhile.symm
  match h : after with
  | '.' :: d :: rest =>
    if d.isDigit then
      let fraction := rest.takeWhile Char.isDigit
      let digits := c :: more ++ d :: fraction
      .ok {
        token := .float (Numeral.nearest (numeral digits) (-(fraction.length + 1 : Nat)))
        lexeme := c :: more ++ '.' :: d :: fraction
        rest := rest.dropWhile Char.isDigit
        source_eq := by
          rw [split, ← List.takeWhile_append_dropWhile (p := Char.isDigit) (l := rest)]
          simp [fraction]
        lexeme_ne_nil := by simp }
    else whole c more tail _ split
  | _ => whole c more tail _ split
where
  /-- A whole number, refused beyond signed 64 bits. -/
  whole (c : Char) (more tail after : List Char) (split : tail = more ++ after) :
      Except Fault (Scanned (c :: tail)) :=
    if Number.FitsSigned (numeral (c :: more)) then
      .ok ⟨.int (numeral (c :: more)), c :: more, after, by rw [split]; simp, by simp⟩
    else .error (.numberTooLarge (c :: more))

def escaped (c : Char) : Char :=
  if c = 'n' then '\n'
  else if c = 't' then '\t'
  else if c = 'r' then '\r'
  else c

/-- The text that the characters between two quotes stand for. -/
def unescape : List Char → List Char
  | [] => []
  | ['\\'] => []
  | '\\' :: c :: rest => escaped c :: unescape rest
  | c :: rest => c :: unescape rest

/-- Splits at the quote that closes a text. A backslash takes the next character with it, which may
be anything but a line feed. -/
def splitAtQuote (quote : Char) : List Char → Option (List Char × List Char)
  | [] => none
  | c :: rest =>
    if c = quote then some ([], rest)
    else if c = '\\' then
      match rest with
      | [] => none
      | d :: rest =>
        if d = '\n' then none
        else (splitAtQuote quote rest).map fun (body, after) => (c :: d :: body, after)
    else (splitAtQuote quote rest).map fun (body, after) => (c :: body, after)

theorem eq_append_of_splitAtQuote {quote : Char} {cs body after : List Char}
    (h : splitAtQuote quote cs = some (body, after)) : cs = body ++ quote :: after := by
  fun_induction splitAtQuote quote cs generalizing body after with
  | case1 => simp at h
  | case2 rest =>
    obtain ⟨rfl, rfl⟩ : [] = body ∧ rest = after := by simpa using h
    rfl
  | case3 => simp at h
  | case4 => simp at h
  | case5 _ d rest _ ih =>
    obtain ⟨⟨b, a⟩, hs, hb⟩ := Option.map_eq_some_iff.1 h
    obtain ⟨rfl, rfl⟩ : _ = body ∧ a = after := by simpa using hb
    simp [ih hs]
  | case6 c rest _ _ ih =>
    obtain ⟨⟨b, a⟩, hs, hb⟩ := Option.map_eq_some_iff.1 h
    obtain ⟨rfl, rfl⟩ : _ = body ∧ a = after := by simpa using hb
    simp [ih hs]

/-- A text between quotes of one kind. -/
def scanText (quote : Char) (tail : List Char) : Except Fault (Scanned (quote :: tail)) :=
  match h : splitAtQuote quote tail with
  | none => .error .noLexeme
  | some (body, after) => .ok {
      token := .text (String.ofList (unescape body))
      lexeme := quote :: body ++ [quote]
      rest := after
      source_eq := by rw [eq_append_of_splitAtQuote h]; simp
      lexeme_ne_nil := by simp }

/-- The token of a name: one of the words, or an identifier. -/
def nameToken (name : List Char) : Token :=
  match [Keyword.true, .false, .null].find? fun word => word.spelling = name with
  | some word => .keyword word
  | none => .ident (String.ofList name)

def scanName (c : Char) (tail : List Char) : Scanned (c :: tail) where
  token := nameToken (c :: tail.takeWhile isNameChar)
  lexeme := c :: tail.takeWhile isNameChar
  rest := tail.dropWhile isNameChar
  source_eq := by simp
  lexeme_ne_nil := by simp

/-- The longest symbol at the front of a text. -/
def scanSymbol (source : List Char) : Except Fault (Scanned source) :=
  match h : Symbol.all.find? fun s => s.spelling.isPrefixOf source with
  | none => .error .noLexeme
  | some s => .ok {
      token := .symbol s
      lexeme := s.spelling
      rest := source.drop s.spelling.length
      source_eq := by
        have starts : s.spelling.isPrefixOf source = true := by simpa using List.find?_some h
        obtain ⟨t, rfl⟩ := List.isPrefixOf_iff_prefix.1 starts
        simp
      lexeme_ne_nil := by cases s <;> simp [Symbol.spelling] }

/-- The longest lexeme at the front of a text. -/
def scan (c : Char) (tail : List Char) : Except Fault (Scanned (c :: tail)) :=
  if c.isDigit then scanNumber c tail
  else if c = '"' ∨ c = '\'' then scanText c tail
  else if isNameStart c then .ok (scanName c tail)
  else scanSymbol (c :: tail)

/-- How many bytes a list of characters takes. -/
def byteLength (cs : List Char) : Nat :=
  cs.foldr (fun c n => c.utf8Size + n) 0

/-- The error for a place where no lexeme could be read. -/
def faultAt (offset : Nat) (c : Char) : Fault → ExprError
  | .numberTooLarge digits => .malformed (.numberTooLarge (String.ofList digits))
  | .noLexeme => if c = '"' ∨ c = '\'' then .unterminatedText offset else .unexpectedChar c offset

/-- The tokens of a text that starts at a byte offset of the source. -/
def tokensFrom (offset : Nat) : List Char → Except ExprError (List Token)
  | [] => .ok []
  | c :: tail =>
    if isBlank c then tokensFrom (offset + c.utf8Size) tail
    else
      match scan c tail with
      | .error fault => .error (faultAt offset c fault)
      | .ok s => do
        let tokens ← tokensFrom (offset + byteLength s.lexeme) s.rest
        return s.token :: tokens
termination_by cs => cs.length
decreasing_by
  · simp
  · exact s.rest_length_lt

def tokenize (source : String) : Except ExprError (List Token) :=
  tokensFrom 0 source.toList

end StepFlow.Lexer
