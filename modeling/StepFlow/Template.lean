import StepFlow.Value

/-!
# Texts with expressions inside

A text of a document may hold blocks `@{ ... }` with an expression inside. Braces in a block nest,
and texts between quotes are skipped, so the block ends at its own closing brace, unless more braces
are open than can be counted. The two opening characters behind another `@` open no block; so
written they stand for themselves. A text with a block that is never closed has no blocks at all.

One block that is the whole text is its expression. Blocks with text around them become the
expression that joins the pieces.
-/

namespace StepFlow.Template

inductive Piece where
  /-- Text between blocks, as written. -/
  | literal (cs : List Char)
  /-- What stands between the delimiters of a block. -/
  | block (cs : List Char)
deriving DecidableEq, Repr

/-- The number of open braces behind a character, counted in 32 bits: one too
many makes it negative. -/
def countBraces (depth : Int32) (c : Char) : Int32 :=
  if c = '\x7b' then depth + 1 else if c = '\x7d' then depth - 1 else depth

/-- Splits behind the brace with which a block ends. `depth` braces are open, that of the block
among them, and `quote` is the quote of the text the reader is in. A backslash inside a text takes
the next character with it. -/
def splitAtClose (depth : Int32) (quote : Option Char) :
    List Char → Option (List Char × List Char)
  | [] => none
  | c :: rest =>
    match quote with
    | some q =>
      if c = '\\' then
        match rest with
        | [] => none
        | d :: rest => (splitAtClose depth quote rest).map fun (body, after) =>
          (c :: d :: body, after)
      else
        (splitAtClose depth (if c = q then none else quote) rest).map fun (body, after) =>
          (c :: body, after)
    | none =>
      if 0 < countBraces depth c then
        (splitAtClose (countBraces depth c) (if c = '\'' ∨ c = '"' then some c else none) rest).map
          fun (body, after) => (c :: body, after)
      else some ([], rest)

theorem eq_append_of_splitAtClose {depth : Int32} {quote : Option Char} {cs body after : List Char}
    (h : splitAtClose depth quote cs = some (body, after)) : ∃ c, cs = body ++ c :: after := by
  fun_induction splitAtClose depth quote cs generalizing body after with
  | case1 => cases h
  | case2 => cases h
  | case3 _ _ _ _ ih =>
    obtain ⟨⟨b, a⟩, hs, hb⟩ := Option.map_eq_some_iff.1 h
    cases hb
    obtain ⟨c, rfl⟩ := ih hs
    exact ⟨c, rfl⟩
  | case4 _ _ _ _ _ ih =>
    obtain ⟨⟨b, a⟩, hs, hb⟩ := Option.map_eq_some_iff.1 h
    cases hb
    obtain ⟨c, rfl⟩ := ih hs
    exact ⟨c, rfl⟩
  | case5 _ _ _ _ ih =>
    obtain ⟨⟨b, a⟩, hs, hb⟩ := Option.map_eq_some_iff.1 h
    cases hb
    obtain ⟨c, rfl⟩ := ih hs
    exact ⟨c, rfl⟩
  | case6 =>
    cases h
    exact ⟨_, rfl⟩

/-- The piece for text read so far, in reverse; no piece for no text. -/
def literalPiece (reversed : List Char) : List Piece :=
  if reversed.isEmpty then [] else [.literal reversed.reverse]

/-- The pieces of a text, `reversed` being the text since the last block and `escaped` whether the
character before is an `@`. -/
def piecesFrom (escaped : Bool) (reversed : List Char) : List Char → Option (List Piece)
  | [] => some (literalPiece reversed)
  | '@' :: '\x7b' :: rest =>
    if escaped then piecesFrom false ('\x7b' :: '@' :: reversed) rest
    else
      match h : splitAtClose 1 none rest with
      | none => none
      | some (body, after) =>
        (piecesFrom false [] after).map fun pieces => literalPiece reversed ++ .block body :: pieces
  | c :: rest => piecesFrom (c = '@') (c :: reversed) rest
termination_by cs => cs.length
decreasing_by
  · simp only [List.length_cons]
    omega
  · obtain ⟨_, rfl⟩ := eq_append_of_splitAtClose h
    simp only [List.length_append, List.length_cons]
    omega
  · simp

/-- The pieces of a text, if every block is closed. -/
def pieces? (cs : List Char) : Option (List Piece) :=
  piecesFrom false [] cs

def Piece.isBlock : Piece → Bool
  | .literal _ => false
  | .block _ => true

def hasBlock (s : String) : Bool :=
  match pieces? s.toList with
  | some pieces => pieces.any Piece.isBlock
  | none => false

/-- Escapes the opening delimiter: `@` is written twice in front of a brace. -/
def escapeChars : List Char → List Char
  | '@' :: '\x7b' :: rest => '@' :: '@' :: '\x7b' :: escapeChars rest
  | c :: rest => c :: escapeChars rest
  | [] => []

/-- Takes the escapes of the opening delimiter out. -/
def unescapeChars : List Char → List Char
  | '@' :: '@' :: '\x7b' :: rest => '@' :: '\x7b' :: unescapeChars rest
  | c :: rest => c :: unescapeChars rest
  | [] => []

/-- A text with its opening delimiters escaped. -/
def escape (s : String) : String :=
  String.ofList (escapeChars s.toList)

/-- A text with its escaped delimiters standing for themselves. -/
def unescape (s : String) : String :=
  String.ofList (unescapeChars s.toList)

/-- A text as a literal of the expression language. -/
def quoteLiteral (cs : List Char) : List Char :=
  ['\''] ++ cs.flatMap (fun c => if c = '\\' ∨ c = '\'' then ['\\', c] else [c]) ++ ['\'']

/-- The expression for a piece among others. -/
def Piece.source : Piece → List Char
  | .literal cs => quoteLiteral (unescapeChars cs)
  | .block cs => ['('] ++ cs ++ [')']

/-- The expression that joins pieces to a text. -/
def joinSource (pieces : List Piece) : List Char :=
  "concat(".toList ++ [',', ' '].intercalate (pieces.map Piece.source) ++ [')']

/-- The expression that a text of a document is, if it holds a block. -/
def source? (s : String) : Option String :=
  match pieces? s.toList with
  | some [.block cs] => some (String.ofList cs)
  | some pieces =>
    if pieces.any Piece.isBlock then some (String.ofList (joinSource pieces)) else none
  | none => none

/-- The text of a document for an expression. -/
def ofSource (source : String) : String :=
  "@\x7b" ++ source ++ "\x7d"

end StepFlow.Template
