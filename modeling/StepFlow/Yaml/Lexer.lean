import StepFlow.Yaml.Scalar
import StepFlow.Yaml.Token

/-!
# From characters to tokens

Whether a scalar is a key shows only at the colon behind it. So the place where a token could be a
key is kept, one place for every level of flow style, and when the colon comes, the token for a key
goes in at this place; in block style also the one that opens a mapping, if the key is indented
deeper than what is open.

A key ends on the line where it starts and within 1024 characters. At the indentation of an open
block collection there has to be a key.
-/

namespace StepFlow.Yaml

/-- A place where a key may have started. -/
structure PossibleKey where
  /-- The number of tokens before it. -/
  number : Nat
  line : Nat
  column : Nat
  /-- Whether nothing else than a key may stand there. -/
  required : Bool
deriving DecidableEq, Repr

namespace PossibleKey

/-- Whether a key that started there can still be one at a place. -/
def isOpen (k : PossibleKey) (c : Cursor) : Bool := k.line = c.line && c.column ≤ k.column + 1024

end PossibleKey

structure Lexer where
  place : Cursor
  tokens : Array Token
  /-- The indentations of the open block collections, the innermost first. -/
  indents : List Nat
  /-- The possible key at the level of the place. -/
  possible : Option PossibleKey
  /-- The possible keys at the levels of flow style around it, the innermost first. -/
  outer : List (Option PossibleKey)
  /-- Whether a key may start at the place. -/
  keyAllowed : Bool

namespace Lexer

def ofChars (cs : List Char) : Lexer := ⟨.ofChars cs, #[], [], none, [], true⟩

def inFlow (l : Lexer) : Bool := !l.outer.isEmpty

/-- The least indentation of what belongs to the innermost block collection. -/
def least (l : Lexer) : Nat := (l.indents.head?.map (· + 1)).getD 0

/-- Adds a token and goes on at a place. -/
def emit (l : Lexer) (t : Token) (place : Cursor) : Lexer :=
  { l with tokens := l.tokens.push t, place }

/-- Says whether a key may start at the place. -/
def allowKey (l : Lexer) (allowed : Bool) : Lexer := { l with keyAllowed := allowed }

/-- Passes over blanks, comments and line ends. A tab counts as a blank only
where no key may start. -/
def skipGaps (l : Lexer) : Lexer :=
  go l.inFlow false l.keyAllowed l.place.line l.place.column l.place.rest
where
  /-- Goes on from a character, in a comment or not. -/
  go (inFlow comment allowed : Bool) (line column : Nat) : List Char → Lexer
    | [] => { l with place := ⟨line, column, []⟩, keyAllowed := allowed }
    | c :: rest =>
      if isBreak c then go inFlow false (allowed || !inFlow) (line + 1) 0 rest
      else if comment || c = '#' then go inFlow true allowed line (column + 1) rest
      else if c = ' ' || (c = '\t' && (inFlow || !allowed)) || (c = '\ufeff' && column = 0) then
        go inFlow false allowed line (column + 1) rest
      else { l with place := ⟨line, column, c :: rest⟩, keyAllowed := allowed }

/-! ## Possible keys -/

/-- Gives up a possible key, unless nothing else may stand there. -/
def giveUp? : Option PossibleKey → Option (Option PossibleKey)
  | none => some none
  | some k => if k.required then none else some none

/-- Gives up a possible key if the place is too far behind it. -/
def expired? (c : Cursor) : Option PossibleKey → Option (Option PossibleKey)
  | none => some none
  | some k => if k.isOpen c then some (some k) else giveUp? (some k)

/-- Gives up the possible keys that are too far behind. -/
def expire? (l : Lexer) : Option Lexer := do
  let possible ← expired? l.place l.possible
  let outer ← l.outer.mapM (expired? l.place)
  some { l with possible, outer }

/-- Gives up the possible key of this level. -/
def dropKey? (l : Lexer) : Option Lexer :=
  (giveUp? l.possible).map fun possible => { l with possible }

/-- Keeps the place as one where a key may start, if that is allowed here. -/
def keepKey? (l : Lexer) : Option Lexer :=
  if l.keyAllowed then
    l.dropKey?.map fun l => { l with
      possible := some {
        number := l.tokens.size
        line := l.place.line
        column := l.place.column
        required := !l.inFlow && l.indents.head? = some l.place.column } }
  else some l

/-! ## Indentation -/

/-- Closes the block collections that a test does not want, from the innermost on. -/
def closeWhile (p : Nat → Bool) (l : Lexer) : Lexer :=
  if l.inFlow then l
  else
    let left := l.indents.dropWhile p
    let closed := List.replicate (l.indents.length - left.length) Token.blockEnd
    { l with indents := left, tokens := l.tokens ++ closed }

/-- Closes the block collections that are indented deeper than the place. -/
def dedent (l : Lexer) : Lexer := l.closeWhile (l.place.column < ·)

def closeAll (l : Lexer) : Lexer := l.closeWhile fun _ => true

/-- Opens a block collection, with its token behind so many others, if it is indented deeper
than the innermost one. -/
def openBlock (l : Lexer) (column number : Nat) (t : Token) : Lexer :=
  if l.inFlow || !l.indents.head?.all (· < column) then l
  else { l with indents := column :: l.indents, tokens := l.tokens.insertIdxIfInBounds number t }

/-! ## Tokens -/

def directive? (l : Lexer) : Option Lexer := do
  let l ← l.closeAll.dropKey?
  let (d, place) ← Directive.read? l.place
  some ((l.emit (.directive d) place).allowKey false)

/-- A mark that opens or closes a document. -/
def mark? (l : Lexer) (t : Token) : Option Lexer := do
  let l ← l.closeAll.dropKey?
  some ((l.emit t (l.place.pass 3)).allowKey false)

/-- The start of a collection in flow style, which may be a key. -/
def flowStart? (l : Lexer) (t : Token) : Option Lexer := do
  let l ← l.keepKey?
  let l := l.emit t l.place.skip
  some { l with outer := l.possible :: l.outer, possible := none, keyAllowed := true }

def flowEnd? (l : Lexer) (t : Token) : Option Lexer := do
  let l ← l.dropKey?
  let l := l.emit t l.place.skip
  match l.outer with
  | [] => some (l.allowKey false)
  | possible :: outer => some { l with possible, outer, keyAllowed := false }

def comma? (l : Lexer) : Option Lexer := do
  let l ← l.dropKey?
  some ((l.emit .comma l.place.skip).allowKey true)

/-- A dash before an item of a block sequence. -/
def item? (l : Lexer) : Option Lexer := do
  if !l.inFlow && !l.keyAllowed then none
  else
    let l ← (l.openBlock l.place.column l.tokens.size .blockSequence).dropKey?
    some ((l.emit .item l.place.skip).allowKey true)

/-- A question mark before a key. -/
def key? (l : Lexer) : Option Lexer := do
  if !l.inFlow && !l.keyAllowed then none
  else
    let l ← (l.openBlock l.place.column l.tokens.size .blockMapping).dropKey?
    some ((l.emit .key l.place.skip).allowKey !l.inFlow)

/-- A colon: what was a possible key is one, or else the key stands behind a question mark. -/
def value? (l : Lexer) : Option Lexer :=
  match l.possible with
  | some k =>
    let l := { l with tokens := l.tokens.insertIdxIfInBounds k.number .key, possible := none }
    let l := l.openBlock k.column k.number .blockMapping
    some ((l.emit .value l.place.skip).allowKey false)
  | none =>
    if !l.inFlow && !l.keyAllowed then none
    else
      let l := l.openBlock l.place.column l.tokens.size .blockMapping
      some ((l.emit .value l.place.skip).allowKey !l.inFlow)

/-- A token that may start a key and that no key follows. -/
def simple? (l : Lexer) (read : Cursor → Option (Token × Cursor)) : Option Lexer := do
  let l ← l.keepKey?
  let (t, place) ← read l.place
  some ((l.emit t place).allowKey false)

/-- Whether the name of an anchor can end before these characters. -/
def endsAnchor (cs : List Char) : Bool :=
  endsWord cs || cs.head?.any "?:,]\x7d%@\x60".toList.contains

def anchorName? (c : Cursor) : Option (List Char × Cursor) :=
  let (name, behind) := c.skip.takeWhile isNameChar
  if name.isEmpty || !endsAnchor behind.rest then none else some (name, behind)

def block? (l : Lexer) (fuel : Nat) (style : ScalarStyle) : Option Lexer := do
  let l ← l.dropKey?
  let (text, place) ← blockScalar? fuel (style = .folded) l.least l.place.skip
  some ((l.emit (.scalar style text) place).allowKey true)

/-- A plain scalar. If it ends with its line, a key may follow. -/
def plain? (l : Lexer) (fuel : Nat) : Option Lexer := do
  let l ← l.keepKey?
  let (text, ended, place) ← plainScalar? fuel l.inFlow l.least l.place
  some ((l.emit (.scalar .plain text) place).allowKey ended)

def quoted? (l : Lexer) (fuel : Nat) (double : Bool) : Option Lexer :=
  l.simple? fun c => (quotedScalar? fuel double c).map fun r => (.scalar .quoted r.1, r.2)

/-- Reads the token that starts with a character, given what follows it. -/
def token? (l : Lexer) (fuel : Nat) (c : Char) (rest : List Char) : Option Lexer :=
  if c = '%' && l.place.column = 0 then l.directive?
  else if l.place.atTriple '-' then l.mark? .documentStart
  else if l.place.atTriple '.' then l.mark? .documentEnd
  else if c = '[' then l.flowStart? .flowSequence
  else if c = '\x7b' then l.flowStart? .flowMapping
  else if c = ']' then l.flowEnd? .flowSequenceEnd
  else if c = '\x7d' then l.flowEnd? .flowMappingEnd
  else if c = ',' then l.comma?
  else if c = '-' && endsWord rest then l.item?
  else if c = '?' && (l.inFlow || endsWord rest) then l.key?
  else if c = ':' && (l.inFlow || endsWord rest) then l.value?
  else if c = '*' then l.simple? fun c => (anchorName? c).map fun r => (.reference r.1, r.2)
  else if c = '&' then l.simple? fun c => (anchorName? c).map fun r => (.anchor r.1, r.2)
  else if c = '!' then l.simple? fun c => (TagText.read? l.inFlow c).map fun r => (.tag r.1, r.2)
  else if c = '|' && !l.inFlow then l.block? fuel .literal
  else if c = '>' && !l.inFlow then l.block? fuel .folded
  else if c = '\'' then l.quoted? fuel false
  else if c = '"' then l.quoted? fuel true
  else if startsPlain l.inFlow c rest then l.plain? fuel
  else none

/-- Reads the tokens from a place on. Every one of them takes a character at least, so the fuel
stays above the number of characters left. -/
def run : Nat → Lexer → Option (List Token)
  | 0, _ => none
  | fuel + 1, l => do
    let l ← l.skipGaps.expire?
    let l := l.dedent
    match l.place.rest with
    | [] => l.closeAll.dropKey?.map fun l => l.tokens.toList
    | c :: rest => run fuel (← l.token? (fuel + 1) c rest)

def tokens? (cs : List Char) : Option (List Token) := run (cs.length + 1) (.ofChars cs)

end Lexer

end StepFlow.Yaml
