import StepFlow.Yaml
import StepFlow.Yaml.Cursor

/-!
# Scalars

A scalar is plain, quoted or a block of lines. In plain and quoted scalars, which may go over
several lines, a line end with nothing but blanks around it reads as a space, and more than one as
all but the first. A block keeps its line ends or folds them in the same manner, and its header says
what becomes of the last ones.

Every step takes a character at least, so fuel beyond the number of characters left is enough for a
scalar.
-/

namespace StepFlow.Yaml

/-- What stands between two words of a scalar. -/
inductive Gap where
  | blanks (cs : List Char)
  /-- The line ends, without the blanks around them. -/
  | lines (first : Char) (more : List Char)

namespace Gap

/-- A run of blanks and line ends. -/
def ofRun (run : List Char) : Gap :=
  match run.dropWhile isBlank with
  | [] => .blanks run
  | first :: more => .lines first (more.filter isBreak)

/-- What a gap adds to the text. -/
def folded : Gap → List Char
  | .blanks cs => cs
  | .lines '\n' [] => [' ']
  | .lines '\n' more => more
  | .lines first more => first :: more

/-- Whether the gap goes over the end of a line. -/
def isLines : Gap → Bool
  | .blanks _ => false
  | .lines .. => true

end Gap

/-! ## Plain scalars -/

/-- The characters with a meaning of their own in flow style. -/
def flowIndicators : List Char := ",[]\x7b\x7d".toList

def indicators : List Char := flowIndicators ++ "-?:#&*!|>'\"%@\x60".toList

/-- Whether a plain scalar starts with a character, given what follows it. -/
def startsPlain (inFlow : Bool) (c : Char) (rest : List Char) : Bool :=
  !(isGap c || indicators.contains c) || (c = '-' && !endsWord rest) ||
    (!inFlow && (c = '?' || c = ':') && !endsWord rest)

/-- The characters up to the end of a word of a plain scalar. In flow style, a colon right before an
indicator is an error. -/
def plainWord? (inFlow : Bool) : List Char → Option (List Char)
  | [] => some []
  | c :: rest =>
    if isGap c then some []
    else if inFlow && c = ':' && rest.head?.any ('?' :: flowIndicators).contains then none
    else if (c = ':' && endsWord rest) || (inFlow && flowIndicators.contains c) then some []
    else (plainWord? inFlow rest).map (c :: ·)

/-- Whether a tab stands among the first columns of a line that the run of a gap starts. -/
def hasEarlyTab (least : Nat) (run : List Char) : Bool :=
  go none (run.dropWhile isBlank)
where
  /-- Looks for the tab; the column is known once a line has ended. -/
  go (column : Option Nat) : List Char → Bool
    | [] => false
    | c :: rest =>
      if isBreak c then go (some 0) rest
      else (c = '\t' && column.any (· < least)) || go (column.map (· + 1)) rest

/-- Reads the words of a plain scalar from behind a gap on. Tells the text, whether the scalar ends
with the end of a line, and the place behind it. -/
def plainWords : Nat → Bool → Nat → Gap → Cursor → Option (List Char × Bool × Cursor)
  | 0, _, _, _, _ => none
  | fuel + 1, inFlow, least, gap, c =>
    if c.atMark || c.rest.head? = some '#' then some ([], gap.isLines, c)
    else do
      let word ← plainWord? inFlow c.rest
      if word.isEmpty then some ([], gap.isLines, c)
      else
        let text := gap.folded ++ word
        let (run, behind) := (c.pass word.length).takeWhile isGap
        let next := Gap.ofRun run
        if run.isEmpty then some (text, false, behind)
        else if hasEarlyTab least run then none
        else if !inFlow && behind.column < least then some (text, next.isLines, behind)
        else do
          let (more, ended, place) ← plainWords fuel inFlow least next behind
          some (text ++ more, ended, place)

/-- Reads a plain scalar whose further lines are indented at least so far. -/
def plainScalar? (fuel : Nat) (inFlow : Bool) (least : Nat) (c : Cursor) :
    Option (String × Bool × Cursor) :=
  (plainWords fuel inFlow least (.blanks []) c).map fun r => (String.ofList r.1, r.2)

/-! ## Quoted scalars -/

/-- What the letter of an escape stands for. -/
def escapes : List (Char × Char) := [
  ('0', '\x00'), ('a', '\x07'), ('b', '\x08'), ('t', '\t'), ('\t', '\t'), ('n', '\n'),
  ('v', '\x0b'), ('f', '\x0c'), ('r', '\r'), ('e', '\x1b'), (' ', ' '), ('"', '"'),
  ('/', '/'), ('\\', '\\'), ('N', '\u0085'), ('_', '\u00a0'), ('L', '\u2028'), ('P', '\u2029')]

/-- The number of digits that follow the letter of a numeric escape. -/
def escapeWidths : List (Char × Nat) := [('x', 2), ('u', 4), ('U', 8)]

/-- A piece of a quoted scalar. -/
inductive QuotedPiece where
  /-- A character and the number of characters it is written with. -/
  | char (c : Char) (length : Nat)
  /-- A line end that a backslash takes away. -/
  | joint
  /-- A gap, the closing quote or the end of the text. -/
  | stop

/-- The escape behind a backslash. -/
def escape? : List Char → Option QuotedPiece
  | [] => none
  | c :: rest =>
    if isBreak c then some .joint
    else
      match escapes.lookup c, escapeWidths.lookup c with
      | some d, _ => some (.char d 2)
      | none, some width => do
        let n ← if (rest.take width).length = width then inBase? 16 (rest.take width) else none
        if n.isValidChar then some (.char (Char.ofNat n) (2 + width)) else none
      | none, none => none

/-- The next piece of a scalar between single or double quotes. -/
def quotedPiece? (double : Bool) : List Char → Option QuotedPiece
  | [] => some .stop
  | c :: rest =>
    if isGap c then some .stop
    else if double then
      if c = '"' then some .stop
      else if c = '\\' then escape? rest
      else some (.char c 1)
    else if c = '\'' then
      if rest.head? = some '\'' then some (.char c 2) else some .stop
    else some (.char c 1)

/-- Reads a quoted scalar up to its closing quote. No line in it may be the mark of a document. -/
def quotedRest : Nat → Bool → Cursor → Option (List Char × Cursor)
  | 0, _, _ => none
  | fuel + 1, double, c => do
    match ← quotedPiece? double c.rest with
    | .char x length =>
      let (text, place) ← quotedRest fuel double (c.pass length)
      some (x :: text, place)
    | .joint => gapped fuel double (fun run => run.filter isBreak) (c.pass 2)
    | .stop =>
      match c.rest with
      | [] => none
      | x :: _ =>
        if isGap x then gapped fuel double (fun run => (Gap.ofRun run).folded) c
        else some ([], c.skip)
where
  /-- Reads on from a gap. -/
  gapped (fuel : Nat) (double : Bool) (text : List Char → List Char) (c : Cursor) :
      Option (List Char × Cursor) := do
    let (run, behind) := c.takeWhile isGap
    if behind.atMark then none
    else
      let (more, place) ← quotedRest fuel double behind
      some (text run ++ more, place)

def quotedScalar? (fuel : Nat) (double : Bool) (c : Cursor) : Option (String × Cursor) :=
  (quotedRest fuel double c.skip).map fun r => (String.ofList r.1, r.2)

/-! ## Blocks -/

/-- What becomes of the line ends behind the last line of a block: none is kept, one, or all. -/
inductive Chomping where
  | strip
  | clip
  | keep
deriving DecidableEq, Repr

namespace Chomping

/-- The sign of a manner in a header. -/
def ofSign? : Char → Option Chomping
  | '-' => some .strip
  | '+' => some .keep
  | _ => none

end Chomping

structure BlockHeader where
  chomping : Chomping
  /-- How much deeper than its parent the block is indented, if that is given. -/
  indent : Option Nat

namespace BlockHeader

/-- The indentation that a digit gives, from 1 to 9. -/
def indentOf? (c : Char) : Option Nat :=
  if c.isDigit && c ≠ '0' then some (c.toNat - '0'.toNat) else none

/-- Reads a header, a sign and a digit in either order, and tells how many characters it has. A
digit zero is an error. -/
def read? (cs : List Char) : Option (BlockHeader × Nat) :=
  let second := (cs.drop 1).head?
  match cs.head?.bind Chomping.ofSign? with
  | some chomping =>
    match second.filter Char.isDigit with
    | some d => (indentOf? d).map fun n => (⟨chomping, some n⟩, 2)
    | none => some (⟨chomping, none⟩, 1)
  | none =>
    match cs.head?.filter Char.isDigit with
    | some d => do
      let n ← indentOf? d
      match second.bind Chomping.ofSign? with
      | some chomping => some (⟨chomping, some n⟩, 2)
      | none => some (⟨.clip, some n⟩, 1)
    | none => some (⟨.clip, none⟩, 0)

end BlockHeader

/-- Line ends before a line of a block. -/
structure BlockBreaks where
  breaks : List Char
  /-- The widest indentation on the way. -/
  widest : Nat
  /-- The number of characters up to the line. -/
  length : Nat

/-- Takes the line ends before the next line that holds something, and its indentation as far as it
goes; with no indentation given, all of it. A tab may not stand in it. -/
def blockBreaks? (indent : Option Nat) : Nat → List Char → Option BlockBreaks
  | column, [] => some ⟨[], column, 0⟩
  | column, c :: rest =>
    let inside := indent.all (column < ·)
    if inside && c = ' ' then
      (blockBreaks? indent (column + 1) rest).map fun b => { b with length := b.length + 1 }
    else if inside && c = '\t' then none
    else if isBreak c then
      (blockBreaks? indent 0 rest).map fun b => ⟨c :: b.breaks, max column b.widest, b.length + 1⟩
    else some ⟨[], column, 0⟩

structure Block where
  text : List Char
  /-- The end of the last line, if it has one. -/
  ending : Option Char
  /-- The line ends of the empty lines behind it. -/
  empty : List Char
  place : Cursor

/-- What stands for the end of a line before the next line of a block. When lines are folded, a line
feed between two lines that start with no blank is a space, or nothing if empty lines follow it. -/
def blockJoint (fold : Bool) (ending : Option Char) (empty : List Char) : List Char :=
  if fold && ending = some '\n' then (if empty.isEmpty then [' '] else [])
  else ending.toList

/-- Reads the lines of a block from a place where one may start, behind the end of the line before
and the line ends of empty lines. -/
def blockLines : Nat → Bool → Nat → Bool → Option Char → List Char → Cursor → Option Block
  | 0, _, _, _, _, _, _ => none
  | fuel + 1, folded, indent, blankBefore, ending, empty, c =>
    match c.rest with
    | [] => some ⟨[], ending, empty, c⟩
    | x :: _ =>
      if c.column ≠ indent then some ⟨[], ending, empty, c⟩
      else do
        let blank := isBlank x
        let joint := blockJoint (folded && !blankBefore && !blank) ending empty
        let (line, behind) := c.takeWhile (!isBreak ·)
        let next := behind.skip
        let breaks ← blockBreaks? (some indent) next.column next.rest
        let place := next.pass breaks.length
        let b ← blockLines fuel folded indent blank behind.rest.head? breaks.breaks place
        some { b with text := joint ++ empty ++ line ++ b.text }

/-- Reads a literal or folded block behind its indicator. Without an indentation in the header, that
of its first line counts, which is to be at least `least` and not zero. -/
def blockScalar? (fuel : Nat) (folded : Bool) (least : Nat) (c : Cursor) :
    Option (String × Cursor) := do
  let (header, length) ← BlockHeader.read? c.rest
  let start ← (c.pass length).endLine?
  let given := header.indent.map (least - 1 + ·)
  let breaks ← blockBreaks? given start.column start.rest
  let indent := given.getD (max breaks.widest (max least 1))
  let block ← blockLines fuel folded indent false none breaks.breaks (start.pass breaks.length)
  let tail := match header.chomping with
    | .strip => []
    | .clip => block.ending.toList
    | .keep => block.ending.toList ++ block.empty
  some (String.ofList (block.text ++ tail), block.place)

end StepFlow.Yaml
