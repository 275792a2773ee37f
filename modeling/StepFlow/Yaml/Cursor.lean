/-!
# Places in a YAML text

YAML looks at lines and columns, so what is left of a text travels together with the place where it
starts. The main statement is `Cursor.rest_pass`: passing over characters drops as many of them.
-/

namespace StepFlow.Yaml

/-- Whether a character separates words on a line. -/
def isBlank (c : Char) : Bool := c = ' ' || c = '\t'

def isBreak (c : Char) : Bool := c = '\n' || c = '\u2028' || c = '\u2029'

/-- Whether a character separates words. -/
def isGap (c : Char) : Bool := isBlank c || isBreak c

/-- Whether a word can end before these characters. -/
def endsWord : List Char → Bool
  | [] => true
  | c :: _ => isGap c

/-- Whether a character may stand in the names of anchors, handles and directives. -/
def isNameChar (c : Char) : Bool := c.isAlphanum || c = '_' || c = '-'

/-- What is left of a text, and the line and column where it starts. -/
structure Cursor where
  line : Nat
  column : Nat
  rest : List Char

namespace Cursor

def ofChars (cs : List Char) : Cursor := ⟨0, 0, cs⟩

def skip (c : Cursor) : Cursor :=
  match c.rest with
  | [] => c
  | x :: rest => if isBreak x then ⟨c.line + 1, 0, rest⟩ else ⟨c.line, c.column + 1, rest⟩

/-- The place behind a number of characters. -/
def pass (c : Cursor) : Nat → Cursor
  | 0 => c
  | n + 1 => c.skip.pass n

theorem rest_skip (c : Cursor) : c.skip.rest = c.rest.drop 1 := by
  obtain ⟨line, column, rest⟩ := c
  cases rest with
  | nil => rfl
  | cons x rest =>
    simp only [skip]
    split <;> rfl

theorem rest_pass (c : Cursor) (n : Nat) : (c.pass n).rest = c.rest.drop n := by
  induction n generalizing c with
  | zero => rfl
  | succ n ih => rw [pass, ih, rest_skip, List.drop_drop, Nat.add_comm]

/-- Takes characters up to the first one that a test refuses. -/
def takeWhile (p : Char → Bool) (c : Cursor) : List Char × Cursor :=
  let taken := c.rest.takeWhile p
  (taken, c.pass taken.length)

/-- Passes over characters up to the first one that a test refuses. -/
def skipWhile (p : Char → Bool) (c : Cursor) : Cursor := (c.takeWhile p).2

/-- Whether a line starts here with three of a character and nothing else in the word. -/
def atTriple (x : Char) (c : Cursor) : Bool :=
  c.column = 0 && c.rest.take 3 = [x, x, x] && endsWord (c.rest.drop 3)

/-- Whether a mark that opens or closes a document stands here. -/
def atMark (c : Cursor) : Bool := c.atTriple '-' || c.atTriple '.'

/-- The place on the next line, if there is nothing but blanks and a comment on this one. -/
def endLine? (c : Cursor) : Option Cursor :=
  let c := c.skipWhile isBlank
  let c := if c.rest.head? = some '#' then c.skipWhile (!isBreak ·) else c
  if endsWord c.rest then some c.skip else none

end Cursor

end StepFlow.Yaml
