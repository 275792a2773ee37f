/-!
# YAML documents

The tree of a YAML document. Scalars keep their text, their style and their tag, because what a
scalar means (a number, a word, nothing at all) is up to whoever reads the tree. An anchor is a
number that a node may have, and a reference stands for the node with its number.
-/

namespace StepFlow

namespace Yaml

/-- How the text of a scalar is written. -/
inductive ScalarStyle where
  | plain
  | quoted
  | literal
  | folded
deriving DecidableEq, Repr

/-- The tag of a node, in full. -/
inductive Tag where
  | named (name : String)
  /-- A tag whose escapes spell no text. -/
  | garbled
deriving DecidableEq, Repr

/-- What may stand before a node. -/
structure Marks where
  tag : Option Tag
  anchor : Option Nat
deriving DecidableEq, Repr

end Yaml

inductive Yaml where
  | scalar (marks : Yaml.Marks) (style : Yaml.ScalarStyle) (text : String)
  | sequence (marks : Yaml.Marks) (items : List Yaml)
  /-- The entries in the order written; keys may repeat. -/
  | mapping (marks : Yaml.Marks) (entries : List (Yaml × Yaml))
  | reference (number : Nat)

namespace Yaml

namespace Tag

def null : Tag := .named "tag:yaml.org,2002:null"

def int : Tag := .named "tag:yaml.org,2002:int"

/-- The name behind the exclamation mark of a tag that belongs to the document. -/
def local? : Tag → Option String
  | .named name =>
    match name.toList with
    | '!' :: rest => some (String.ofList rest)
    | _ => none
  | .garbled => none

end Tag

def Marks.empty : Marks := ⟨none, none⟩

/-- The node where nothing is written. -/
def nothing : Yaml := .scalar .empty .plain ""

/-- What stands before a node; a reference has no marks of its own. -/
def marks : Yaml → Marks
  | .scalar m _ _ | .sequence m _ | .mapping m _ => m
  | .reference _ => .empty

mutual

/-- The nodes with an anchor, each with its number, in the order in which they start. -/
def anchored (y : Yaml) : List (Nat × Yaml) :=
  y.marks.anchor.toList.map (·, y) ++
    match y with
    | .sequence _ items => anchoredItems items
    | .mapping _ entries => anchoredEntries entries
    | _ => []

def anchoredItems : List Yaml → List (Nat × Yaml)
  | [] => []
  | item :: items => anchored item ++ anchoredItems items

def anchoredEntries : List (Yaml × Yaml) → List (Nat × Yaml)
  | [] => []
  | (key, value) :: entries => anchored key ++ anchored value ++ anchoredEntries entries

end

/-- The node that a node of a document stands for: of several with the number of
a reference, the last.
-/
def resolve? (document : Yaml) : Yaml → Option Yaml
  | .reference number => document.anchored.reverse.lookup number
  | y => some y

def text? : Yaml → Option String
  | .scalar _ _ s => some s
  | _ => none

def nullWords : List String := ["~", "null", "Null", "NULL"]

/-- The digits of a base, all of them and at least one. -/
def inBase? (base : Nat) (cs : List Char) : Option Nat :=
  if cs.isEmpty then none
  else cs.foldl (fun n c => do
    let n ← n
    let d ←
      if c.isDigit then some (c.toNat - '0'.toNat)
      else if 'a' ≤ c ∧ c ≤ 'z' then some (c.toNat - 'a'.toNat + 10)
      else if 'A' ≤ c ∧ c ≤ 'Z' then some (c.toNat - 'A'.toNat + 10)
      else none
    if d < base then some (base * n + d) else none) (some 0)

/-- The natural number that a text spells: decimal without leading zeros, or hexadecimal, octal or
binary behind `0x`, `0o` or `0b`. A plus sign may stand before it. -/
def naturalText? (s : String) : Option Nat :=
  let cs := match s.toList with
    | '+' :: rest => rest
    | cs => cs
  match cs with
  | '0' :: 'x' :: rest => inBase? 16 rest
  | '0' :: 'o' :: rest => inBase? 8 rest
  | '0' :: 'b' :: rest => inBase? 2 rest
  | ['0'] => some 0
  | '0' :: _ => none
  | cs => inBase? 10 cs

/-- The natural number that a scalar stands for: a plain one whatever its tag, a literal one with
the tag of whole numbers, and no other. -/
def natural? : Yaml → Option Nat
  | .scalar _ .plain s => naturalText? s
  | .scalar m .literal s => if m.tag = some Tag.int then naturalText? s else none
  | _ => none

/-- The natural number that a scalar stands for, or none for null. A plain scalar is null when it is
empty or a word for null; with the tag of null it has to be such a word, and any other tag makes it
a number. -/
def naturalOrNull? (y : Yaml) : Option (Option Nat) :=
  match y with
  | .scalar m .plain s =>
    match m.tag with
    | none => if s.isEmpty || nullWords.contains s then some none else y.natural?.map some
    | some tag =>
      if tag = Tag.null then if nullWords.contains s then some none else none
      else y.natural?.map some
  | _ => y.natural?.map some

/-- The word that a node stands for: the name of its own tag with nothing behind it, or the text of
a scalar without such a tag. -/
def word? (y : Yaml) : Option String :=
  match y.marks.tag.bind Tag.local? with
  | some name =>
    match y with
    | .scalar _ .plain s => if s.isEmpty || nullWords.contains s then some name else none
    | _ => none
  | none => y.text?

end Yaml

end StepFlow
