import StepFlow.Yaml.Lexer
import StepFlow.Yaml.Node

/-!
# Reading YAML

A text holds one document at most, after directives and marks if it has any. Without a document it
counts as the node where nothing is written.
-/

namespace StepFlow.Yaml

/-- Whether a character may stand in a text. -/
def isAllowed (c : Char) : Bool :=
  let n := c.toNat
  c = '\t' || c = '\n' || c = '\r' || (0x20 ≤ n && n ≤ 0x7e) || n = 0x85 ||
    (0xa0 ≤ n && n ≤ 0xd7ff) || (0xe000 ≤ n && n ≤ 0xfffd) || 0x10000 ≤ n

/-- The characters of a text when all lines that may end in other ways end in a line feed. -/
def withLineFeeds : List Char → List Char
  | [] => []
  | '\r' :: '\n' :: rest => '\n' :: withLineFeeds rest
  | '\r' :: rest => '\n' :: withLineFeeds rest
  | '\u0085' :: rest => '\n' :: withLineFeeds rest
  | c :: rest => c :: withLineFeeds rest

/-- What directives say: whether there was one about the version, and the handles they declare. -/
structure Preamble where
  version : Bool
  handles : Handles

/-- Takes in the directives before a document. The version may be given once, as 1.1 or 1.2, and no
handle twice. -/
def preamble? (p : Preamble) : List Token → Option (Preamble × List Token)
  | .directive (.version major minor) :: rest =>
    if p.version || major ≠ 1 || (minor ≠ 1 && minor ≠ 2) then none
    else preamble? { p with version := true } rest
  | .directive (.handle handle octets) :: rest =>
    if (p.handles.lookup handle).isSome then none
    else preamble? { p with handles := p.handles ++ [(handle, octets)] } rest
  | tokens => some (p, tokens)

def content? (handles : Handles) (tokens : List Token) : Option (Yaml × List Token) :=
  (node? handles (3 * tokens.length + 4) .block ⟨tokens, []⟩).map fun r => (r.1, r.2.tokens)

/-- Reads a document. Its mark can be missing if there are no directives, and the node
if there is the mark. -/
def document? (tokens : List Token) : Option (Yaml × List Token) :=
  match tokens with
  | .directive _ :: _ | .documentStart :: _ => do
    let (p, tokens) ← preamble? ⟨false, []⟩ tokens
    match tokens with
    | .documentStart :: rest =>
      match rest with
      | [] | .directive _ :: _ | .documentStart :: _ | .documentEnd :: _ => some (nothing, rest)
      | _ => content? (p.handles ++ TagText.standard) rest
    | _ => none
  | _ => content? TagText.standard tokens

/-- Whether nothing is left but marks that close a document. -/
def isFinished (tokens : List Token) : Bool :=
  tokens.all fun t =>
    match t with
    | .documentEnd => true
    | _ => false

def read? (s : String) : Option Yaml := do
  let cs := s.toList
  if !cs.all isAllowed then none
  else
    let tokens ← Lexer.tokens? (withLineFeeds cs)
    match tokens with
    | [] => some nothing
    | tokens =>
      let (y, rest) ← document? tokens
      if isFinished rest then some y else none

end StepFlow.Yaml
