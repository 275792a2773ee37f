import StepFlow.Value
import StepFlow.Text.Quoted

/-!
# The text of a document

`Json.render` writes a value on one line without blanks, `Json.renderPretty` with one entry
a line and two blanks a level. Objects are written in the order of their entries, which is
the order of their keys.
-/

namespace StepFlow.Json

mutual

/-- The text of a value without blanks. -/
def render : Value → String
  | .null => "null"
  | .bool b => if b then "true" else "false"
  | .number n => n.render
  | .string s => Text.quote s
  | .array items => "[" ++ ",".intercalate (renderItems items) ++ "]"
  | .object entries => "\x7b" ++ ",".intercalate (renderEntries entries) ++ "\x7d"

def renderItems : List Value → List String
  | [] => []
  | v :: rest => render v :: renderItems rest

def renderEntries : List (String × Value) → List String
  | [] => []
  | (k, v) :: rest => (Text.quote k ++ ":" ++ render v) :: renderEntries rest

end

/-- The blanks at the start of a line at a level of nesting. -/
def indent (level : Nat) : String :=
  String.ofList (List.replicate (2 * level) ' ')

/-- Lines between two brackets; nothing at all stands between the brackets of an empty list. -/
def block (openText closeText : String) (level : Nat) (lines : List String) : String :=
  if lines.isEmpty then openText ++ closeText
  else
    let start := "\n" ++ indent (level + 1)
    openText ++ start ++ ("," ++ start).intercalate lines ++ "\n" ++ indent level ++ closeText

mutual

/-- The text of a value over several lines, at a level of nesting. -/
def renderAt (level : Nat) : Value → String
  | .array items => block "[" "]" level (renderItemsAt (level + 1) items)
  | .object entries => block "\x7b" "\x7d" level (renderEntriesAt (level + 1) entries)
  | .null => "null"
  | .bool b => if b then "true" else "false"
  | .number n => n.render
  | .string s => Text.quote s

def renderItemsAt (level : Nat) : List Value → List String
  | [] => []
  | v :: rest => renderAt level v :: renderItemsAt level rest

def renderEntriesAt (level : Nat) : List (String × Value) → List String
  | [] => []
  | (k, v) :: rest => (Text.quote k ++ ": " ++ renderAt level v) :: renderEntriesAt level rest

end

def renderPretty (v : Value) : String :=
  renderAt 0 v

end StepFlow.Json

namespace StepFlow

/-- The text of a value inside a text: a text stands for itself, all else is
written as in a document. -/
def Value.text : Value → String
  | .string s => s
  | v => Json.render v

end StepFlow
