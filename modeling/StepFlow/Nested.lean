import StepFlow.ExprOr

/-!
# Documents with expressions anywhere inside

Evaluating a document replaces every text with a block by the value of its expression, null if it
has none. Keys of objects are evaluated too and written as texts; where two keys come out equal the
later one counts. Every other text has its escapes taken out, and all else stays.
-/

namespace StepFlow.Nested

/-- The value of a text of a document. -/
def evaluateText (look : Bindings) (s : String) : Value :=
  match Template.source? s with
  | some source => (StepFlow.evaluate look source).getD .null
  | none => .string (Template.unescape s)

/-- The text of a key of a document. -/
def evaluateKey (look : Bindings) (s : String) : String :=
  (evaluateText look s).text

mutual

/-- The value of a document. -/
def evaluate (look : Bindings) : Value → Value
  | .string s => evaluateText look s
  | .array items => .array (evaluateItems look items)
  | .object entries => .object (evaluateEntries look [] entries)
  | .null => .null
  | .bool b => .bool b
  | .number n => .number n

def evaluateItems (look : Bindings) : List Value → List Value
  | [] => []
  | v :: rest => evaluate look v :: evaluateItems look rest

/-- Puts the values of entries into an object, in their order. -/
def evaluateEntries (look : Bindings) (o : Object) : List (String × Value) → Object
  | [] => o
  | (k, v) :: rest =>
    evaluateEntries look (Object.insert (evaluateKey look k) (evaluate look v) o) rest

end

end StepFlow.Nested
