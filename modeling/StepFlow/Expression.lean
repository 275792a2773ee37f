import StepFlow.Value

/-!
# Expressions

The syntax trees of the expression language, and how deep they are. `Expr.depth` walks over a tree
in rounds and keeps what is still to be visited on a stack of its own, so that it does not recurse
however deep the tree is; `Expr.height` says the same by recursion on the tree.
-/

namespace StepFlow

inductive UnaryOp where
  | not
  | neg
deriving DecidableEq, Repr

inductive BinaryOp where
  | add | sub | mul | div | rem
  | eq | notEq
  | lt | le | gt | ge
  | and | or
deriving DecidableEq, Repr

inductive Expr where
  | literal (value : Value)
  | var (name : String)
  | list (items : List Expr)
  | map (entries : List (Expr × Expr))
  | member (object : Expr) (name : String)
  | index (object position : Expr)
  | call (function : String) (args : List Expr)
  | unary (op : UnaryOp) (operand : Expr)
  | binary (op : BinaryOp) (left right : Expr)
  | conditional (condition yes no : Expr)

instance : Inhabited Expr := ⟨.literal .null⟩

namespace UnaryOp

def name : UnaryOp → String
  | .not => "Not"
  | .neg => "Neg"

end UnaryOp

namespace BinaryOp

def name : BinaryOp → String
  | .add => "Add"
  | .sub => "Sub"
  | .mul => "Mul"
  | .div => "Div"
  | .rem => "Rem"
  | .eq => "Eq"
  | .notEq => "NotEq"
  | .lt => "Lt"
  | .le => "Le"
  | .gt => "Gt"
  | .ge => "Ge"
  | .and => "And"
  | .or => "Or"

end BinaryOp

namespace Expr

mutual

/-- The number of nodes of a tree. -/
def size : Expr → Nat
  | .literal _ => 1
  | .var _ => 1
  | .list items => 1 + sizeItems items
  | .map entries => 1 + sizeEntries entries
  | .member object _ => 1 + object.size
  | .index object position => 1 + (object.size + position.size)
  | .call _ args => 1 + sizeItems args
  | .unary _ operand => 1 + operand.size
  | .binary _ left right => 1 + (left.size + right.size)
  | .conditional condition yes no => 1 + (condition.size + (yes.size + no.size))

def sizeItems : List Expr → Nat
  | [] => 0
  | e :: rest => e.size + sizeItems rest

def sizeEntries : List (Expr × Expr) → Nat
  | [] => 0
  | (k, v) :: rest => k.size + (v.size + sizeEntries rest)

end

mutual

/-- The nesting depth of a tree, a leaf counting as one. -/
def height : Expr → Nat
  | .literal _ => 1
  | .var _ => 1
  | .list items => 1 + heightItems items
  | .map entries => 1 + heightEntries entries
  | .member object _ => 1 + object.height
  | .index object position => 1 + max object.height position.height
  | .call _ args => 1 + heightItems args
  | .unary _ operand => 1 + operand.height
  | .binary _ left right => 1 + max left.height right.height
  | .conditional condition yes no => 1 + max condition.height (max yes.height no.height)

def heightItems : List Expr → Nat
  | [] => 0
  | e :: rest => max e.height (heightItems rest)

def heightEntries : List (Expr × Expr) → Nat
  | [] => 0
  | (k, v) :: rest => max k.height (max v.height (heightEntries rest))

end

/-- The immediate sub-expressions, keys of maps included. -/
def children : Expr → List Expr
  | .literal _ => []
  | .var _ => []
  | .list items => items
  | .map entries => entries.flatMap fun entry => [entry.1, entry.2]
  | .member object _ => [object]
  | .index object position => [object, position]
  | .call _ args => args
  | .unary _ operand => [operand]
  | .binary _ left right => [left, right]
  | .conditional condition yes no => [condition, yes, no]

theorem sizeItems_entries (entries : List (Expr × Expr)) :
    sizeItems (entries.flatMap fun entry => [entry.1, entry.2]) = sizeEntries entries := by
  induction entries with
  | nil => simp [sizeItems, sizeEntries]
  | cons entry rest ih => simp [sizeItems, sizeEntries, ih]

/-- A tree has one node more than its immediate sub-expressions together. -/
theorem size_eq_children (e : Expr) : e.size = 1 + sizeItems e.children := by
  cases e <;> simp [size, children, sizeItems, sizeItems_entries]

/-- A walk over trees: the greatest level met so far, and a stack of the trees that are still to be
visited, each with the level it stands at. -/
structure Walk where
  deepest : Nat
  pending : List (Expr × Nat)

namespace Walk

def start (e : Expr) : Walk := ⟨0, [(e, 1)]⟩

/-- Puts trees of one level on a stack, one after the other. -/
def push (level : Nat) (pending : List (Expr × Nat)) (es : List Expr) : List (Expr × Nat) :=
  es.foldl (fun pending e => (e, level) :: pending) pending

/-- Takes a tree from the stack and counts its level; its immediate sub-expressions are to be
visited one level further in. Nothing happens if the stack is empty. -/
def visit (w : Walk) : Option Walk :=
  match w.pending with
  | [] => none
  | (e, level) :: pending => some ⟨max w.deepest level, push (level + 1) pending e.children⟩

/-- The number of nodes of the trees that are still to be visited. -/
def size (w : Walk) : Nat :=
  sizeItems (w.pending.map (·.1))

theorem sizeItems_push (level : Nat) (pending : List (Expr × Nat)) (es : List Expr) :
    sizeItems ((push level pending es).map (·.1)) =
      sizeItems es + sizeItems (pending.map (·.1)) := by
  induction es generalizing pending with
  | nil => simp [push, sizeItems]
  | cons e es ih =>
    rw [push, List.foldl_cons, ← push, ih]
    simp only [List.map_cons, sizeItems]
    omega

/-- A visit is to one node. -/
theorem size_of_visit {w next : Walk} (h : w.visit = some next) : w.size = next.size + 1 := by
  obtain ⟨deepest, _ | ⟨⟨e, level⟩, pending⟩⟩ := w
  · cases h
  · cases h
    simp only [size, sizeItems_push, List.map_cons, sizeItems, size_eq_children e]
    omega

/-- Visits trees until the stack is empty, and gives the greatest level met. -/
def finish (w : Walk) : Nat :=
  match h : w.visit with
  | none => w.deepest
  | some next =>
    have := size_of_visit h
    next.finish
termination_by w.size

end Walk

/-- The nesting depth of a tree, a leaf counting as one. -/
def depth (e : Expr) : Nat :=
  (Walk.start e).finish

end Expr

end StepFlow
