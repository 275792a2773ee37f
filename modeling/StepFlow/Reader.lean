/-!
# Readers that shorten their input

A reader takes symbols from the front of a list and returns what is left together with the evidence
that at least one symbol was taken. Repeating a reader therefore ends by the length of the list, and
no reader needs a step budget.
-/

namespace StepFlow

/-- What is left of `input` after at least one symbol was taken. -/
abbrev Rest {τ : Type} (input : List τ) : Type :=
  { rest : List τ // rest.length < input.length }

/-- What is left of `input` after any number of symbols, possibly none, was taken. -/
abbrev Tail {τ : Type} (input : List τ) : Type :=
  { rest : List τ // rest.length ≤ input.length }

/-- Takes at least one symbol from the front of its input, or says what is wrong. -/
abbrev Reader (ε τ α : Type) : Type :=
  (input : List τ) → Except ε (α × Rest input)

/-- Goes on from an earlier result: takes any number of symbols. -/
abbrev Continuation (ε τ α : Type) : Type :=
  (input : List τ) → Except ε (α × Tail input)

namespace Rest

variable {τ : Type} {input : List τ}

def afterOne (head : τ) (rest : List τ) : Rest (head :: rest) :=
  ⟨rest, by simp⟩

def trans (first : Rest input) (second : Rest first.val) : Rest input :=
  ⟨second.val, Nat.lt_trans second.property first.property⟩

/-- A remainder stays one when what follows takes nothing or more. -/
def andTail (first : Rest input) (second : Tail first.val) : Rest input :=
  ⟨second.val, Nat.lt_of_le_of_lt second.property first.property⟩

/-- A proper remainder is in particular a remainder. -/
def weaken (rest : Rest input) : Tail input :=
  ⟨rest.val, Nat.le_of_lt rest.property⟩

end Rest

namespace Tail

variable {τ : Type} {input : List τ}

def none (input : List τ) : Tail input :=
  ⟨input, Nat.le_refl _⟩

/-- Taking at least one symbol after any number of them. -/
def andRest (first : Tail input) (second : Rest first.val) : Rest input :=
  ⟨second.val, Nat.lt_of_lt_of_le second.property first.property⟩

def trans (first : Tail input) (second : Tail first.val) : Tail input :=
  ⟨second.val, Nat.le_trans second.property first.property⟩

end Tail

end StepFlow
