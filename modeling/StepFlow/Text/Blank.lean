/-!
# Blank characters and case folding of names

White space here is the Unicode property `White_Space`. Names of every kind (types of steps, words
of a vocabulary, truth values) are compared without regard to the case of the letters `a` to `z`
only, so no other letter is ever folded.
-/

namespace StepFlow.Text

/-- Whether a character has the Unicode property `White_Space`. -/
def isBlank (c : Char) : Bool :=
  let n := c.toNat
  (9 ≤ n && n ≤ 13) || n = 0x20 || n = 0x85 || n = 0xA0 || n = 0x1680 ||
    (0x2000 ≤ n && n ≤ 0x200A) || n = 0x2028 || n = 0x2029 || n = 0x202F || n = 0x205F || n = 0x3000

/-- A list of characters without blanks at either end. -/
def trimChars (cs : List Char) : List Char :=
  ((cs.dropWhile isBlank).reverse.dropWhile isBlank).reverse

/-- A text without blanks at either end. -/
def trim (s : String) : String :=
  String.ofList (trimChars s.toList)

/-- A text with the letters `A` to `Z` made small. -/
def foldCase (s : String) : String :=
  String.ofList (s.toList.map Char.toLower)

/-- Equality up to the case of the letters `a` to `z`. -/
def sameName (a b : String) : Bool :=
  foldCase a = foldCase b

end StepFlow.Text
