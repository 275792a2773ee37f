import StepFlow.Text.CaseTable

/-!
# Capital and small letters

Full case mapping of texts: a character can become several (`ß` becomes `SS`), and a capital sigma
becomes the final form `ς` when it ends a word: the nearest character before it that is not
case-ignorable is cased, and the nearest such character after it is not.
-/

namespace StepFlow.Text

/-- Whether a number lies in one of the given ranges. -/
def inRanges (ranges : List (Nat × Nat)) (n : Nat) : Bool :=
  ranges.any fun r => r.1 ≤ n && n ≤ r.2

/-- The image of a character under a table of special cases and one of runs. -/
def mapCase (special : List (Nat × List Nat)) (runs : List (Nat × Nat × Nat × Int)) (c : Char) :
    List Char :=
  match special.lookup c.toNat with
  | some image => image.map Char.ofNat
  | none =>
    match runs.find? fun (first, last, step, _) =>
      first ≤ c.toNat && c.toNat ≤ last && (c.toNat - first) % step = 0 with
    | some (_, _, _, shift) => [Char.ofNat ((c.toNat : Int) + shift).toNat]
    | none => [c]

def upperChar (c : Char) : List Char :=
  mapCase CaseTable.upperSpecial CaseTable.upperRuns c

/-- The small form of a character outside of any context. -/
def lowerChar (c : Char) : List Char :=
  mapCase CaseTable.lowerSpecial CaseTable.lowerRuns c

/-- Whether the first character that is not case-ignorable is cased. -/
def beginsCased (cs : List Char) : Bool :=
  match cs.dropWhile fun c => inRanges CaseTable.caseIgnorable c.toNat with
  | [] => false
  | c :: _ => inRanges CaseTable.cased c.toNat

/-- The small form of a text whose earlier characters are given in reverse. -/
def lowerFrom (before : List Char) : List Char → List Char
  | [] => []
  | c :: rest =>
    let image :=
      if c = 'Σ' then [if beginsCased before && !beginsCased rest then 'ς' else 'σ']
      else lowerChar c
    image ++ lowerFrom (c :: before) rest

def upper (s : String) : String :=
  String.ofList (s.toList.flatMap upperChar)

def lower (s : String) : String :=
  String.ofList (lowerFrom [] s.toList)

end StepFlow.Text
