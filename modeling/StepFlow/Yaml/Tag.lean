import StepFlow.Yaml
import StepFlow.Yaml.Cursor

/-!
# Tags

A tag is written as a handle and a suffix, or in full between angle brackets. A handle
stands for the beginning of tags, which a directive can declare. What follows a handle is
written in the characters of a URI, where any octet can be written as a percent sign and two
digits; a zero octet ends it.
-/

namespace StepFlow.Yaml

/-- A tag as it is written; one in full has no handle. -/
structure TagText where
  handle : List Char
  suffix : List UInt8
deriving DecidableEq

/-- What handles stand for. -/
abbrev Handles : Type := List (List Char × List UInt8)

namespace TagText

/-- The characters that a URI is written in; some of them only where brackets or
a directive delimit it.
-/
def isUriChar (delimited : Bool) (c : Char) : Bool :=
  isNameChar c || ";/?:@&=+$.%!~*'()".toList.contains c || (delimited && ",[]".toList.contains c)

/-- How many octets follow one that starts a character. -/
def following? (octet : Nat) : Option Nat :=
  if octet < 0x80 then some 0
  else if octet < 0xc0 then none
  else if octet < 0xe0 then some 1
  else if octet < 0xf0 then some 2
  else if octet < 0xf8 then some 3
  else none

/-- The octets that a URI is written for, the first so many of them being the last octets of a
character. -/
def octets? : Nat → List Char → Option (List UInt8)
  | 0, [] => some []
  | _ + 1, [] => none
  | expected, '%' :: a :: b :: rest => do
    let octet ← inBase? 16 [a, b]
    let more ←
      match expected with
      | 0 => following? octet
      | n + 1 => if 0x80 ≤ octet ∧ octet < 0xc0 then some n else none
    (octets? more rest).map (octet.toUInt8 :: ·)
  | 0, c :: rest => if c = '%' then none else (octets? 0 rest).map (c.toNat.toUInt8 :: ·)
  | _ + 1, _ :: _ => none

/-- The octets of a URI up to a zero. -/
def uri? (cs : List Char) : Option (List UInt8) :=
  (octets? 0 cs).map fun octets => octets.takeWhile (· ≠ 0)

/-- A tag that is an exclamation mark alone. -/
def bare : TagText := ⟨[], ['!'.toNat.toUInt8]⟩

/-- Reads a tag, of which the exclamation mark is the next character. In flow style, a
comma may follow it. -/
def read? (inFlow : Bool) (c : Cursor) : Option (TagText × Cursor) := do
  let c := c.skip
  let (tag, c) ←
    if c.rest.head? = some '<' then do
      let (text, c) := c.skip.takeWhile (isUriChar true)
      let suffix ← uri? text
      if text.isEmpty || c.rest.head? ≠ some '>' then none else some (TagText.mk [] suffix, c.skip)
    else do
      let (name, c) := c.takeWhile isNameChar
      if c.rest.head? = some '!' then do
        let (text, c) := c.skip.takeWhile (isUriChar false)
        let suffix ← uri? text
        if text.isEmpty then none else some (TagText.mk ('!' :: name ++ ['!']) suffix, c)
      else do
        let (text, c) := c.takeWhile (isUriChar false)
        let suffix ← uri? (name ++ text)
        some (if suffix.isEmpty then bare else ⟨['!'], suffix⟩, c)
  if endsWord c.rest || (inFlow && c.rest.head? = some ',') then some (tag, c) else none

/-- What the handles stand for that need no directive. -/
def standard : Handles := [
  (['!'], ['!'.toNat.toUInt8]),
  (['!', '!'], "tag:yaml.org,2002:".toUTF8.toList)]

/-- The octets of a tag in full, if its handle stands for something. -/
def resolve? (handles : Handles) (t : TagText) : Option (List UInt8) :=
  if t.handle.isEmpty then some t.suffix
  else (handles.lookup t.handle).map (· ++ t.suffix)

end TagText

/-- The tag that octets spell. -/
def Tag.ofOctets (octets : List UInt8) : Tag :=
  match String.fromUTF8? ⟨octets.toArray⟩ with
  | some name => .named name
  | none => .garbled

/-- A line that says something about the document below it. -/
inductive Directive where
  | version (major minor : Nat)
  | handle (handle : List Char) (octets : List UInt8)

namespace Directive

/-- A part of a version number, of at most nine digits. -/
def part? (digits : List Char) : Option Nat :=
  if digits.length ≤ 9 then inBase? 10 digits else none

/-- Reads a directive, of which the percent sign is the next character, with
the rest of its line. -/
def read? (c : Cursor) : Option (Directive × Cursor) := do
  let (name, c) := c.skip.takeWhile isNameChar
  if !endsWord c.rest then none
  else
    let c := c.skipWhile isBlank
    let (directive, c) ←
      if name = "YAML".toList then do
        let (digits, c) := c.takeWhile Char.isDigit
        let major ← part? digits
        if c.rest.head? ≠ some '.' then none
        else
          let (digits, c) := c.skip.takeWhile Char.isDigit
          let minor ← part? digits
          some (Directive.version major minor, c)
      else if name = "TAG".toList then do
        if c.rest.head? ≠ some '!' then none
        else
          let (name, c) := c.skip.takeWhile isNameChar
          let (sign, c) ←
            if c.rest.head? = some '!' then some ('!' :: name ++ ['!'], c.skip)
            else if name.isEmpty then some (['!'], c)
            else none
          if !c.rest.head?.any isBlank then none
          else
            let (text, c) := (c.skipWhile isBlank).takeWhile (TagText.isUriChar true)
            let octets ← TagText.uri? text
            if text.isEmpty || !endsWord c.rest then none
            else some (Directive.handle sign octets, c)
      else none
    (c.endLine?).map fun c => (directive, c)

end Directive

end StepFlow.Yaml
