import StepFlow.Text.Case
import StepFlow.Text.HiddenTable
import StepFlow.Text.Quoted

/-!
# Texts inside messages

A message quotes a text between double quotes. Quotes, backslashes and the usual
controls are escaped with a letter, and every other character that does not show by
itself with its code in braces.
-/

namespace StepFlow.Text

/-- The hexadecimal digits of a number, without leading zeros. -/
def hexText (n : Nat) : List Char :=
  Nat.toDigits 16 n

/-- How one character stands inside a text that a message quotes. -/
def describeChar (c : Char) : List Char :=
  if c = '"' then ['\\', '"']
  else if c = '\\' then ['\\', '\\']
  else if c = '\n' then ['\\', 'n']
  else if c = '\r' then ['\\', 'r']
  else if c = '\t' then ['\\', 't']
  else if c.toNat = 0 then ['\\', '0']
  else if inRanges hiddenRanges c.toNat then ['\\', 'u', '\x7b'] ++ hexText c.toNat ++ ['\x7d']
  else [c]

/-- A text as a message quotes it. -/
def describe (s : String) : String :=
  String.ofList (['"'] ++ s.toList.flatMap describeChar ++ ['"'])

end StepFlow.Text
