import Wiretap.Text.Printable

/-!
# Texts as messages show them

A message shows a path between double quotes. Quotes and backslashes in it follow a backslash, some
control characters have letters, and what cannot be printed is shown by its number.
-/

namespace Wiretap.Text

/-- The digits of a number in base 16. -/
def hexDigits (n : Nat) : List Char := Nat.toDigits 16 n

/-- A character as a message shows it. -/
def shownChar (c : Char) : List Char :=
  if c = '\x00' then ['\\', '0']
  else if c = '\t' then ['\\', 't']
  else if c = '\r' then ['\\', 'r']
  else if c = '\n' then ['\\', 'n']
  else if c = '\\' ∨ c = '"' ∨ c = '\'' then ['\\', c]
  else if isPrintable c then [c]
  else ['\\', 'u', '\x7b'] ++ hexDigits c.toNat ++ ['\x7d']

/-- A text as a message shows it. -/
def shown (text : String) : String :=
  String.ofList (['"'] ++ text.toList.flatMap shownChar ++ ['"'])

end Wiretap.Text
