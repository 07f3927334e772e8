import FormulaExport.Text.Combining
import FormulaExport.Text.Unprintable

/-!
# Quoted text

The **quoted** form of a text stands between double quotes and shows every character: quotes,
backslashes and the common controls as short escapes, characters that cannot be seen on their own
(`isCombining`, `isUnprintable`) by their code point.
-/

set_option autoImplicit false

namespace FormulaExport.Text

/-- The digits of a number to the base sixteen, in lower case and without leading zeros. -/
def hexDigits (n : Nat) : List Char := Nat.toDigits 16 n

def codePointEscape (c : Char) : List Char :=
  ['\\', 'u', '\x7b'] ++ hexDigits c.toNat ++ ['\x7d']

/-- How one character is written between quotes. -/
def quotedChar (c : Char) : List Char :=
  if c = '"' then ['\\', '"']
  else if c = '\\' then ['\\', '\\']
  else if c = '\n' then ['\\', 'n']
  else if c = '\r' then ['\\', 'r']
  else if c = '\t' then ['\\', 't']
  else if c = '\x00' then ['\\', '0']
  else if ' ' ≤ c ∧ c ≤ '~' then [c]
  else if isCombining c || isUnprintable c then codePointEscape c
  else [c]

def quoted (text : String) : String :=
  "\"" ++ String.ofList (text.toList.flatMap quotedChar) ++ "\""

/-- Texts in square brackets, separated by a comma and a space. -/
def bracketed (items : List String) : String :=
  "[" ++ ", ".intercalate items ++ "]"

end FormulaExport.Text
