import Reenact.Text.Blank

/-!
# Blank text made visible

Messages show a blank name between double quotes with its characters escaped, so that a reader can
tell a tab from a space. The texts shown here are white space alone (`Text.isBlankText`); other
characters are written as they are, except for the double quote and the backslash.
-/

namespace Reenact.Text

/-- The code point in hexadecimal between braces, after a backslash and `u`. -/
def codePointEscape (c : Char) : List Char :=
  ['\\', 'u', '\x7b'] ++ Nat.toDigits 16 c.toNat ++ ['\x7d']

/-- One character of a shown text. Of the white space only the space itself is written plainly. -/
def shownChar (c : Char) : List Char :=
  if c = '\t' then ['\\', 't']
  else if c = '\n' then ['\\', 'n']
  else if c = '\r' then ['\\', 'r']
  else if c = '"' || c = '\\' then ['\\', c]
  else if c = ' ' then [c]
  else if isBlank c then codePointEscape c
  else [c]

/-- The text between double quotes, with white space other than the space escaped. -/
def shown (s : String) : String :=
  String.ofList ('"' :: (s.toList.flatMap shownChar ++ ['"']))

end Reenact.Text
