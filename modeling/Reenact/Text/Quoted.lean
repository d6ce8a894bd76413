import Reenact.Text.Letter

/-!
# Quoted text

A text literal stands between two single quotes, or between two double quotes where the text holds
a single quote and no double quote. The closing quote, the backslash, line feed, carriage return
and tab are written as a backslash and a letter or themselves. `decode` reads such a literal back,
and `identifier?` reads only those whose text could be a parameter name.
-/

namespace Reenact.Text.Quoted

/-- The quote a text is written between. -/
def quoteFor (cs : List Char) : Char :=
  if cs.contains '\'' && !cs.contains '"' then '"' else '\''

/-- How a character of the text is written between two of `quote`. -/
def escape (quote c : Char) : List Char :=
  if c = '\\' then ['\\', '\\']
  else if c = '\n' then ['\\', 'n']
  else if c = '\r' then ['\\', 'r']
  else if c = '\t' then ['\\', 't']
  else if c = quote then ['\\', c]
  else [c]

/-- The literal of a text. -/
def encode (cs : List Char) : List Char :=
  quoteFor cs :: (cs.flatMap (escape (quoteFor cs)) ++ [quoteFor cs])

/-- The character meant by `c` after a backslash. -/
def unescape (c : Char) : Option Char :=
  if c = '\\' || c = '\'' || c = '"' then some c
  else if c = 'n' then some '\n'
  else if c = 'r' then some '\r'
  else if c = 't' then some '\t'
  else none

/-- Reads up to the closing `quote`, which has to be the last character. Refuses a line feed, a
carriage return, and a backslash in front of any other character than those `unescape` knows. -/
def decodeBody (quote : Char) : List Char → Option (List Char)
  | [] => none
  | '\\' :: c :: rest => do
    let d ← unescape c
    let ds ← decodeBody quote rest
    return d :: ds
  | c :: rest =>
    if c = quote then (if rest.isEmpty then some [] else none)
    else if c = '\\' || c = '\n' || c = '\r' then none
    else (decodeBody quote rest).map (c :: ·)

/-- The text of a literal between single or double quotes. -/
def decode : List Char → Option (List Char)
  | [] => none
  | quote :: rest => if quote = '\'' || quote = '"' then decodeBody quote rest else none

/-- Whether the character may stand in a parameter name. -/
def isIdentifierChar (c : Char) : Bool :=
  c == '_' || isAlphanumeric c

/-- Whether the characters form a parameter name: letters, numbers and underscores, at least one,
the first no ASCII digit. -/
def isIdentifier (cs : List Char) : Bool :=
  !cs.isEmpty && cs.all isIdentifierChar && !cs.head?.any Char.isDigit

/-- What stands between two of the same quote. -/
def unquote? : List Char → Option (List Char)
  | [] => none
  | quote :: rest =>
    if (quote = '\'' || quote = '"') && rest.getLast? = some quote then some rest.dropLast
    else none

/-- The parameter name that a literal holds between its quotes, if it holds one. -/
def identifier? (literal : List Char) : Option (List Char) :=
  (unquote? literal).filter isIdentifier

end Reenact.Text.Quoted

namespace Reenact.Text

/-- The literal of a text. -/
def quoted (s : String) : String :=
  String.ofList (Quoted.encode s.toList)

end Reenact.Text
