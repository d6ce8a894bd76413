import Reenact.Text.Blank
import Reenact.Text.Letter

/-!
# Words made from names and values

Two ways to get a short word. `snakeCase` lowers a capitalised name and puts an underscore where a
new word starts, keeping runs of capitals together: `BigHTMLClass` becomes `big_html_class`. `token`
drops what cannot stand in an identifier of ASCII letters, digits and underscores.
-/

namespace Reenact.Text

/-- Whether a capital after `before` and in front of `after` starts a new word: it follows a small
letter or an ASCII digit, or it is the last capital of a run, in front of a small letter. -/
def startsWord (before after : Option Char) : Bool :=
  before.any fun p => isLowercase p || p.isDigit || (isUppercase p && after.any isLowercase)

/-- Lowers the capitals and separates the words; `before` is the character in front. -/
def snakeChars (before : Option Char) : List Char → List Char
  | [] => []
  | c :: rest =>
    if isUppercase c then
      (if startsWord before rest.head? then ['_'] else []) ++ toLowercase c ++
        snakeChars (some c) rest
    else c :: snakeChars (some c) rest

/-- The name with its words in small letters and separated by underscores. -/
def snakeCase (name : String) : String :=
  String.ofList (snakeChars none name.toList)

/-- Whether the character may stand in a token. -/
def isTokenChar (c : Char) : Bool :=
  c.isAlphanum || c == '_'

/-- Keeps the token characters and writes one underscore for each run of white space; `inBlank`
tells that the character in front belongs to such a run. -/
def tokenChars (inBlank : Bool) : List Char → List Char
  | [] => []
  | c :: rest =>
    if isBlank c then (if inBlank then [] else ['_']) ++ tokenChars true rest
    else (if isTokenChar c then [c] else []) ++ tokenChars false rest

/-- The token characters of a text, with an underscore for each run of white space inside it. -/
def token (s : String) : String :=
  String.ofList (tokenChars false (trimBlanks s.toList))

end Reenact.Text
