import Reenact.Document.Basic
import Reenact.Toml.Text

/-!
# Writing settings files

Writes texts, lists of texts and truth values in the form of TOML. A text takes the first of the four
forms that shows its characters as they are; where none does, it is escaped between double quotes. A
list of two or more texts gets a line for each.
-/

namespace Reenact.Toml

/-- The forms of a text. -/
inductive TextForm where
  /-- One line between double quotes. -/
  | basicLine
  /-- One line between single quotes. -/
  | literalLine
  /-- Several lines between three double quotes. -/
  | basicLines
  /-- Several lines between three single quotes. -/
  | literalLines
  deriving DecidableEq, Repr

/-- The length of the longest run of a character; `run` of them are in front. -/
def longestRun (c : Char) (run : Nat) : List Char → Nat
  | [] => run
  | d :: rest => if d = c then longestRun c (run + 1) rest else max run (longestRun c 0 rest)

/-- Whether the character can be written only with an escape: a control character other than a tab
or a line feed. -/
def needsEscape (c : Char) : Bool := !isPrintable c && c != '\n'

namespace TextForm

/-- All forms, the preferred ones in front. -/
def all : List TextForm := [basicLine, literalLine, basicLines, literalLines]

/-- The quote that the form uses. -/
def quote : TextForm → Char
  | basicLine | basicLines => '"'
  | literalLine | literalLines => '\''

/-- Whether the text may go over several lines. -/
def hasLines : TextForm → Bool
  | basicLine | literalLine => false
  | basicLines | literalLines => true

/-- How many of the quotes may stand side by side in the text. -/
def quotesInside (f : TextForm) : Nat := if f.hasLines then 2 else 0

/-- What stands on either side of the text. -/
def delimiter (f : TextForm) : List Char := List.replicate (if f.hasLines then 3 else 1) f.quote

/-- Whether a backslash in the form begins an escape. -/
def hasEscapes (f : TextForm) : Bool := f.quote == '"'

/-- Whether the form shows a text as it is. -/
def shows (f : TextForm) (cs : List Char) : Bool :=
  !cs.any needsEscape && decide (longestRun f.quote 0 cs ≤ f.quotesInside) &&
    (f.hasLines || !cs.contains '\n') && !(f.hasEscapes && cs.contains '\\')

/-- The form that a text is written in. -/
def ofText (cs : List Char) : TextForm :=
  (all.find? fun f => f.shows cs).getD (if cs.contains '\n' then basicLines else basicLine)

end TextForm

/-- Four hexadecimal digits in capitals. -/
def fourDigits (n : Nat) : List Char :=
  let digits := (Nat.toDigits 16 n).map Char.toUpper
  List.replicate (4 - digits.length) '0' ++ digits

/-- One character of a text between double quotes. -/
def writtenChar (c : Char) : List Char :=
  if c = '"' then ['\\', '"']
  else if c = '\\' then ['\\', '\\']
  else if c = '\x08' then ['\\', 'b']
  else if c = '\t' then ['\\', 't']
  else if c = '\n' then ['\\', 'n']
  else if c = '\x0c' then ['\\', 'f']
  else if c = '\r' then ['\\', 'r']
  else if isPrintable c then [c]
  else ['\\', 'u'] ++ fourDigits c.toNat

/-- The characters of a text between double quotes; `run` quotes stand in front. Of more quotes side
by side than the form admits one is escaped, and line feeds stay where there may be several lines. -/
def writtenChars (f : TextForm) (run : Nat) : List Char → List Char
  | [] => []
  | c :: rest =>
    if c = '"' && run < f.quotesInside then c :: writtenChars f (run + 1) rest
    else if c = '\n' && f.hasLines then c :: writtenChars f 0 rest
    else writtenChar c ++ writtenChars f 0 rest

/-- A text in its form. One that has line feeds begins on a line of its own. -/
def writeText (s : String) : String :=
  let cs := s.toList
  let f := TextForm.ofText cs
  let start := if f.hasLines && cs.contains '\n' then ['\n'] else []
  let body := if f.hasEscapes then writtenChars f 0 cs else cs
  String.ofList (f.delimiter ++ start ++ body ++ f.delimiter)

def writeTexts : List String → String
  | [] => "[]"
  | [s] => "[" ++ writeText s ++ "]"
  | texts => "[\n" ++ String.join (texts.map fun s => "    " ++ writeText s ++ ",\n") ++ "]"

def writeBool (b : Bool) : String := if b then "true" else "false"

/-- The line of a key. -/
def writeLine (key value : String) : String := key ++ " = " ++ value ++ "\n"

end Reenact.Toml
