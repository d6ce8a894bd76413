import Reenact.Text.Digit

/-!
# Texts in settings files

Settings files are written in TOML. A text stands between double quotes, where a backslash escapes,
or between single quotes, where nothing does; three of either quote hold a text of several lines.
This module reads the four forms from a list of characters and gives the rest of the list.
-/

namespace Reenact.Toml

/-- The input behind spaces and tabs. -/
def skipSpaces : List Char → List Char
  | [] => []
  | c :: rest => if c = ' ' || c = '\t' then skipSpaces rest else c :: rest

/-- The input behind the end of a line, if it begins with one. -/
def newline? : List Char → Option (List Char)
  | '\n' :: rest => some rest
  | '\r' :: '\n' :: rest => some rest
  | _ => none

/-- Whether the character may stand in a comment or text of one line: a tab, or no control
character. -/
def isPrintable (c : Char) : Bool :=
  c = '\t' || (decide (32 ≤ c.toNat) && c.toNat != 127)

/-- The character with the code point of hexadecimal digits. -/
def codePoint? (digits : List Char) : Option Char := do
  let n ← Text.number? 16 digits
  if n < 0xD800 || (0xE000 ≤ n && n < 0x110000) then some (Char.ofNat n) else none

/-- The character meant by what follows a backslash. -/
def escape? : List Char → Option (Char × List Char)
  | 'b' :: rest => some ('\x08', rest)
  | 't' :: rest => some ('\t', rest)
  | 'n' :: rest => some ('\n', rest)
  | 'f' :: rest => some ('\x0c', rest)
  | 'r' :: rest => some ('\r', rest)
  | '"' :: rest => some ('"', rest)
  | '\\' :: rest => some ('\\', rest)
  | 'u' :: a :: b :: c :: d :: rest => (codePoint? [a, b, c, d]).map (·, rest)
  | 'U' :: a :: b :: c :: d :: e :: f :: g :: h :: rest =>
    (codePoint? [a, b, c, d, e, f, g, h]).map (·, rest)
  | _ => none

/-- Reads a text of one line up to its closing double quote; `read` holds the characters so far,
latest first. -/
def basicLine : Nat → (read : List Char) → List Char → Option (String × List Char)
  | 0, _, _ => none
  | _ + 1, _, [] => none
  | _ + 1, read, '"' :: rest => some (String.ofList read.reverse, rest)
  | fuel + 1, read, '\\' :: rest => do
    let (c, rest) ← escape? rest
    basicLine fuel (c :: read) rest
  | fuel + 1, read, c :: rest =>
    if isPrintable c then basicLine fuel (c :: read) rest else none

/-- Reads a text of one line up to its closing single quote. -/
def literalLine (read : List Char) : List Char → Option (String × List Char)
  | [] => none
  | '\'' :: rest => some (String.ofList read.reverse, rest)
  | c :: rest => if isPrintable c then literalLine (c :: read) rest else none

/-- The input behind spaces, tabs and ends of lines. -/
def skipBlankLines : List Char → List Char
  | '\r' :: '\n' :: rest => skipBlankLines rest
  | c :: rest =>
    if c = ' ' || c = '\t' || c = '\n' then skipBlankLines rest else c :: rest
  | [] => []

/-- The end of a text of several lines, where its closing quotes begin: up to two more quotes in
front of the closing three belong to the text. -/
def closing? (quote : Char) (input : List Char) : Option ((List Char) × List Char) :=
  let count := (input.takeWhile (· == quote)).length
  if 3 ≤ count then
    let inner := min (count - 3) 2
    some (List.replicate inner quote, input.drop (inner + 3))
  else none

/-- Reads a text of several lines up to its closing double quotes. A backslash at the end of a line
joins it with the next character that is not blank. -/
def basicLines : Nat → (read : List Char) → List Char → Option (String × List Char)
  | 0, _, _ => none
  | _ + 1, _, [] => none
  | fuel + 1, read, '"' :: rest =>
    match closing? '"' ('"' :: rest) with
    | some (quotes, rest) => some (String.ofList (read.reverse ++ quotes), rest)
    | none => basicLines fuel ('"' :: read) rest
  | fuel + 1, read, '\\' :: rest =>
    match newline? (skipSpaces rest) with
    | some rest => basicLines fuel read (skipBlankLines rest)
    | none => do
      let (c, rest) ← escape? rest
      basicLines fuel (c :: read) rest
  | fuel + 1, read, c :: rest =>
    match newline? (c :: rest) with
    | some rest => basicLines fuel ('\n' :: read) rest
    | none => if isPrintable c then basicLines fuel (c :: read) rest else none

/-- Reads a text of several lines up to its closing single quotes. -/
def literalLines : Nat → (read : List Char) → List Char → Option (String × List Char)
  | 0, _, _ => none
  | _ + 1, _, [] => none
  | fuel + 1, read, '\'' :: rest =>
    match closing? '\'' ('\'' :: rest) with
    | some (quotes, rest) => some (String.ofList (read.reverse ++ quotes), rest)
    | none => literalLines fuel ('\'' :: read) rest
  | fuel + 1, read, c :: rest =>
    match newline? (c :: rest) with
    | some rest => literalLines fuel ('\n' :: read) rest
    | none => if isPrintable c then literalLines fuel (c :: read) rest else none

/-- The input behind one end of a line, if there is one in front. -/
def skipNewline (input : List Char) : List Char := (newline? input).getD input

/-- Reads a text in one of the four forms. -/
def text? (input : List Char) : Option (String × List Char) :=
  match input with
  | '"' :: '"' :: '"' :: rest => basicLines (rest.length + 1) [] (skipNewline rest)
  | '"' :: rest => basicLine (rest.length + 1) [] rest
  | '\'' :: '\'' :: '\'' :: rest => literalLines (rest.length + 1) [] (skipNewline rest)
  | '\'' :: rest => literalLine [] rest
  | _ => none

/-- Reads a text of one line, which may serve as a key. -/
def lineText? (input : List Char) : Option (String × List Char) :=
  match input with
  | '"' :: rest => basicLine (rest.length + 1) [] rest
  | '\'' :: rest => literalLine [] rest
  | _ => none

end Reenact.Toml
