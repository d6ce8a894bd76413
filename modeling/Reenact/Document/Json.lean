import Reenact.Document.Basic
import Reenact.Text.Digit

/-!
# Documents as JSON

Reads and writes the text of a document. Reading takes the characters one by one; its fuel is
the number of characters, of which every step uses one. Writing escapes what JSON requires and the
three other characters that end a line.
-/

namespace Reenact.Document

/-- The text behind spaces. -/
def skipSpaces : List Char → List Char
  | [] => []
  | c :: rest =>
    if c = ' ' || c = '\n' || c = '\r' || c = '\t' then skipSpaces rest else c :: rest

/-- The character meant by a letter behind a backslash. -/
def escaped? (c : Char) : Option Char :=
  match c with
  | '"' => some '"'
  | '\\' => some '\\'
  | '/' => some '/'
  | 'b' => some '\x08'
  | 'f' => some '\x0c'
  | 'n' => some '\n'
  | 'r' => some '\r'
  | 't' => some '\t'
  | _ => none

/-- The characters read so far with one more unit of sixteen bits; `high` is the first half of a
character in two units, if one is waiting for its second half. -/
def takeUnit (high : Option Nat) (read : List Char) (unit : Nat) : Option Nat × List Char :=
  if 0xD800 ≤ unit && unit < 0xDC00 then (some unit, read)
  else
    match high with
    | some h =>
      if 0xDC00 ≤ unit && unit < 0xE000 then
        (none, Char.ofNat (0x10000 + (h - 0xD800) * 0x400 + (unit - 0xDC00)) :: read)
      else (none, Char.ofNat unit :: read)
    | none => (none, Char.ofNat unit :: read)

/-- Reads a text up to its closing quote; `read` holds the characters so far, latest first. -/
def readText (high : Option Nat) (read : List Char) : List Char → Option (String × List Char)
  | [] => none
  | '"' :: rest => some (String.ofList read.reverse, rest)
  | '\\' :: 'u' :: a :: b :: c :: d :: rest => do
    let (high, read) := takeUnit high read (← Text.number? 16 [a, b, c, d])
    readText high read rest
  | '\\' :: c :: rest => do readText none ((← escaped? c) :: read) rest
  | c :: rest => readText none (c :: read) rest

/-- Whether the character may stand in a number. -/
def isNumberChar (c : Char) : Bool :=
  c.isDigit || c == '-' || c == '+' || c == '.' || c == 'e' || c == 'E'

/-- A number: a whole one where its text has digits and a sign only. Minus zero is not whole. -/
def numberOf (digits : String) : Document :=
  match digits.toInt? with
  | some n => if n = 0 && digits.startsWith "-" then .real digits else .integer n
  | none => .real digits

mutual

def readValue : Nat → List Char → Option (Document × List Char)
  | 0, _ => none
  | fuel + 1, input =>
    match skipSpaces input with
    | 'n' :: 'u' :: 'l' :: 'l' :: rest => some (.null, rest)
    | 't' :: 'r' :: 'u' :: 'e' :: rest => some (.bool true, rest)
    | 'f' :: 'a' :: 'l' :: 's' :: 'e' :: rest => some (.bool false, rest)
    | '"' :: rest => (readText none [] rest).map fun (s, rest) => (.text s, rest)
    | '[' :: rest =>
      match skipSpaces rest with
      | ']' :: rest => some (.list [], rest)
      | rest => (readItems fuel rest).map fun (items, rest) => (.list items, rest)
    | '\x7b' :: rest =>
      match skipSpaces rest with
      | '\x7d' :: rest => some (.record [], rest)
      | rest => (readMembers fuel rest).map fun (members, rest) => (.record members, rest)
    | input =>
      let digits := input.takeWhile isNumberChar
      if digits.isEmpty then none
      else some (numberOf (String.ofList digits), input.drop digits.length)

/-- Reads the items of a list up to its closing bracket. -/
def readItems : Nat → List Char → Option (List Document × List Char)
  | 0, _ => none
  | fuel + 1, input => do
    let (item, rest) ← readValue fuel input
    match skipSpaces rest with
    | ',' :: rest => (readItems fuel rest).map fun (items, rest) => (item :: items, rest)
    | ']' :: rest => some ([item], rest)
    | _ => none

/-- Reads the members of a record up to its closing brace. -/
def readMembers : Nat → List Char → Option (List (String × Document) × List Char)
  | 0, _ => none
  | fuel + 1, input =>
    match skipSpaces input with
    | '"' :: rest => do
      let (name, rest) ← readText none [] rest
      match skipSpaces rest with
      | ':' :: rest =>
        let (value, rest) ← readValue fuel rest
        match skipSpaces rest with
        | ',' :: rest =>
          (readMembers fuel rest).map fun (members, rest) => ((name, value) :: members, rest)
        | '\x7d' :: rest => some ([(name, value)], rest)
        | _ => none
      | _ => none
    | _ => none

end

/-- The document of a text. -/
def ofJson? (s : String) : Option Document := do
  let input := s.toList
  let (d, rest) ← readValue (input.length + 1) input
  if (skipSpaces rest).isEmpty then some d else none

def hexQuad (n : Nat) : String :=
  let digits := Nat.toDigits 16 n
  String.ofList (List.replicate (4 - digits.length) '0' ++ digits)

/-- One character of a text. -/
def jsonChar (c : Char) : String :=
  if c = '"' then "\\\""
  else if c = '\\' then "\\\\"
  else if c.toNat < 32 || c.toNat = 0x7F || c.toNat = 0x85 || c.toNat = 0x2028 ||
      c.toNat = 0x2029 then
    "\\u" ++ hexQuad c.toNat
  else c.toString

def jsonText (s : String) : String :=
  "\"" ++ s.foldl (fun out c => out ++ jsonChar c) "" ++ "\""

mutual

/-- Appends the text of a document. -/
def writeJson (out : String) : Document → String
  | .null => out ++ "null"
  | .bool b => out ++ (if b then "true" else "false")
  | .integer n => out ++ toString n
  | .real digits => out ++ digits
  | .text s => out ++ jsonText s
  | .list items => writeItems (out ++ "[") true items ++ "]"
  | .record members => writeMembers (out ++ "\x7b") true members ++ "\x7d"

/-- Appends the items of a list. -/
def writeItems (out : String) (isFirst : Bool) : List Document → String
  | [] => out
  | item :: rest =>
    writeItems (writeJson (if isFirst then out else out ++ ",") item) false rest

/-- Appends the members of a record. -/
def writeMembers (out : String) (isFirst : Bool) : List (String × Document) → String
  | [] => out
  | (name, value) :: rest =>
    writeMembers (writeJson ((if isFirst then out else out ++ ",") ++ jsonText name ++ ":") value)
      false rest

end

/-- The text of a document. -/
def toJson (d : Document) : String := writeJson "" d

end Reenact.Document
