import Reenact.Toml.Number
import Reenact.Toml.Table

/-!
# Reading settings files

Reads the lines of a TOML file into one document: keys with values, headings of tables, headings
that several tables share, and comments. Values may be nested, less than eighty deep; a path of keys
is as short. The reader of values takes fuel; its steps are no more than twice the characters.
-/

namespace Reenact.Toml

/-- How deep values may be nested, and how many keys a path may have. -/
def depthLimit : Nat := 79

/-- Whether the character may stand in a key without quotes. -/
def isKeyChar (c : Char) : Bool := c.isAlphanum || c = '_' || c = '-'

def simpleKey? (input : List Char) : Option (String × List Char) :=
  match input with
  | '"' :: _ | '\'' :: _ => lineText? input
  | _ =>
    let key := input.takeWhile isKeyChar
    if key.isEmpty then none else some (String.ofList key, input.drop key.length)

/-- Reads keys with dots between them, and the spaces around them; at most `count` keys. -/
def keys? : Nat → List Char → Option (List String × List Char)
  | 0, _ => none
  | count + 1, input => do
    let (key, rest) ← simpleKey? (skipSpaces input)
    match skipSpaces rest with
    | '.' :: rest =>
      let (keys, rest) ← keys? count rest
      return (key :: keys, rest)
    | rest => return ([key], rest)

/-- Reads a path: the keys in front and the last one. -/
def path? (input : List Char) : Option ((List String × String) × List Char) := do
  let (keys, rest) ← keys? depthLimit input
  let last ← keys.getLast?
  return ((keys.dropLast, last), rest)

/-- The input behind a comment. -/
def skipComment : List Char → List Char
  | '#' :: rest => rest.dropWhile isPrintable
  | input => input

/-- The input behind the end of a line, or at the end of the file. -/
def lineEnd? : List Char → Option (List Char)
  | [] => some []
  | input => newline? input

/-- The input behind the rest of a line, which may hold a comment only. -/
def lineRest? (input : List Char) : Option (List Char) :=
  lineEnd? (skipComment (skipSpaces input))

/-- The input behind spaces, ends of lines and comments inside of a list. -/
def skipGaps : Nat → List Char → Option (List Char)
  | 0, _ => none
  | fuel + 1, input =>
    match skipBlankLines input with
    | '#' :: rest => do skipGaps fuel (← newline? (rest.dropWhile isPrintable))
    | rest => some rest

/-- A table inside of a value: its entries so far, with one more key that may have dots. -/
def addInline (t : Table) (path : List String) (key : String) (value : Item) : Option Table :=
  t.set path key value

mutual

/-- The document of an item. -/
def Item.toDocument : Item → Document
  | .value content => content
  | .table _ _ entries => .record (entriesToDocument entries)
  | .tables items => .list (tablesToDocument items).reverse

def entriesToDocument : List (String × Item) → List (String × Document)
  | [] => []
  | (key, item) :: rest => (key, item.toDocument) :: entriesToDocument rest

def tablesToDocument : List (List (String × Item)) → List Document
  | [] => []
  | entries :: rest => .record (entriesToDocument entries) :: tablesToDocument rest

end

mutual

/-- Reads a value that may be nested `depth` deep. -/
def value? : (fuel depth : Nat) → List Char → Option (Document × List Char)
  | 0, _, _ => none
  | fuel + 1, depth, input =>
    match input with
    | '"' :: _ | '\'' :: _ => (text? input).map fun (s, rest) => (.text s, rest)
    | 't' :: 'r' :: 'u' :: 'e' :: rest => some (.bool true, rest)
    | 'f' :: 'a' :: 'l' :: 's' :: 'e' :: rest => some (.bool false, rest)
    | '[' :: rest =>
      match depth with
      | 0 => none
      | depth + 1 => (items? fuel depth rest).map fun (items, rest) => (.list items, rest)
    | '\x7b' :: rest =>
      match depth with
      | 0 => none
      | depth + 1 =>
        match skipSpaces rest with
        | '\x7d' :: rest => some (.record [], rest)
        | rest =>
          (pairs? fuel depth .empty rest).map fun (table, rest) => (table.toItem.toDocument, rest)
    | c :: _ =>
      if c.isDigit || c = '+' || c = '-' || c = 'i' || c = 'n' then
        match dateTime? input with
        | some (_, rest) => some (.real "date", rest)
        | none =>
          match float? input with
          | some (_, rest) => some (.real "number", rest)
          | none => (integer? input).map fun (n, rest) => (.integer n, rest)
      else none
    | [] => none

/-- Reads the items of a list up to its closing bracket. -/
def items? : (fuel depth : Nat) → List Char → Option (List Document × List Char)
  | 0, _, _ => none
  | fuel + 1, depth, input => do
    match ← skipGaps (input.length + 1) input with
    | ']' :: rest => return ([], rest)
    | rest =>
      let (item, rest) ← value? fuel depth rest
      match ← skipGaps (rest.length + 1) rest with
      | ',' :: rest => (items? fuel depth rest).map fun (items, rest) => (item :: items, rest)
      | ']' :: rest => return ([item], rest)
      | _ => none

/-- Reads the keys and values of a table on one line up to its closing brace. -/
def pairs? : (fuel depth : Nat) → Table → List Char → Option (Table × List Char)
  | 0, _, _, _ => none
  | fuel + 1, depth, table, input => do
    let ((path, key), rest) ← path? input
    let rest ← expect? '=' rest
    let (value, rest) ← value? fuel depth (skipSpaces rest)
    let table ← addInline table path key (.value value)
    match skipSpaces rest with
    | ',' :: rest => pairs? fuel depth table rest
    | '\x7d' :: rest => return (table, rest)
    | _ => none

end

/-- The tables read so far. -/
structure State where
  /-- The whole file, without the table that is being read. -/
  root : Table
  /-- The table that is being read. -/
  current : Table
  /-- The path of the heading of the table that is being read; none for the file itself. -/
  heading : Option (List String × String)
  /-- Whether several tables may share the heading. -/
  isShared : Bool

namespace State

def start : State := ⟨.empty, .empty, none, false⟩

/-- The whole file, with the table that was read put in its place. -/
def close (s : State) : Option Table :=
  match s.heading with
  | none => some s.current
  | some (path, key) =>
    if s.isShared then s.root.putShared path key s.current
    else s.root.putHeaded path key s.current

/-- Opens a table with a heading of its own. -/
def openTable (s : State) (path : List String) (key : String) : Option State := do
  let root ← s.close
  let (root, table) ← root.takeHeaded path key
  return ⟨root, table, some (path, key), false⟩

/-- Opens one more table under a shared heading. -/
def openShared (s : State) (path : List String) (key : String) : Option State := do
  let root ← s.close
  let root ← root.openShared path key
  return ⟨root, .empty, some (path, key), true⟩

end State

/-- Reads one line that is neither empty nor a comment alone. -/
def line? (s : State) (input : List Char) : Option (State × List Char) :=
  match input with
  | '[' :: '[' :: rest => do
    let ((path, key), rest) ← path? rest
    let rest ← expect? ']' rest
    let rest ← lineRest? (← expect? ']' rest)
    return (← s.openShared path key, rest)
  | '[' :: rest => do
    let ((path, key), rest) ← path? rest
    let rest ← lineRest? (← expect? ']' rest)
    return (← s.openTable path key, rest)
  | _ => do
    let ((path, key), rest) ← path? input
    let rest := skipSpaces (← expect? '=' rest)
    let (value, rest) ← value? (2 * rest.length + 2) depthLimit rest
    let rest ← lineRest? rest
    let current ← s.current.set path key (.value value)
    return ({ s with current := current }, rest)

def lines? : Nat → State → List Char → Option State
  | 0, _, _ => none
  | fuel + 1, s, input =>
    match skipBlankLines input with
    | [] => some s
    | '#' :: rest => do lines? fuel s (← lineRest? ('#' :: rest))
    | rest => do
      let (s, rest) ← line? s rest
      lines? fuel s rest

/-- The document of a settings file. A byte order mark in front is passed over. -/
def read? (content : String) : Option Document := do
  let input :=
    match content.toList with
    | '\ufeff' :: rest => rest
    | input => input
  let s ← lines? (input.length + 1) .start input
  let root ← s.close
  return root.toItem.toDocument

end Reenact.Toml
