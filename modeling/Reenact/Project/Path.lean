/-!
# Paths and module names

A path is read as its components: repeated slashes, a slash at the end and inner `.` components
vanish, `..` stays. A file below the root of a project is the module named by its components
relative to the root, without the extension of the last one.
-/

namespace Reenact.Path

/-- The parts between slashes. -/
def segments (path : List Char) : List (List Char) :=
  match path with
  | [] => [[]]
  | '/' :: rest => [] :: segments rest
  | c :: rest =>
    match segments rest with
    | [] => [[c]]
    | first :: others => (c :: first) :: others

/-- Whether a part between slashes counts as a component, apart from a leading dot. -/
def isComponent (segment : List Char) : Bool :=
  !segment.isEmpty && segment != ['.']

/-- The components: a slash for the root of an absolute path, a dot that a relative path begins
with, and all other parts except empty ones and dots. -/
def components (path : List Char) : List (List Char) :=
  let parts := segments path
  let start :=
    if path.head? = some '/' then [['/']]
    else if parts.head? = some ['.'] then [['.']]
    else []
  start ++ parts.filter isComponent

/-- What the text has in front of its last dot, if it has one. -/
def beforeLastDot? (name : List Char) : Option (List Char) :=
  match name with
  | [] => none
  | c :: rest =>
    match beforeLastDot? rest with
    | some front => some (c :: front)
    | none => if c = '.' then some [] else none

/-- A file name without its extension. A dot in front is no extension, the name of the parent
directory has none, and two dots stay when what follows them is dropped. -/
def stem (name : List Char) : List Char :=
  if name = ['.', '.'] then name
  else
    match beforeLastDot? name with
    | none | some [] => name
    | some ['.'] => ['.', '.']
    | some front => front

/-- The components of a path below a root. -/
def relativeTo? (root path : List Char) : Option (List (List Char)) :=
  let front := components root
  let all := components path
  if front.isPrefixOf all then some (all.drop front.length) else none

/-- Whether the path lies below the root or is the root. -/
def isWithin (root path : String) : Bool :=
  (relativeTo? root.toList path.toList).isSome

/-- The components with the extension of the last one dropped. -/
def withoutExtension : List (List Char) → List (List Char)
  | [] => []
  | [last] => [stem last]
  | first :: rest => first :: withoutExtension rest

/-- The file that stands for its whole directory. -/
def packageStem : List Char := "__init__".toList

/-- The names in the module path of a file, given its components below the root. -/
def moduleNames (parts : List (List Char)) : List (List Char) :=
  let names := withoutExtension parts
  if names.getLast? = some packageStem then names.dropLast else names

/-- The module of a file below the root; there is none for the root itself or its own package
file. -/
def module? (root path : String) : Option String :=
  match relativeTo? root.toList path.toList with
  | none => none
  | some parts =>
    match moduleNames parts with
    | [] => none
    | names => some (String.intercalate "." (names.map String.ofList))

end Reenact.Path
