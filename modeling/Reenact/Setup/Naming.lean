import Reenact.Recording.Basic
import Reenact.Text.Word

/-!
# Names for objects

Variable names for the objects of a setup. A name is built on a word for the type; where several
objects share the word they are numbered from one in the order in which they were recorded.
-/

namespace Reenact.Setup

/-- Names of objects; the first entry of an object counts. -/
structure Naming where
  entries : List (ObjectId × String)
  deriving DecidableEq, Repr

namespace Naming

def empty : Naming := ⟨[]⟩

/-- The name of an object. -/
def get? (n : Naming) (id : ObjectId) : Option String := n.entries.lookup id

/-- Names an object, in the place of an earlier name. -/
def insert (n : Naming) (id : ObjectId) (name : String) : Naming :=
  ⟨(id, name) :: n.entries.filter (·.1 != id)⟩

/-- How many objects have names. -/
def size (n : Naming) : Nat := n.entries.length

/-- Whether no object has a name. -/
def isEmpty (n : Naming) : Bool := n.entries.isEmpty

/-- The word that the names of objects of a type are built on. -/
def base (typeName module : String) : String :=
  if typeName = "list" then "alist"
  else if typeName = "dict" then "adict"
  else
    let qualified := module ++ "." ++ typeName
    if qualified = "array.array" then "array"
    else if qualified = "types.FunctionType" then "function"
    else if qualified = "types.GeneratorType" then "generator"
    else Text.snakeCase typeName

/-- The objects without repetition, in the order in which they were recorded. -/
def inOrder (objects : List Object) : List Object :=
  (objects.mergeSort fun a b => decide (a.moment.tick ≤ b.moment.tick)).foldr
    (fun o rest => if rest.head?.any (fun p => p.id == o.id) then rest else o :: rest) []

/-- The names of objects with their words: `total` counts all words, and `seen` those in front. -/
def number (total : List String) (seen : List String) :
    List (ObjectId × String) → List (ObjectId × String)
  | [] => []
  | (id, word) :: rest =>
    let name := if total.count word = 1 then word else word ++ toString (seen.count word + 1)
    (id, name) :: number total (word :: seen) rest

/-- Names for objects in the order in which they were recorded. -/
def ofObjects (objects : List Object) : Naming :=
  let words := (inOrder objects).map fun o => (o.id, base o.typeName o.module)
  ⟨number (words.map Prod.snd) [] words⟩

/-- Names for objects of a recording. -/
def assign (r : Recording) (ids : List ObjectId) : Except Fault Naming := do
  let objects ← ids.mapM r.object
  return ofObjects objects

end Naming

end Reenact.Setup
