import Reenact.Code.Import

/-!
# Pieces of code

A piece of code together with the imports it needs, and whether it has a gap that a person still
has to fill in. Putting pieces together unites their imports, and the whole has a gap when a part
has one.
-/

namespace Reenact

structure Snippet where
  code : String
  /-- The imports that the text needs. -/
  imports : ImportSet
  /-- Whether a person has to complete the text. -/
  hasGap : Bool
  deriving DecidableEq

namespace Snippet

/-- Complete code that needs no imports. -/
def plain (code : String) : Snippet := ⟨code, .empty, false⟩

/-- Complete code with its imports. -/
def withImports (code : String) (imports : ImportSet) : Snippet := ⟨code, imports, false⟩

/-- A gap, with a hint for the person who fills it in. -/
def gap (hint : String) : Snippet := ⟨s!"<TODO: {hint}>", .empty, true⟩

def empty : Snippet := plain ""

instance : Inhabited Snippet := ⟨empty⟩

/-- The snippet with one more import. -/
def addImport (s : Snippet) (i : Import) : Snippet :=
  { s with imports := s.imports.insert i }

/-- The snippet with more imports. -/
def addImports (s : Snippet) (imports : List Import) : Snippet :=
  { s with imports := s.imports.insertAll imports }

/-- The snippet between two texts. -/
def surround (s : Snippet) (front back : String) : Snippet :=
  { s with code := front ++ s.code ++ back }

/-- The snippet, a separator and another snippet. -/
def followedBy (s : Snippet) (separator : String) (t : Snippet) : Snippet :=
  ⟨s.code ++ separator ++ t.code, s.imports.union t.imports, s.hasGap || t.hasGap⟩

/-- The snippets in order with a separator between neighbours. -/
def join (separator : String) : List Snippet → Snippet
  | [] => empty
  | s :: rest => rest.foldl (fun whole part => whole.followedBy separator part) s

/-- What stands in front of the first `%s` of a format and what stands behind it; all of the format
and nothing when there is none. -/
def splitAtHole : List Char → List Char × List Char
  | [] => ([], [])
  | '%' :: 's' :: rest => ([], rest)
  | c :: rest => (c :: (splitAtHole rest).1, (splitAtHole rest).2)

/-- The snippet in the place of the first `%s` of a format. -/
def wrap (s : Snippet) (format : String) : Snippet :=
  let (front, back) := splitAtHole format.toList
  s.surround (String.ofList front) (String.ofList back)

end Snippet

end Reenact
