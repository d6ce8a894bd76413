import Reenact.Setup.Plan
import Reenact.Setup.Render

/-!
# Setup code

The lines of a setup: an assignment for each object that gets a name, and a statement for each side
effect to repeat.
-/

namespace Reenact.Setup

/-- A line of setup code. -/
structure Line where
  /-- The entry that it stands for. -/
  entry : Entry
  /-- The variable that it assigns to. -/
  name : Option String
  /-- What it assigns, or the whole statement. -/
  code : Snippet
  deriving DecidableEq

/-- The text of the line. -/
def Line.text (l : Line) : String :=
  match l.name with
  | some name => name ++ " = " ++ l.code.code
  | none => l.code.code

/-- Setup code. -/
structure Script where
  names : Naming
  lines : List Line
  deriving DecidableEq

/-- All imports that the lines need. -/
def Script.imports (s : Script) : ImportSet :=
  s.lines.foldl (fun set l => set.union l.code.imports) .empty

/-- The line of an entry. -/
def lineOf (p : Project) (r : Recording) (names : Naming) (entry : Entry) : Except Fault Line :=
  match entry with
  | .object id => do return ⟨entry, names.get? id, ← define p r names id⟩
  | .grown list => do
    return ⟨entry, names.get? list.object,
      ← writeSequence (construct p r names) list.shape list.contained⟩
  | .effect id => do return ⟨entry, none, ← renderEffect p r names id⟩

/-- The setup code of a plan. -/
def scriptOf (p : Project) (r : Recording) (plan : Plan) : Except Fault Script := do
  let names ← Naming.assign r plan.named
  return ⟨names, ← plan.all.mapM (lineOf p r names)⟩

end Reenact.Setup
