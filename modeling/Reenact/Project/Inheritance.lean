import Reenact.Project.Basic
import Reenact.Graph.Reach

/-!
# Looking methods up

A method is looked for in the class itself and then in its bases, depth first and in the order in
which they are declared; no class is looked into twice, so bases may form cycles.
-/

namespace Reenact.Project

/-- The position of the first method of that name among the methods of the class itself. -/
def ownMethod (p : Project) (name : String) (index : Nat) : Option MethodId :=
  match p.classes[index]? with
  | some c => (c.methods.findIdx? fun m => m.name == name).map fun i => ⟨⟨index⟩, i⟩
  | none => none

/-- The bases of a class. -/
def basesOf (p : Project) (index : Nat) : List Nat :=
  match p.classes[index]? with
  | some c => c.bases.map ClassId.index
  | none => []

/-- The first method of that name on the way from the class through its bases. -/
def findMethod (p : Project) (cls : ClassId) (name : String) : Option MethodId :=
  Graph.search p.classes.size p.basesOf (p.ownMethod name) [] [cls.index]

end Reenact.Project
