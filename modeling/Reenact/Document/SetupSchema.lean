import Reenact.Document.Access
import Reenact.Document.RecordingSchema
import Reenact.Setup.Lines

/-!
# Setups in documents

How snippets, the entries of a plan, names and lines of setup code are written in documents.
-/

namespace Reenact

namespace Snippet

/-- The code, the imports it needs, and whether it has a gap. -/
def toDocument (s : Snippet) : Document :=
  .record [
    ("code", .text s.code), ("imports", s.imports.toDocument), ("uncomplete", .bool s.hasGap)]

end Snippet

namespace Setup

namespace Entry

/-- What the entry makes or repeats. -/
def toDocument : Entry → Document
  | object id => .tagged "o" id.toDocument
  | effect id => .tagged "e" id.toDocument
  | grown list => .record [
      ("seq", list.object.toDocument), ("shape", list.shape.toDocument),
      ("contained", objectsDocument list.contained),
      ("appends", .ofList EffectId.toDocument list.appends)]

def ofDocument? (d : Document) : Option Entry :=
  match d.field "o", d.field "e" with
  | .null, .null => do
    return .grown {
      object := ← ObjectId.ofDocument? (d.field "seq")
      shape := ← Shape.ofDocument? (d.field "shape")
      contained := ← objectsOfDocument? (d.field "contained")
      appends := ← (d.field "appends").list? EffectId.ofDocument? }
  | .null, id => (EffectId.ofDocument? id).map .effect
  | id, _ => (ObjectId.ofDocument? id).map .object

end Entry

namespace Naming

/-- The names in the order of the objects. -/
def toDocument (n : Naming) : Document :=
  .ofList (fun e => .list [e.1.toDocument, .text e.2])
    (n.entries.mergeSort fun a b => decide (a.1.index ≤ b.1.index))

/-- Names of objects. -/
def ofDocument (d : Document) : Naming :=
  d.items.foldl (fun n e => n.insert ⟨(e.item 0).asNat⟩ (e.item 1).asText) .empty

end Naming

/-- A line with its variable. -/
def Line.toDocument (l : Line) : Document :=
  .record [
    ("text", .text l.text), ("name", .ofOption .text l.name),
    ("imports", l.code.imports.toDocument), ("uncomplete", .bool l.code.hasGap)]

/-- A plan with its setup code: the moments of its entries, and how often each object of the
recording is used. -/
def Plan.toDocument (plan : Plan) (p : Project) (r : Recording) : Except Fault Document := do
  let script ← scriptOf p r plan
  let times ← plan.all.mapM (Entry.moment r)
  return .record [
    ("closure", .ofList Entry.toDocument plan.closure),
    ("all", .ofList Entry.toDocument plan.all),
    ("times", .ofList Moment.toDocument times),
    ("named", objectsDocument plan.named),
    ("uses", .ofList (fun o => .nat (plan.useCount o.id)) r.objects.toList),
    ("effects", .ofList EffectId.toDocument plan.effects),
    ("empty", .bool plan.isEmpty),
    ("names", script.names.toDocument),
    ("lines", .ofList Line.toDocument script.lines),
    ("imports", script.imports.toDocument)]

end Setup

end Reenact
