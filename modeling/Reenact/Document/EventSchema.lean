import Reenact.Document.Access
import Reenact.Document.RecordingSchema
import Reenact.Trace.MutationTable
import Reenact.Trace.Host

/-!
# Events in documents

How a host writes values, frames and events in documents. A value is a record whose member `t` tells
its kind, or the name under which a table holds it. The kind implies the name and module of the
type; members of those names replace them.
-/

namespace Reenact

namespace CodeId

/-- Code by its number. -/
def ofDocument (d : Document) : CodeId := ⟨d.asNat⟩

end CodeId

/-- Values that other values may refer to by name. -/
abbrev ValueTable := List (String × Value)

namespace Value

/-- A number of 64 bits in hexadecimal digits. -/
def bitsOfDocument (d : Document) : Decimal.Binary64 :=
  ⟨UInt64.ofNat ((Text.number? 16 d.asText.toList).getD 0)⟩

/-- What is known of every value, with the type that the kind implies. -/
def headerOfDocument (d : Document) (typeName module : String) : Header where
  handle := .observed (d.field "h").asNat
  typeName := ((d.field "type").given? Document.asText).getD typeName
  module := ((d.field "module").given? Document.asText).getD module
  methods := (d.field "methods").items.map fun m => ((m.item 0).asText, .ofDocument (m.item 1))

/-- A value of builtin type that is written without others, by its kind. -/
def literalOfDocument? (d : Document) : Option Value :=
  let plain (typeName : String) : Literal → Value :=
    .literal (headerOfDocument d typeName builtinModule)
  let v := d.field "v"
  match (d.field "t").asText with
  | "none" => some (plain "NoneType" .none)
  | "bool" => some (plain "bool" (.bool v.asBool))
  | "int" => some (plain "int" (.int v.asInteger))
  | "float" => some (plain "float" (.float (bitsOfDocument (d.field "bits"))))
  | "str" => some (plain "str" (.text v.asText))
  | "pattern" =>
    some (.literal (headerOfDocument d "Pattern" "re")
      (.pattern v.asText (d.field "flags").asTexts))
  | "func" =>
    some (plain "function" (.function (d.field "name").asText (d.field "in").asText))
  | _ => none

/-- The shape of a sequence, by its kind. -/
def shapeOfDocument? (d : Document) : Option Shape :=
  match (d.field "t").asText with
  | "list" => some .list
  | "tuple" => some .tuple
  | "set" => some .set
  | "frozenset" => some .frozenSet
  | "array" => some (.array ((d.field "code").char?.getD 'i'))
  | _ => none

/-- The module of the type of a sequence. -/
def shapeModule : Shape → String
  | .array _ => "array"
  | _ => builtinModule

/-- A value, or the value that the table holds under that name. -/
def ofDocument (table : ValueTable) (d : Document) : Value :=
  let given := headerOfDocument d "" ""
  match d.text? with
  | some name => (table.lookup name).getD (.other given)
  | none =>
    match literalOfDocument? d, shapeOfDocument? d with
    | some v, _ => v
    | none, some shape =>
      .sequence (headerOfDocument d shape.typeName (shapeModule shape)) shape
        ((d.field "items").items.attach.map fun c => ofDocument table c.1)
    | none, none =>
      match (d.field "t").asText with
      | "map" =>
        .map (headerOfDocument d "dict" builtinModule)
          ((d.field "entries").items.attach.map fun c =>
            (ofDocument table (c.1.item 0), ofDocument table (c.1.item 1)))
      | "exc" =>
        .exception (headerOfDocument d "Exception" builtinModule)
          ((d.field "args").items.attach.map fun c => ofDocument table c.1)
          (((d.field "builtin").given? Document.asBool).getD true)
      | "gen" =>
        .generator (headerOfDocument d "generator" builtinModule) ⟨(d.field "frame").asText⟩
      | "inst" => .object given
      | "lib" =>
        .library given ((d.field "attrs").items.attach.map fun c =>
          ((c.1.item 0).asText, ofDocument table (c.1.item 1)))
      | _ => .other given
termination_by sizeOf d
decreasing_by
  all_goals
    have lt := Document.sizeOf_lt_of_mem_items_field c.2
    have first := Document.sizeOf_item_le c.1 0
    have second := Document.sizeOf_item_le c.1 1
    omega

/-- Two documents at a time. -/
def pairsOf : List Document → List Document
  | a :: b :: rest => .list [a, b] :: pairsOf rest
  | _ => []

/-- What kind of value it is, given the documents of the values that it holds. -/
def kindToDocument (released : List FrameId) (parts : List Document) (v : Value) : Document :=
  match v with
  | .literal _ value => .tagged "literal" (.text value.code)
  | .sequence _ shape _ => .record [("sequence", shape.toDocument), ("items", .list parts)]
  | .map .. => .tagged "map" (.list (pairsOf parts))
  | .exception _ _ isBuiltin => .record [("exception", .list parts), ("builtin", .bool isBuiltin)]
  | .generator .. => .tagged "generator" (.bool (v.isReleased released))
  | .library _ attributes =>
    .tagged "library" (.list ((attributes.zip parts).map fun e => .list [.text e.1.1, e.2]))
  | .object _ => .text "instance"
  | .other _ => .text "opaque"

/-- A value as a reader sees it, while the frames in `released` are released. -/
def toDocument (released : List FrameId) (v : Value) : Document :=
  let parts := v.held.attach.map fun w => toDocument released w.1
  .record [
    ("h", .text ((if v.handle.isBuilt then "s" else "") ++ toString v.handle.number)),
    ("type", .text v.typeName), ("module", .text v.module),
    ("kind", v.kindToDocument released parts)]
termination_by sizeOf v
decreasing_by exact sizeOf_lt_of_mem_held w.2

end Value

namespace ValueTable

/-- A table of values, each of which may refer to earlier ones. -/
def ofDocument (d : Document) : ValueTable :=
  d.items.foldl (fun table entry =>
    ((entry.item 0).asText, Value.ofDocument table (entry.item 1)) :: table) []

end ValueTable

namespace NamedValues

/-- A name and a value. -/
def entryOfDocument (table : ValueTable) (d : Document) : String × Value :=
  ((d.item 0).asText, Value.ofDocument table (d.item 1))

/-- Values by name, in order. -/
def ofDocument (table : ValueTable) (d : Document) : NamedValues :=
  d.items.map (entryOfDocument table)

/-- Each name with its value as a reader sees it. -/
def toDocument (released : List FrameId) (args : NamedValues) : Document :=
  .ofList (fun a => .list [.text a.1, a.2.toDocument released]) args

end NamedValues

namespace Frame

def ofDocument (table : ValueTable) (d : Document) : Frame :=
  let code := d.field "code"
  let entry := NamedValues.entryOfDocument table
  { code :=
      { id := .ofDocument (code.field "id")
        name := (code.field "name").asText
        file := (code.field "file").asText
        isGenerator := (code.field "gen").asBool
        isClassBody := (code.field "body").asBool }
    args :=
      { named := .ofDocument table (d.field "named")
        extra := (d.field "varargs").given? entry
        keywords := (d.field "varkw").given? entry }
    generator := (d.field "generator").given? (Value.ofDocument table) }

end Frame

namespace TracebackId

/-- A traceback by its number. -/
def ofDocument (d : Document) : TracebackId := ⟨d.asNat⟩

end TracebackId

namespace Raised

/-- An exception, by the first member that is there. -/
def ofDocument (table : ValueTable) (d : Document) : Raised :=
  match d.field "inst", d.field "msg", d.field "args" with
  | .null, .null, .null => .text (d.field "legacy").asText
  | .null, .null, parts =>
    .args (parts.item 0).asText ((parts.item 1).items.map (Value.ofDocument table))
  | .null, told, _ => .message (told.item 0).asText (told.item 1).asText
  | whole, _, _ => .value (Value.ofDocument table whole)

end Raised

namespace Foreign

/-- A call of foreign code. -/
def ofDocument (table : ValueTable) (d : Document) : Foreign where
  name := (d.field "name").asText
  receiver := (d.field "recv").given? (Value.ofDocument table)
  args := (d.field "args").items.map (Value.ofDocument table)
  keywords := .ofDocument table (d.field "kwargs")
  callables := (d.field "callables").items.map CodeId.ofDocument

end Foreign

namespace Event

/-- An event, by its member `e`. -/
def ofDocument (table : ValueTable) (d : Document) : Event :=
  let v := d.field "v"
  let value := Value.ofDocument table
  let module := (d.field "module").asText
  let name := (d.field "name").asText
  match (d.field "e").asText with
  | "call" => .call (.ofDocument table d)
  | "ret" => .ret (value v) ((d.field "handled").given? TracebackId.ofDocument)
  | "raise" => .raise (.ofDocument table d) (.ofDocument (d.field "tb"))
  | "opaque" => .foreignCall (.ofDocument table d)
  | "opaque_ret" => .foreignReturn (v.given? value)
  | "gread" => .globalRead module name (value v)
  | "gbind" => .globalRebind module name (value v)
  | "attr" => .attributeRebind (value (d.field "target")) name (value v)
  | _ => .moduleLoaded module ((d.field "codes").items.map CodeId.ofDocument)

end Event

namespace MutationTable

/-- A table: the standard one unless it says that it starts empty, with further entries. -/
def ofDocument (d : Document) : MutationTable :=
  let base := if (d.field "base").asText == "empty" then empty else standard
  (d.field "add").items.foldl (fun t entry =>
    match Mutation.ofTag? (entry.item 2).asText with
    | some op => t.register (entry.item 0).asText (entry.item 1).asText op
    | none => t) base

end MutationTable

namespace Failure

/-- How a point of entry failed. -/
def ofDocument (d : Document) : Failure :=
  ⟨(d.field "type").given? Document.asText, (d.field "message").asText⟩

/-- The failure and its text. -/
def toDocument (f : Failure) : Document :=
  .record [
    ("type", .ofOption .text f.typeName), ("message", .text f.description), ("text", .text f.text)]

end Failure

namespace Host

/-- A host that has not run. -/
def ofDocument (table : ValueTable) (d : Document) : Host where
  events := (d.field "events").items.map (Event.ofDocument table)
  failure := (d.field "failure").given? Failure.ofDocument
  driver := (d.field "driver").given? CodeId.ofDocument
  isInstalled := (d.field "installed").asBool
  patched := []
  modules := (d.field "modules").asTexts
  runs := 0

end Host

end Reenact
