import Reenact.Document.ProjectSchema
import Reenact.Recording.Basic

/-!
# Recordings as documents

How imports, objects, calls and side effects are written in documents, and read back.
-/

namespace Reenact

namespace Handle

def toDocument (h : Handle) : Document := .nat h.word

def ofDocument? (d : Document) : Option Handle := d.nat64?.map ofWord

end Handle

namespace Import

/-- The module, or the name with its module. -/
def toDocument : Import → Document
  | .module name => .tagged "Module" (.text name)
  | .member source name =>
    .tagged "Name" (.record [("module", .text source), ("name", .text name)])

def ofDocument? (d : Document) : Option Import := do
  match ← d.choice? with
  | ("Module", some content) => return .module (← content.text?)
  | ("Name", content) =>
    let fs ← Document.contentFields? content
    return .member (← fs.required 0 "module" Document.text?)
      (← fs.required 1 "name" Document.text?)
  | _ => none

end Import

namespace ImportSet

def toDocument (s : ImportSet) : Document := .ofList Import.toDocument s.items

/-- Reads imports, in any order and with repetition. -/
def ofDocument? (d : Document) : Option ImportSet :=
  (d.list? Import.ofDocument?).map ofList

end ImportSet

namespace Shape

/-- The name of the shape, and the type code of an array. -/
def toDocument : Shape → Document
  | list => .text "List"
  | tuple => .text "Tuple"
  | set => .text "Set"
  | frozenSet => .text "FrozenSet"
  | array code => .tagged "Array" (.text code.toString)

def ofDocument? (d : Document) : Option Shape := do
  match ← d.choice? with
  | ("List", content) => (Document.noContent? content).map fun _ => .list
  | ("Tuple", content) => (Document.noContent? content).map fun _ => .tuple
  | ("Set", content) => (Document.noContent? content).map fun _ => .set
  | ("FrozenSet", content) => (Document.noContent? content).map fun _ => .frozenSet
  | ("Array", some content) => content.char?.map .array
  | _ => none

end Shape

namespace Use

def toDocument : Use → Document
  | call id => .tagged "Call" id.toDocument
  | generator id => .tagged "Generator" id.toDocument

def ofDocument? (d : Document) : Option Use := do
  match ← d.choice? with
  | ("Call", some content) => return .call (← CallId.ofDocument? content)
  | ("Generator", some content) => return .generator (← ObjectId.ofDocument? content)
  | _ => none

end Use

namespace Maker

def toDocument : Maker → Document
  | function id => .tagged "Function" id.toDocument
  | userObject id => .tagged "UserObject" id.toDocument

def ofDocument? (d : Document) : Option Maker := do
  match ← d.choice? with
  | ("Function", some content) => return .function (← FunctionId.ofDocument? content)
  | ("UserObject", some content) => return .userObject (← ObjectId.ofDocument? content)
  | _ => none

end Maker

namespace Arguments

def toDocument (a : Arguments) : Document :=
  .record (a.entries.map fun entry => (entry.1, entry.2.toDocument))

def ofDocument? (d : Document) : Option Arguments :=
  (d.table? ObjectId.ofDocument?).map ofList

end Arguments

namespace Activation

def toDocument (a : Activation) : Document :=
  .record [
    ("definition", a.definition.toDocument), ("args", a.args.toDocument),
    ("callable", a.maker.toDocument)]

def ofDocument? (d : Document) : Option Activation := do
  let fs ← d.fields? 3
  return {
    definition := ← fs.required 0 "definition" Definition.ofDocument?
    args := ← fs.required 1 "args" Arguments.ofDocument?
    maker := ← fs.required 2 "callable" Maker.ofDocument? }

end Activation

def objectsDocument (ids : List ObjectId) : Document := .ofList ObjectId.toDocument ids

def objectsOfDocument? (d : Document) : Option (List ObjectId) :=
  d.list? ObjectId.ofDocument?

namespace ObjectKind

/-- What is particular to an object. -/
def toDocument : ObjectKind → Document
  | immutable code imports =>
    .tagged "Immutable" (.record [("reconstructor", .text code), ("imports", imports.toDocument)])
  | sequence shape contained =>
    .tagged "Sequence" (.record [
      ("shape", shape.toDocument), ("contained", objectsDocument contained)])
  | map mapping =>
    .tagged "Map" (.record [
      ("mapping", .ofList (fun entry => objectsDocument [entry.1, entry.2]) mapping)])
  | exception args => .tagged "Exception" (.record [("args", objectsDocument args)])
  | library format args imports =>
    .tagged "Library" (.record [
      ("format", .text format), ("args", objectsDocument args), ("imports", imports.toDocument)])
  | unknown hint => .tagged "Unknown" (.record [("partial_reconstructor", .text hint)])
  | user cls initCall uses =>
    .tagged "User" (.record [
      ("class", cls.toDocument), ("init_call", .ofOption CallId.toDocument initCall),
      ("calls", .ofList Use.toDocument uses)])
  | generator activation calls =>
    .tagged "Generator" (.record [
      ("activation", .ofOption Activation.toDocument activation),
      ("calls", .ofList CallId.toDocument calls)])

def ofDocument? (d : Document) : Option ObjectKind := do
  match ← d.choice? with
  | ("Immutable", some content) =>
    let fs ← content.fields? 2
    return .immutable (← fs.required 0 "reconstructor" Document.text?)
      (← fs.required 1 "imports" ImportSet.ofDocument?)
  | ("Sequence", some content) =>
    let fs ← content.fields? 2
    return .sequence (← fs.required 0 "shape" Shape.ofDocument?)
      (← fs.required 1 "contained" objectsOfDocument?)
  | ("Map", some content) =>
    let fs ← content.fields? 1
    return .map (← fs.required 0 "mapping"
      (Document.list? (Document.pair? ObjectId.ofDocument? ObjectId.ofDocument?)))
  | ("Exception", some content) =>
    let fs ← content.fields? 1
    return .exception (← fs.required 0 "args" objectsOfDocument?)
  | ("Library", some content) =>
    let fs ← content.fields? 3
    return .library (← fs.required 0 "format" Document.text?)
      (← fs.required 1 "args" objectsOfDocument?)
      (← fs.required 2 "imports" ImportSet.ofDocument?)
  | ("Unknown", some content) =>
    let fs ← content.fields? 1
    return .unknown (← fs.required 0 "partial_reconstructor" Document.text?)
  | ("User", some content) =>
    let fs ← content.fields? 3
    return .user (← fs.required 0 "class" ClassId.ofDocument?)
      (← fs.optional 1 "init_call" CallId.ofDocument?)
      (← fs.required 2 "calls" (Document.list? Use.ofDocument?))
  | ("Generator", some content) =>
    let fs ← content.fields? 2
    return .generator (← fs.optional 0 "activation" Activation.ofDocument?)
      (← fs.required 1 "calls" (Document.list? CallId.ofDocument?))
  | _ => none

end ObjectKind

namespace Object

def toDocument (o : Object) : Document :=
  .record [
    ("id", o.id.toDocument), ("timestamp", o.moment.toDocument),
    ("human_readable_id", .text o.word), ("type_name", .text o.typeName),
    ("module_name", .text o.module), ("kind", o.kind.toDocument)]

def ofDocument? (d : Document) : Option Object := do
  let fs ← d.fields? 6
  return {
    id := ← fs.required 0 "id" ObjectId.ofDocument?
    moment := ← fs.required 1 "timestamp" Moment.ofDocument?
    word := ← fs.required 2 "human_readable_id" Document.text?
    typeName := ← fs.required 3 "type_name" Document.text?
    module := ← fs.required 4 "module_name" Document.text?
    kind := ← fs.required 5 "kind" ObjectKind.ofDocument? }

end Object

namespace CallKind

/-- What is particular to a call. -/
def toDocument : CallKind → Document
  | function => .text "Function"
  | method receiver => .tagged "Method" (.record [("receiver", receiver.toDocument)])
  | resumption generator =>
    .tagged "GeneratorInvocation" (.record [("generator", generator.toDocument)])

def ofDocument? (d : Document) : Option CallKind := do
  match ← d.choice? with
  | ("Function", content) => (Document.noContent? content).map fun _ => .function
  | ("Method", content) =>
    let fs ← Document.contentFields? content
    return .method (← fs.required 0 "receiver" ObjectId.ofDocument?)
  | ("GeneratorInvocation", content) =>
    let fs ← Document.contentFields? content
    return .resumption (← fs.required 0 "generator" ObjectId.ofDocument?)
  | _ => none

end CallKind

namespace Outcome

def toDocument : Outcome → Document
  | returned id => .tagged "Returned" id.toDocument
  | raised id => .tagged "Raised" id.toDocument

def ofDocument? (d : Document) : Option Outcome := do
  match ← d.choice? with
  | ("Returned", some content) => return .returned (← ObjectId.ofDocument? content)
  | ("Raised", some content) => return .raised (← ObjectId.ofDocument? content)
  | _ => none

end Outcome

namespace Call

def toDocument (c : Call) : Document :=
  .record [
    ("id", c.id.toDocument), ("kind", c.kind.toDocument),
    ("definition", c.definition.toDocument), ("input", c.input.toDocument),
    ("outcome", .ofOption Outcome.toDocument c.outcome),
    ("side_effects", .ofList EffectId.toDocument c.effects),
    ("caller", .ofOption CallId.toDocument c.caller),
    ("subcalls", .ofList CallId.toDocument c.subcalls), ("timestamp", c.moment.toDocument),
    ("completed_at", .ofOption Moment.toDocument c.completedAt)]

def ofDocument? (d : Document) : Option Call := do
  let fs ← d.fields? 10
  return {
    id := ← fs.required 0 "id" CallId.ofDocument?
    kind := ← fs.required 1 "kind" CallKind.ofDocument?
    definition := ← fs.required 2 "definition" Definition.ofDocument?
    input := ← fs.required 3 "input" Arguments.ofDocument?
    outcome := ← fs.optional 4 "outcome" Outcome.ofDocument?
    effects := ← fs.required 5 "side_effects" (Document.list? EffectId.ofDocument?)
    caller := ← fs.optional 6 "caller" CallId.ofDocument?
    subcalls := ← fs.required 7 "subcalls" (Document.list? CallId.ofDocument?)
    moment := ← fs.required 8 "timestamp" Moment.ofDocument?
    completedAt := ← fs.optional 9 "completed_at" Moment.ofDocument? }

end Call

namespace Mutation

/-- The name of the operation in documents. -/
def tag : Mutation → String
  | listAppend => "ListAppend"
  | listExtend => "ListExtend"
  | listInsert => "ListInsert"
  | listRemove => "ListRemove"
  | listPop => "ListPop"
  | listSort => "ListSort"
  | listReverse => "ListReverse"
  | listClear => "ListClear"
  | dictSetItem => "DictSetItem"
  | dictDelItem => "DictDelItem"
  | dictUpdate => "DictUpdate"
  | dictSetDefault => "DictSetDefault"
  | dictPop => "DictPop"
  | dictClear => "DictClear"
  | setAdd => "SetAdd"
  | setDiscard => "SetDiscard"
  | setRemove => "SetRemove"
  | setUpdate => "SetUpdate"
  | setClear => "SetClear"

def ofTag? (tag : String) : Option Mutation := all.find? fun op => op.tag == tag

def toDocument (op : Mutation) : Document := .text op.tag

def ofDocument? (d : Document) : Option Mutation := do
  let (tag, content) ← d.choice?
  let _ ← Document.noContent? content
  ofTag? tag

end Mutation

namespace Change

/-- What happened. -/
def toDocument : Change → Document
  | mutation op receiver args =>
    .tagged "ContainerMutation" (.record [
      ("op", op.toDocument), ("receiver", receiver.toDocument), ("args", objectsDocument args)])
  | globalRead module name value =>
    .tagged "GlobalRead" (.record [
      ("module", .text module), ("name", .text name), ("value", value.toDocument)])
  | globalRebind module name value =>
    .tagged "GlobalRebind" (.record [
      ("module", .text module), ("name", .text name), ("value", value.toDocument)])
  | attributeRebind target name value =>
    .tagged "AttributeRebind" (.record [
      ("target", target.toDocument), ("name", .text name), ("value", value.toDocument)])

def ofDocument? (d : Document) : Option Change := do
  let (tag, content) ← d.choice?
  let fs ← Document.contentFields? content
  match tag with
  | "ContainerMutation" =>
    return .mutation (← fs.required 0 "op" Mutation.ofDocument?)
      (← fs.required 1 "receiver" ObjectId.ofDocument?)
      (← fs.required 2 "args" objectsOfDocument?)
  | "GlobalRead" =>
    return .globalRead (← fs.required 0 "module" Document.text?)
      (← fs.required 1 "name" Document.text?) (← fs.required 2 "value" ObjectId.ofDocument?)
  | "GlobalRebind" =>
    return .globalRebind (← fs.required 0 "module" Document.text?)
      (← fs.required 1 "name" Document.text?) (← fs.required 2 "value" ObjectId.ofDocument?)
  | "AttributeRebind" =>
    return .attributeRebind (← fs.required 0 "target" ObjectId.ofDocument?)
      (← fs.required 1 "name" Document.text?) (← fs.required 2 "value" ObjectId.ofDocument?)
  | _ => none

end Change

namespace Effect

def toDocument (e : Effect) : Document :=
  .record [
    ("id", e.id.toDocument), ("timestamp", e.moment.toDocument), ("kind", e.change.toDocument),
    ("affected_objects", objectsDocument e.affected),
    ("referenced_objects", objectsDocument e.referenced)]

def ofDocument? (d : Document) : Option Effect := do
  let fs ← d.fields? 5
  return {
    id := ← fs.required 0 "id" EffectId.ofDocument?
    moment := ← fs.required 1 "timestamp" Moment.ofDocument?
    change := ← fs.required 2 "kind" Change.ofDocument?
    affected := ← fs.required 3 "affected_objects" objectsOfDocument?
    referenced := ← fs.required 4 "referenced_objects" objectsOfDocument? }

end Effect

namespace Recording

/-- All that the recording holds, apart from handles. A finished recording ended, at a time that is
not kept. -/
def toDocument (r : Recording) : Document :=
  .record [
    ("objects", .ofList Object.toDocument r.objects.toList),
    ("calls", .ofList Call.toDocument r.calls.toList),
    ("side_effects", .ofList Effect.toDocument r.effects.toList),
    ("captured_calls", .ofList CallId.toDocument r.captured),
    ("call_graph", .ofList CallId.toDocument r.roots),
    ("root_side_effects", .ofList EffectId.toDocument r.rootEffects),
    ("last", .text r.lastMoment.text),
    ("finalized", .bool r.isFinished),
    ("ended", if r.isFinished then .bool true else .null)]

end Recording

end Reenact
