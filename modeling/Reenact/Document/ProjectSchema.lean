import Reenact.Document.Access
import Reenact.Project.Basic
import Reenact.Text.Uuid

/-!
# Definitions as documents

How identifiers, functions, methods, classes and links are written in documents, and read back.
-/

namespace Reenact

namespace ObjectId

def toDocument (id : ObjectId) : Document := .nat id.index

def ofDocument? (d : Document) : Option ObjectId := d.nat32?.map ObjectId.mk

end ObjectId

namespace CallId

def toDocument (id : CallId) : Document := .nat id.index

def ofDocument? (d : Document) : Option CallId := d.nat32?.map CallId.mk

end CallId

namespace EffectId

def toDocument (id : EffectId) : Document := .nat id.index

def ofDocument? (d : Document) : Option EffectId := d.nat32?.map EffectId.mk

end EffectId

namespace FunctionId

def toDocument (id : FunctionId) : Document := .nat id.index

def ofDocument? (d : Document) : Option FunctionId := d.nat32?.map FunctionId.mk

end FunctionId

namespace ClassId

def toDocument (id : ClassId) : Document := .nat id.index

def ofDocument? (d : Document) : Option ClassId := d.nat32?.map ClassId.mk

end ClassId

namespace MethodId

def toDocument (id : MethodId) : Document :=
  .record [("class", id.owner.toDocument), ("index", .nat id.index)]

def ofDocument? (d : Document) : Option MethodId := do
  let fs ← d.fields? 2
  return ⟨← fs.required 0 "class" ClassId.ofDocument?, ← fs.required 1 "index" Document.nat32?⟩

end MethodId

namespace RunId

def toDocument (id : RunId) : Document := .text id.text

def ofDocument? (d : Document) : Option RunId := d.text?.bind ofText?

end RunId

namespace Moment

def toDocument (m : Moment) : Document := .nat m.tick

def ofDocument? (d : Document) : Option Moment := d.nat64?.map Moment.mk

end Moment

namespace Definition

def toDocument : Definition → Document
  | function id => .tagged "Function" id.toDocument
  | method id => .tagged "Method" id.toDocument

def ofDocument? (d : Document) : Option Definition := do
  match ← d.choice? with
  | ("Function", some content) => return .function (← FunctionId.ofDocument? content)
  | ("Method", some content) => return .method (← MethodId.ofDocument? content)
  | _ => none

end Definition

namespace LinkTarget

/-- What the link leads to. -/
def toDocument : LinkTarget → Document
  | call id => .tagged "Call" id.toDocument
  | generator id => .tagged "Generator" id.toDocument
  | userObject id => .tagged "UserObject" id.toDocument

def ofDocument? (d : Document) : Option LinkTarget := do
  match ← d.choice? with
  | ("Call", some content) => return .call (← CallId.ofDocument? content)
  | ("Generator", some content) => return .generator (← ObjectId.ofDocument? content)
  | ("UserObject", some content) => return .userObject (← ObjectId.ofDocument? content)
  | _ => none

end LinkTarget

namespace Link

def toDocument (l : Link) : Document :=
  .record [("execution", l.run.toDocument), ("target", l.target.toDocument)]

def ofDocument? (d : Document) : Option Link := do
  let fs ← d.fields? 2
  return ⟨← fs.required 0 "execution" RunId.ofDocument?,
    ← fs.required 1 "target" LinkTarget.ofDocument?⟩

end Link

namespace Function

def toDocument (f : Function) : Document :=
  .record [
    ("name", .text f.name), ("module", .text f.module), ("args", .ofList .text f.params),
    ("is_generator", .bool f.isGenerator), ("calls", .ofList Link.toDocument f.links)]

def ofDocument? (d : Document) : Option Function := do
  let fs ← d.fields? 5
  return {
    name := ← fs.required 0 "name" Document.text?
    module := ← fs.required 1 "module" Document.text?
    params := ← fs.required 2 "args" (Document.list? Document.text?)
    isGenerator := ← fs.required 3 "is_generator" Document.bool?
    links := ← fs.required 4 "calls" (Document.list? Link.ofDocument?) }

end Function

namespace Method

def toDocument (m : Method) : Document :=
  .record [
    ("name", .text m.name), ("args", .ofList .text m.params),
    ("is_generator", .bool m.isGenerator)]

def ofDocument? (d : Document) : Option Method := do
  let fs ← d.fields? 3
  return {
    name := ← fs.required 0 "name" Document.text?
    params := ← fs.required 1 "args" (Document.list? Document.text?)
    isGenerator := ← fs.required 2 "is_generator" Document.bool? }

end Method

namespace Class

def toDocument (c : Class) : Document :=
  .record [
    ("name", .text c.name), ("module", .text c.module),
    ("methods", .ofList Method.toDocument c.methods),
    ("bases", .ofList ClassId.toDocument c.bases),
    ("user_objects", .ofList Link.toDocument c.links)]

/-- Reads a class; one without bases derives from none. -/
def ofDocument? (d : Document) : Option Class := do
  let fs ← d.fields? 5
  return {
    name := ← fs.required 0 "name" Document.text?
    module := ← fs.required 1 "module" Document.text?
    methods := ← fs.required 2 "methods" (Document.list? Method.ofDocument?)
    bases := ← fs.defaulted 3 "bases" (Document.list? ClassId.ofDocument?) []
    links := ← fs.required 4 "user_objects" (Document.list? Link.ofDocument?) }

end Class

namespace Project

/-- A function that nothing was captured of, as the list of its module, name, parameters and kind. -/
def functionOfDocument (d : Document) : Function where
  name := (d.item 1).asText
  module := (d.item 0).asText
  params := (d.item 2).asTexts
  isGenerator := (d.item 3).asBool
  links := []

/-- A class that nothing was captured of; its methods are lists of name, parameters and kind. -/
def classOfDocument (d : Document) : Class where
  name := (d.field "name").asText
  module := (d.field "module").asText
  methods := (d.field "methods").items.map fun m =>
    ⟨(m.item 0).asText, (m.item 1).asTexts, (m.item 2).asBool⟩
  bases := (d.field "bases").items.map fun b => ⟨b.asNat⟩
  links := []

/-- A project that nothing was captured of, in the directory `root` unless it names another. -/
def ofDocument (root : String) (d : Document) : Project where
  root := ((d.field "root").given? Document.asText).getD root
  functions := ((d.field "functions").items.map functionOfDocument).toArray
  classes := ((d.field "classes").items.map classOfDocument).toArray

/-- The links of each function and class, each link as a pair of the number of the recording and
what was captured. -/
def linksToDocument (p : Project) : Document :=
  let links (l : List Link) : Document :=
    .ofList (fun link => .list [.nat link.run.number, link.target.toDocument]) l
  .record [
    ("functions", .ofList (fun f => links f.links) p.functions.toList),
    ("classes", .ofList (fun c => links c.links) p.classes.toList)]

end Project

end Reenact
