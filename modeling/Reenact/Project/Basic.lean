import Reenact.Id
import Reenact.Fault
import Reenact.Project.Path

/-!
# Projects

What is known of the observed program before it runs: its functions, its classes with their methods
and bases, and the module and parameters of each. A recording links what it captures to the
function or class it belongs to; every link names its recording, so one recording can be forgotten
without touching the links of others.
-/

namespace Reenact

/-- What a link of a definition leads to. -/
inductive LinkTarget where
  /-- A call of a function. -/
  | call (id : CallId)
  /-- A generator that a function made. -/
  | generator (id : ObjectId)
  /-- An instance of a class. -/
  | userObject (id : ObjectId)
  deriving DecidableEq, Repr

/-- A link from a definition to something that a recording captured. -/
structure Link where
  /-- The recording. -/
  run : RunId
  /-- What it captured. -/
  target : LinkTarget
  deriving DecidableEq, Repr

/-- A function of a module. -/
structure Function where
  name : String
  /-- The module, as names with dots between them. -/
  module : String
  /-- The parameters; `*` and `**` in front mark those that take any number of arguments. -/
  params : List String
  /-- Whether a call makes a generator. -/
  isGenerator : Bool
  /-- The calls and generators captured. -/
  links : List Link
  deriving DecidableEq, Repr

/-- A method of a class. -/
structure Method where
  name : String
  /-- The parameters, the receiver in front. -/
  params : List String
  /-- Whether a call makes a generator. -/
  isGenerator : Bool
  deriving DecidableEq, Repr

/-- The name of constructors. -/
def constructorName : String := "__init__"

/-- Whether the method is the constructor. -/
def Method.isConstructor (m : Method) : Bool := m.name == constructorName

structure Class where
  name : String
  /-- The module, as names with dots between them. -/
  module : String
  /-- The methods that the class declares itself. -/
  methods : List Method
  /-- The classes it derives from, in order. -/
  bases : List ClassId
  /-- The instances captured. -/
  links : List Link
  deriving DecidableEq, Repr

/-- A function or method of a project. -/
inductive Definition where
  | function (id : FunctionId)
  | method (id : MethodId)
  deriving DecidableEq, Repr

/-- What is known of the observed program. -/
structure Project where
  /-- The directory of the program. -/
  root : String
  functions : Array Function
  classes : Array Class
  deriving DecidableEq, Repr

namespace Project

def empty (root : String) : Project := ⟨root, #[], #[]⟩

def addFunction (p : Project) (f : Function) : Project × FunctionId :=
  ({ p with functions := p.functions.push f }, ⟨p.functions.size⟩)

def addClass (p : Project) (c : Class) : Project × ClassId :=
  ({ p with classes := p.classes.push c }, ⟨p.classes.size⟩)

/-- A function of the project. -/
def function? (p : Project) (id : FunctionId) : Except Fault Function :=
  match p.functions[id.index]? with
  | some f => .ok f
  | none => .error (.dangling (.function id))

/-- A class of the project. -/
def class? (p : Project) (id : ClassId) : Except Fault Class :=
  match p.classes[id.index]? with
  | some c => .ok c
  | none => .error (.dangling (.class id))

/-- A method of the project. -/
def method? (p : Project) (id : MethodId) : Except Fault Method := do
  let c ← p.class? id.owner
  match c.methods[id.index]? with
  | some m => .ok m
  | none => .error (.dangling (.method id))

/-- The first function of that name in that module. -/
def findFunction (p : Project) (name module : String) : Option FunctionId :=
  (p.functions.findIdx? fun f => f.name == name && f.module == module).map FunctionId.mk

/-- The first class of that name in that module. -/
def findClass (p : Project) (name module : String) : Option ClassId :=
  (p.classes.findIdx? fun c => c.name == name && c.module == module).map ClassId.mk

/-- The name of a definition. -/
def nameOf (p : Project) : Definition → Except Fault String
  | .function id => (p.function? id).map Function.name
  | .method id => (p.method? id).map Method.name

/-- The module of a definition. -/
def moduleOf (p : Project) : Definition → Except Fault String
  | .function id => (p.function? id).map Function.module
  | .method id => (p.class? id.owner).map Class.module

/-- The parameters that a call of a definition fills, without the receiver of a method. -/
def paramsOf (p : Project) : Definition → Except Fault (List String)
  | .function id => (p.function? id).map Function.params
  | .method id => (p.method? id).map fun m => m.params.tail

/-- Whether the file lies in the directory of the program. -/
def containsFile (p : Project) (path : String) : Bool :=
  Path.isWithin p.root path

/-- The module that the file holds. -/
def moduleOfFile (p : Project) (path : String) : Option String :=
  Path.module? p.root path

/-- Adds a link to a function; a function that the project lacks is left out. -/
def linkFunction (p : Project) (id : FunctionId) (link : Link) : Project :=
  { p with functions := p.functions.modify id.index fun f => { f with links := f.links ++ [link] } }

/-- Adds a link to a class; a class that the project lacks is left out. -/
def linkClass (p : Project) (id : ClassId) (link : Link) : Project :=
  { p with classes := p.classes.modify id.index fun c => { c with links := c.links ++ [link] } }

/-- Removes all links of one recording. -/
def forget (p : Project) (run : RunId) : Project :=
  { p with
    functions := p.functions.map fun f => { f with links := f.links.filter (·.run != run) }
    classes := p.classes.map fun c => { c with links := c.links.filter (·.run != run) } }

end Project

end Reenact
