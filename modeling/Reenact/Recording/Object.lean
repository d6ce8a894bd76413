import Reenact.Code.Literal
import Reenact.Project.Basic
import Reenact.Recording.Arguments

/-!
# Recorded objects

What a recording keeps of a value once the value itself is gone. An object refers to its parts by
their numbers, so sharing in the observed program stays visible. Objects of project classes keep
the calls made on them, and generators the call that made them and their resumptions.
-/

namespace Reenact

/-- Something done to an instance of a project class. -/
inductive Use where
  | call (id : CallId)
  /-- A generator that one of its methods made. -/
  | generator (id : ObjectId)
  deriving DecidableEq, Repr

/-- What made a generator. -/
inductive Maker where
  | function (id : FunctionId)
  /-- A method of an object. -/
  | userObject (id : ObjectId)
  deriving DecidableEq, Repr

/-- How a generator was made. -/
structure Activation where
  definition : Definition
  args : Arguments
  /-- The function, or the object whose method it is. -/
  maker : Maker
  deriving DecidableEq

/-- What is particular to an object. -/
inductive ObjectKind where
  /-- A value without identity, made by the code. -/
  | immutable (code : String) (imports : ImportSet)
  | sequence (shape : Shape) (contained : List ObjectId)
  /-- A mapping from keys to values. -/
  | map (mapping : List (ObjectId × ObjectId))
  | exception (args : List ObjectId)
  /-- An instance of a known library type. -/
  | library (format : String) (args : List ObjectId) (imports : ImportSet)
  /-- A value that code cannot make again; the hint tells a person what it was. -/
  | unknown (hint : String)
  /-- An instance of a project class, with its constructor call once that was seen. -/
  | user (cls : ClassId) (initCall : Option CallId) (uses : List Use)
  /-- A generator, with how it was made once it was first resumed. -/
  | generator (activation : Option Activation) (calls : List CallId)
  deriving DecidableEq

structure Object where
  id : ObjectId
  /-- When it was recorded. -/
  moment : Moment
  /-- A short word for its value. -/
  word : String
  /-- The name of its type. -/
  typeName : String
  /-- The module of its type. -/
  module : String
  /-- What is particular to it. -/
  kind : ObjectKind
  deriving DecidableEq

namespace ObjectKind

/-- The parts that a builtin or library object is made from, in order. -/
def parts : ObjectKind → List ObjectId
  | sequence _ contained => contained
  | map mapping => mapping.flatMap fun entry => [entry.1, entry.2]
  | exception args => args
  | library _ args _ => args
  | immutable .. | unknown _ | user .. | generator .. => []

/-- Whether the object has no identity. -/
def isImmutable : ObjectKind → Bool
  | immutable .. => true
  | _ => false

/-- Whether it is the null value. -/
def isNone : ObjectKind → Bool
  | immutable code imports => code == "None" && imports.items.isEmpty
  | _ => false

/-- Whether it is an instance of a project class. -/
def isUser : ObjectKind → Bool
  | user .. => true
  | _ => false

/-- The activation of a generator that has one. -/
def activation? : ObjectKind → Option Activation
  | generator activation _ => activation
  | _ => none

end ObjectKind

namespace Object

/-- The parts that a builtin or library object is made from, in order. -/
def parts (o : Object) : List ObjectId := o.kind.parts

/-- The import that brings the type into scope; builtin types need none. -/
def typeImport? (o : Object) : Option Import :=
  if o.module = builtinModule ∨ o.module = "" then none else some (.member o.module o.typeName)

/-- Equality of what the objects tell of their values, up to the very same parts. Number, moment,
word and module do not count, and an unknown object equals nothing. -/
def agrees (a b : Object) : Bool :=
  a.typeName == b.typeName &&
    match a.kind with
    | .unknown _ => false
    | kind => decide (kind = b.kind)

end Object

/-- The uses of an object other than its constructor call. -/
def Use.external (initCall : Option CallId) (uses : List Use) : List Use :=
  uses.filter fun
    | .call id => some id != initCall
    | .generator _ => true

end Reenact
