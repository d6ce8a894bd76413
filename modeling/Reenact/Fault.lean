import Reenact.Id

/-!
# Faults

Why an operation is refused. Most irregularities of an observed program are no faults: calls of
foreign code are skipped, and mutations that nobody registered are not recorded.
-/

namespace Reenact

/-- Something that an identifier was expected to stand for. -/
inductive Reference where
  /-- An object of the recording. -/
  | object (id : ObjectId)
  /-- A call of the recording. -/
  | call (id : CallId)
  /-- A side effect of the recording. -/
  | effect (id : EffectId)
  /-- A function of the project. -/
  | function (id : FunctionId)
  /-- A class of the project. -/
  | class (id : ClassId)
  /-- A method of the project. -/
  | method (id : MethodId)
  deriving DecidableEq, Repr

/-- Why an operation is refused. -/
inductive Fault where
  /-- The host is traced already. -/
  | alreadyTracing
  /-- The object is not part of the recording. -/
  | unknownObject (id : ObjectId)
  /-- The call is not part of the recording. -/
  | unknownCall (id : CallId)
  /-- The side effect is not part of the recording. -/
  | unknownEffect (id : EffectId)
  /-- The object is not an instance of a class of the project. -/
  | notAnInstance (id : ObjectId)
  /-- The settings hold an invalid value. -/
  | invalidSettings (text : String)
  /-- The settings cannot be read as such. -/
  | unreadableSettings
  /-- The file cannot be read or written. -/
  | inaccessibleFile
  /-- The operation makes no sense here. -/
  | invalidOperation (text : String)
  /-- An identifier that had to be valid stands for nothing. -/
  | dangling (reference : Reference)
  /-- The code of an object would contain itself. -/
  | endless
  deriving DecidableEq, Repr

/-- The object as messages show it. -/
def ObjectId.shown (id : ObjectId) : String := s!"ObjectId({id.index})"

/-- The call as messages show it. -/
def CallId.shown (id : CallId) : String := s!"CallId({id.index})"

/-- The side effect as messages show it. -/
def EffectId.shown (id : EffectId) : String := s!"SideEffectId({id.index})"

/-- The message for a reader. -/
def Fault.message : Fault → String
  | .alreadyTracing => "Instrumentation is already installed on this runtime"
  | .unknownObject id => s!"Unknown object: {id.shown}"
  | .unknownCall id => s!"Unknown call: {id.shown}"
  | .unknownEffect id => s!"Unknown side effect: {id.shown}"
  | .notAnInstance id => s!"Object {id.shown} is not an instance of a project class"
  | .invalidSettings text => s!"Invalid configuration: {text}"
  | .unreadableSettings => "Invalid configuration: the settings cannot be read"
  | .inaccessibleFile => "I/O error"
  | .invalidOperation text => s!"Invalid operation: {text}"
  | .dangling _ => "An identifier stands for nothing"
  | .endless => "The code of an object would contain itself"

end Reenact
