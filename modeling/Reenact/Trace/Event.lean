import Reenact.Value.Basic

/-!
# Events of a running program

A host reports what a program does as a stream of events. Every frame entered gives a `call` and a
matching `ret`; code that the host cannot look into gives a matching pair of `foreignCall` and
`foreignReturn`. All other events may come at any time.
-/

namespace Reenact

/-- The code of a frame. -/
structure CodeInfo where
  id : CodeId
  /-- The name it was defined under. -/
  name : String
  /-- The file it was loaded from. -/
  file : String
  /-- Whether it is the body of a generator. -/
  isGenerator : Bool
  /-- Whether it is the body of a class. -/
  isClassBody : Bool
  deriving DecidableEq, Repr

/-- Values by name, in order. -/
abbrev NamedValues := List (String × Value)

/-- The arguments of a frame. -/
structure FrameArgs where
  /-- The plain parameters in order. -/
  named : NamedValues
  /-- The parameter that holds further positional arguments in a tuple. -/
  extra : Option (String × Value)
  /-- The parameter that holds further keyword arguments in a mapping. -/
  keywords : Option (String × Value)

/-- All arguments: the plain ones, then those that hold further ones. -/
def FrameArgs.all (a : FrameArgs) : NamedValues :=
  a.named ++ a.extra.toList ++ a.keywords.toList

/-- A frame that is entered. -/
structure Frame where
  code : CodeInfo
  args : FrameArgs
  /-- The generator that is resumed. -/
  generator : Option Value

/-- The identity of the record of where an exception came from. -/
structure TracebackId where
  /-- The number that the host gives it. -/
  number : Nat
  deriving DecidableEq, Repr

/-- An exception as the host reports it. -/
inductive Raised where
  | value (exception : Value)
  /-- Its type and its message. -/
  | message (typeName content : String)
  /-- Its type and the arguments of its constructor. -/
  | args (typeName : String) (values : List Value)
  /-- A text that was raised in the place of an exception. -/
  | text (content : String)

/-- The type of the exception; a raised text stands for itself. -/
def Raised.typeName : Raised → String
  | .value exception => exception.typeName
  | .message typeName _ => typeName
  | .args typeName _ => typeName
  | .text raisedText => raisedText

/-- A call of code that the host cannot look into. -/
structure Foreign where
  /-- The name of the function or method. -/
  name : String
  /-- The receiver of a method. -/
  receiver : Option Value
  args : List Value
  keywords : NamedValues
  /-- The code of functions of the program among the arguments. -/
  callables : List CodeId

/-- An event of a running program. -/
inductive Event where
  | call (frame : Frame)
  /-- The innermost frame returned, while it handled an exception with that traceback if there is
  one. -/
  | ret (value : Value) (handled : Option TracebackId)
  /-- An exception passed through the innermost frame. -/
  | raise (raised : Raised) (traceback : TracebackId)
  | foreignCall (call : Foreign)
  /-- Foreign code returned a value, or raised when there is none. -/
  | foreignReturn (value : Option Value)
  /-- A name of a module was read. -/
  | globalRead (module name : String) (value : Value)
  /-- A name of a module was bound anew. -/
  | globalRebind (module name : String) (value : Value)
  /-- An attribute of an object was bound anew. -/
  | attributeRebind (target : Value) (name : String) (value : Value)
  | moduleLoaded (module : String) (codes : List CodeId)

/-- What the host has to do after an event. -/
structure Directive where
  /-- Whether the returns and exceptions of the frame just entered are followed. -/
  descend : Bool
  /-- The code to patch so that it reports events. -/
  patch : List CodeId
  deriving DecidableEq, Repr

namespace Directive

/-- Go on. -/
def proceed : Directive := ⟨true, []⟩

/-- Go on, and do not follow the frame just entered. -/
def skip : Directive := ⟨false, []⟩

end Directive

end Reenact
