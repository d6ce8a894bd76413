import Reenact.Trace.Event

/-!
# Methods and functions

A frame runs a method when its first argument has a method of the frame's name whose code is the
code of the frame; that argument is the receiver. A frame without plain parameters may have its
receiver in front of its further positional arguments; the rest of them then becomes a new tuple,
with a handle from a `HandleSource`. Every other frame runs a function.
-/

namespace Reenact

/-- Hands out the handles of values that the engine builds. -/
structure HandleSource where
  /-- How many it has handed out. -/
  count : Nat
  deriving DecidableEq, Repr

namespace HandleSource

/-- A source that has handed out nothing. -/
def start : HandleSource := ⟨0⟩

/-- A handle that was not handed out before, as long as the range lasts. -/
def take (s : HandleSource) : HandleSource × Handle :=
  (⟨s.count + 1⟩, .built (s.count + 1))

end HandleSource

/-- The header of a value of builtin type that the engine builds. -/
def builtHeader (handle : Handle) (typeName : String) : Header where
  handle := handle
  typeName := typeName
  module := builtinModule
  methods := []

/-- What a frame runs. -/
inductive FrameRole where
  /-- A method of the receiver, with the other arguments. -/
  | method (receiver : Value) (args : NamedValues)
  /-- A function with its arguments. -/
  | function (args : NamedValues)

namespace Frame

/-- The argument that is the receiver if the frame runs a method. -/
def candidate? (f : Frame) : Option Value :=
  match f.args.named, f.args.extra with
  | (_, first) :: _, _ => some first
  | [], some (_, tuple) => tuple.items?.bind List.head?
  | [], none => none

/-- The receiver of a frame that runs a method. -/
def receiver? (f : Frame) : Option Value :=
  f.candidate?.filter fun v => v.methodCode f.code.name == some f.code.id

/-- The further positional arguments after the receiver, as a new tuple. -/
def repacked (handle : Handle) (tuple : Value) : Value :=
  .sequence (builtHeader handle Shape.tuple.typeName) .tuple ((tuple.items?.getD []).drop 1)

/-- The arguments of a method frame after the receiver, apart from further keyword arguments. -/
def positionalRest (f : Frame) (source : HandleSource) : HandleSource × NamedValues :=
  match f.args.named, f.args.extra with
  | _ :: rest, extra => (source, rest ++ extra.toList)
  | [], some (name, tuple) =>
    let (source, handle) := source.take
    (source, [(name, repacked handle tuple)])
  | [], none => (source, [])

/-- The receiver and the other arguments of a frame that runs a method. -/
def methodCall? (f : Frame) (source : HandleSource) :
    HandleSource × Option (Value × NamedValues) :=
  match f.receiver? with
  | none => (source, none)
  | some receiver =>
    let (source, args) := f.positionalRest source
    (source, some (receiver, args ++ f.args.keywords.toList))

def role (f : Frame) (source : HandleSource) : HandleSource × FrameRole :=
  match f.methodCall? source with
  | (source, some (receiver, args)) => (source, .method receiver args)
  | (source, none) => (source, .function f.args.all)

end Frame

namespace Raised

/-- The exception as one value. What the host reports only in parts becomes a new value of builtin
type, and a raised text becomes a text value. -/
def toValue (r : Raised) (source : HandleSource) : HandleSource × Value :=
  match r with
  | .value exception => (source, exception)
  | .message typeName content =>
    let (source, textHandle) := source.take
    let (source, handle) := source.take
    (source, .exception (builtHeader handle typeName)
      [.literal (builtHeader textHandle "str") (.text content)] true)
  | .args typeName values =>
    let (source, handle) := source.take
    (source, .exception (builtHeader handle typeName) values true)
  | .text content =>
    let (source, handle) := source.take
    (source, .literal (builtHeader handle "str") (.text content))

end Raised

end Reenact
