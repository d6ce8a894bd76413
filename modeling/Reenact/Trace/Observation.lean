import Reenact.Trace.Frame
import Reenact.Trace.Settings
import Reenact.Trace.PatchLog

/-!
# From events to observations

The tracer reduces the events of a running program to observations that an `Observer` is told. It
passes over frames of class bodies, of ignored code and of the code that drives the program,
together with their returns and exceptions, and tells methods from functions. It gives every
exception the form of a value, and reports one that passes through a frame several times only once.
A frame that the observer declines goes on running; calls made from it are still reported.
-/

namespace Reenact

/-- What is told of a running program. The answer to a call says whether its return and exceptions
are to be followed. -/
class Observer (σ : Type) where
  /-- A method was called on a receiver. -/
  methodCalled : σ → (name : String) → (receiver : Value) → NamedValues → Frame → σ × Bool
  functionCalled : σ → (name : String) → NamedValues → Frame → σ × Bool
  /-- The innermost call followed returned. -/
  returned : σ → Value → Option TracebackId → σ
  /-- An exception passed through the innermost call followed. -/
  raised : σ → Value → TracebackId → σ
  foreignCalled : σ → Foreign → σ
  /-- Foreign code returned, or raised. -/
  foreignReturned : σ → Option Value → σ
  /-- A name of a module was read. -/
  globalRead : σ → (module name : String) → Value → σ
  /-- A name of a module was bound anew. -/
  globalRebind : σ → (module name : String) → Value → σ
  /-- An attribute of an object was bound anew. -/
  attributeRebind : σ → (target : Value) → (name : String) → Value → σ

/-- What the tracer knows of a frame that was entered. -/
structure OpenFrame where
  /-- Whether its return and exceptions are followed. -/
  isTraced : Bool
  /-- The exception that passed through it last, if the host reported it as a value. -/
  lastException : Option Handle
  deriving DecidableEq, Repr

/-- The state of a tracer with its observer. -/
structure Tracer (σ : Type) where
  observer : σ
  settings : Settings
  /-- The code asked for. -/
  patches : PatchLog
  /-- The handles of built values. -/
  handles : HandleSource
  /-- The frames entered, innermost first. -/
  frames : List OpenFrame
  /-- How many foreign calls are running. -/
  foreignDepth : Nat
  /-- Code whose frames are passed over. -/
  ignored : List CodeId

namespace Tracer

variable {σ : Type} [Observer σ]

/-- A tracer that has seen nothing. -/
def start (observer : σ) (settings : Settings) : Tracer σ where
  observer := observer
  settings := settings
  patches := .empty
  handles := .start
  frames := []
  foreignDepth := 0
  ignored := []

/-- How many frames are entered. -/
def depth (t : Tracer σ) : Nat := t.frames.length

/-- Whether the frame is passed over. -/
def isIgnored (t : Tracer σ) (f : Frame) : Bool :=
  f.code.isClassBody || t.settings.ignoresCode f.code.name || t.ignored.contains f.code.id

/-- Lets the observer know something. -/
def tell (t : Tracer σ) (f : σ → σ) : Tracer σ := { t with observer := f t.observer }

/-- Tells the observer of a frame; it answers whether to follow it. -/
def report (t : Tracer σ) (f : Frame) : Tracer σ × Bool :=
  let (handles, role) := f.role t.handles
  let (observer, descend) :=
    match role with
    | .method receiver args => Observer.methodCalled t.observer f.code.name receiver args f
    | .function args => Observer.functionCalled t.observer f.code.name args f
  ({ t with handles := handles, observer := observer }, descend)

/-- Asks for code, giving what has to be patched. -/
def request (t : Tracer σ) (codes : List CodeId) : Tracer σ × List CodeId :=
  let (patches, patch) := t.patches.requestAll codes
  ({ t with patches := patches }, patch)

def enter (t : Tracer σ) (isTraced : Bool) : Tracer σ :=
  { t with frames := ⟨isTraced, none⟩ :: t.frames }

def onCall (t : Tracer σ) (f : Frame) : Tracer σ × Directive :=
  if t.isIgnored f then (t.enter false, .skip)
  else
    let (t, descend) := t.report f
    let t := t.enter descend
    if descend then
      let (t, patch) := t.request [f.code.id]
      (t, ⟨true, patch⟩)
    else (t, .skip)

/-- The innermost frame is left. -/
def onReturn (t : Tracer σ) (value : Value) (handled : Option TracebackId) : Tracer σ :=
  match t.frames with
  | [] => t
  | top :: rest =>
    let t := { t with frames := rest }
    if top.isTraced then t.tell fun o => Observer.returned o value handled else t

/-- The handle under which a frame remembers an exception. -/
def memory : Raised → Option Handle
  | .value exception => some exception.handle
  | _ => none

/-- An exception passes through the innermost frame. -/
def onRaise (t : Tracer σ) (raised : Raised) (traceback : TracebackId) : Tracer σ :=
  if t.settings.ignoresException raised.typeName then t
  else
    match t.frames with
    | [] => t
    | top :: rest =>
      if !top.isTraced then t
      else if (memory raised).isSome && top.lastException == memory raised then t
      else
        let top := { top with lastException := (memory raised).or top.lastException }
        let (handles, exception) := raised.toValue t.handles
        let t := { t with frames := top :: rest, handles := handles }
        t.tell fun o => Observer.raised o exception traceback

def step (t : Tracer σ) : Event → Tracer σ × Directive
  | .call frame => t.onCall frame
  | .ret value handled => (t.onReturn value handled, .proceed)
  | .raise raised traceback => (t.onRaise raised traceback, .proceed)
  | .foreignCall call =>
    let (t, patch) := t.request call.callables
    let t := { t with foreignDepth := t.foreignDepth + 1 }
    (t.tell fun o => Observer.foreignCalled o call, ⟨true, patch⟩)
  | .foreignReturn value =>
    match t.foreignDepth with
    | 0 => (t, .proceed)
    | depth + 1 =>
      let t := { t with foreignDepth := depth }
      (t.tell fun o => Observer.foreignReturned o value, .proceed)
  | .globalRead module name value =>
    (t.tell fun o => Observer.globalRead o module name value, .proceed)
  | .globalRebind module name value =>
    (t.tell fun o => Observer.globalRebind o module name value, .proceed)
  | .attributeRebind target name value =>
    (t.tell fun o => Observer.attributeRebind o target name value, .proceed)
  | .moduleLoaded _ codes =>
    let (t, patch) := t.request codes
    (t, ⟨true, patch⟩)

/-- Takes in events in order. -/
def run (t : Tracer σ) (events : List Event) : Tracer σ :=
  events.foldl (fun t e => (t.step e).1) t

end Tracer

end Reenact
