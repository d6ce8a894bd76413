import Reenact.Recording.CallGraph
import Reenact.Project.Inheritance
import Reenact.Trace.Observation
import Reenact.Trace.MutationTable

/-!
# From observations to a recording

The recorder keeps a stack of the calls and foreign calls that are running. A call of something that
the project does not define is declined before any of its values is recorded. The innermost call on
the stack owns the side effects. A registered mutation by foreign code is recorded when the foreign
code returns, with its receiver and arguments as they were recorded when it was entered.
-/

namespace Reenact

/-- A mutation that foreign code may be about to make. -/
structure PendingMutation where
  op : Mutation
  receiver : ObjectId
  /-- The arguments, keyword arguments last. -/
  args : List ObjectId
  deriving DecidableEq, Repr

/-- Something that is running. -/
inductive Running where
  | call (id : CallId)
  | foreign (mutation : Option PendingMutation)
  deriving DecidableEq, Repr

/-- The state of a recorder. -/
structure Recorder where
  /-- What it records into. -/
  session : Session
  mutations : MutationTable
  settings : Settings
  /-- What is running, innermost first. -/
  stack : List Running
  /-- The traceback of the exception recorded last. -/
  lastTraceback : Option TracebackId

namespace Recorder

/-- A recorder that has seen nothing. -/
def start (session : Session) (mutations : MutationTable) (settings : Settings) : Recorder where
  session := session
  mutations := mutations
  settings := settings
  stack := []
  lastTraceback := none

/-- The innermost call among what is running. -/
def innermost : List Running → Option CallId
  | [] => none
  | .call id :: _ => some id
  | .foreign _ :: rest => innermost rest

/-- The innermost recorded call that is running. -/
def currentCall (r : Recorder) : Option CallId := innermost r.stack

/-- How many calls and foreign calls are running. -/
def depth (r : Recorder) : Nat := r.stack.length

/-- The method of the project that a method call runs. -/
def resolveMethod (r : Recorder) (name : String) (receiver : Value) : Option MethodId := do
  let cls ← r.session.project.findClass receiver.typeName receiver.module
  r.session.project.findMethod cls name

/-- The function of the project that a frame runs. -/
def resolveFunction (r : Recorder) (name : String) (f : Frame) : Option FunctionId := do
  let module ← r.session.project.moduleOfFile f.code.file
  r.session.project.findFunction name module

/-- Puts a call on the stack if it was recorded. -/
def opened (r : Recorder) (result : Session × Except Fault CallId) : Recorder × Bool :=
  match result with
  | (s, .ok id) => ({ r with session := s, stack := .call id :: r.stack }, true)
  | (s, .error _) => ({ r with session := s }, false)

/-- Records a side effect of the innermost call. -/
def addEffect (r : Recorder) (change : Change) : Recorder :=
  { r with session := (r.session.addEffect change r.currentCall).1 }

def methodCalled (r : Recorder) (name : String) (receiver : Value) (args : NamedValues)
    (f : Frame) : Recorder × Bool :=
  match r.resolveMethod name receiver with
  | none => (r, false)
  | some method =>
    match f.generator with
    | some generator =>
      r.opened (r.session.resume generator (.method method) args (some receiver) r.currentCall)
    | none => r.opened (r.session.callMethod method receiver args r.currentCall)

def functionCalled (r : Recorder) (name : String) (args : NamedValues) (f : Frame) :
    Recorder × Bool :=
  match r.resolveFunction name f with
  | none => (r, false)
  | some function =>
    match f.generator with
    | some generator =>
      r.opened (r.session.resume generator (.function function) args none r.currentCall)
    | none =>
      let (s, id) := r.session.callFunction function args r.currentCall
      r.opened (s, .ok id)

/-- Whether a return ends the handling of the exception recorded last. -/
def hasHandled (r : Recorder) (handled : Option TracebackId) : Bool :=
  handled.isSome && handled == r.lastTraceback

/-- Keeps the recording where a step is refused. -/
def attempt (s : Session) (step : Recording → Except Fault Recording) : Session :=
  match step s.recording with
  | .ok recording => { s with recording := recording }
  | .error _ => s

/-- The session after a call has returned a value. The value counts unless an exception left the
call that nobody handled. -/
def closeCall (s : Session) (id : CallId) (value : Value) (isHandled : Bool) : Session :=
  let hasRaised := ((s.recording.call? id).map Call.hasRaised).getD false
  let s :=
    if !hasRaised || isHandled then
      let (s, output) := s.serialize value
      attempt s fun r => r.setOutcome id (.returned output)
    else s
  attempt s fun r => r.complete id

/-- The innermost call returned. Foreign code that is innermost is taken to be over. -/
def returned (r : Recorder) (value : Value) (handled : Option TracebackId) : Recorder :=
  match r.stack with
  | [] => r
  | .foreign _ :: rest => { r with stack := rest }
  | .call id :: rest =>
    { r with session := closeCall r.session id value (r.hasHandled handled), stack := rest }

/-- An exception passed through the innermost call, unless foreign code is innermost. -/
def raised (r : Recorder) (exception : Value) (traceback : TracebackId) : Recorder :=
  match r.stack with
  | .call id :: _ =>
    let (s, exceptionId) := r.session.serialize exception
    { r with
      session := attempt s fun rec => rec.setOutcome id (.raised exceptionId)
      lastTraceback := some traceback }
  | _ => r

/-- The registered mutation that a foreign call makes, with its receiver. -/
def mutationOf? (r : Recorder) (call : Foreign) : Option (Mutation × Value) := do
  let receiver ← call.receiver
  if r.settings.recordsMutations then
    let op ← r.mutations.find? receiver.typeName call.name
    return (op, receiver)
  else none

def foreignCalled (r : Recorder) (call : Foreign) : Recorder :=
  match r.mutationOf? call with
  | none => { r with stack := .foreign none :: r.stack }
  | some (op, receiver) =>
    let (s, receiverId) := r.session.serialize receiver
    let (s, args) := s.serializeAll (call.args ++ call.keywords.map Prod.snd)
    { r with session := s, stack := .foreign (some ⟨op, receiverId, args⟩) :: r.stack }

/-- Foreign code returned, or raised when there is no value. -/
def foreignReturned (r : Recorder) (value : Option Value) : Recorder :=
  match r.stack with
  | .foreign mutation :: rest =>
    let r := { r with stack := rest }
    match mutation, value with
    | some m, some _ => r.addEffect (.mutation m.op m.receiver m.args)
    | _, _ => r
  | _ => r

/-- A name of a module was read. -/
def globalRead (r : Recorder) (module name : String) (value : Value) : Recorder :=
  if r.settings.recordsGlobalReads then
    let (s, id) := r.session.serialize value
    ({ r with session := s } : Recorder).addEffect (.globalRead module name id)
  else r

/-- A name of a module was bound anew. -/
def globalRebind (r : Recorder) (module name : String) (value : Value) : Recorder :=
  let (s, id) := r.session.serialize value
  ({ r with session := s } : Recorder).addEffect (.globalRebind module name id)

/-- An attribute was bound anew; only instances of project classes count. -/
def attributeRebind (r : Recorder) (target : Value) (name : String) (value : Value) : Recorder :=
  match r.session.project.findClass target.typeName target.module with
  | none => r
  | some _ =>
    let (s, targetId) := r.session.serialize target
    let (s, valueId) := s.serialize value
    ({ r with session := s } : Recorder).addEffect (.attributeRebind targetId name valueId)

instance : Observer Recorder where
  methodCalled := methodCalled
  functionCalled := functionCalled
  returned := returned
  raised := raised
  foreignCalled := foreignCalled
  foreignReturned := foreignReturned
  globalRead := globalRead
  globalRebind := globalRebind
  attributeRebind := attributeRebind

end Recorder

end Reenact
