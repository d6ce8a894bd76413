import Reenact.Recording.Values

/-!
# Recording calls and side effects

Calls form a graph: a call without caller is a root, every other one is a subcall of its caller. A
call gets its moment after everything it starts from has been recorded, and a second one when it
ends. An instance of a project class keeps the calls made on it; the first constructor call seen is
the one it is made with. A generator keeps its resumptions, and the first of them tells how the
generator was made.
-/

namespace Reenact

namespace Recording

/-- Adds a call at the next moment. A caller that is not part of the recording counts as none. -/
def pushCall (r : Recording) (kind : CallKind) (definition : Definition) (input : Arguments)
    (caller : Option CallId) : Recording × CallId :=
  let id : CallId := ⟨r.calls.size⟩
  let caller := caller.filter fun c => decide (c.index < r.calls.size)
  let r := r.tick
  let call : Call :=
    { id := id
      kind := kind
      definition := definition
      input := input
      outcome := none
      effects := []
      caller := caller
      subcalls := []
      moment := r.clock.last
      completedAt := none }
  let r := { r with calls := r.calls.push call, captured := r.captured ++ [id] }
  match caller with
  | some parent => (r.modifyCall parent fun c => { c with subcalls := c.subcalls ++ [id] }, id)
  | none => ({ r with roots := r.roots ++ [id] }, id)

/-- Sets or replaces the outcome of a call. -/
def setOutcome (r : Recording) (id : CallId) (outcome : Outcome) : Except Fault Recording := do
  let _ ← r.findCall id
  return r.modifyCall id fun c => { c with outcome := some outcome }

/-- Takes the outcome of a call back. -/
def clearOutcome (r : Recording) (id : CallId) : Except Fault Recording := do
  let _ ← r.findCall id
  return r.modifyCall id fun c => { c with outcome := none }

/-- Marks a call as ended at the next moment, which is the latest one of the result. -/
def complete (r : Recording) (id : CallId) : Except Fault Recording := do
  let _ ← r.findCall id
  let r := r.tick
  return r.modifyCall id fun c => { c with completedAt := some r.clock.last }

/-- Takes a call out of the subcalls of its caller, or out of the roots. -/
def detach (r : Recording) (id : CallId) : Except Fault Recording := do
  let call ← r.findCall id
  match call.caller with
  | some parent =>
    return r.modifyCall parent fun c => { c with subcalls := c.subcalls.filter (· != id) }
  | none => return { r with roots := r.roots.filter (· != id) }

/-- Adds a side effect at the next moment. It belongs to its owner, or to no call when the owner is
not part of the recording. -/
def pushEffect (r : Recording) (change : Change) (owner : Option CallId) :
    Recording × EffectId :=
  let id : EffectId := ⟨r.effects.size⟩
  let r := r.tick
  let r := { r with effects := r.effects.push (.ofChange id r.clock.last change) }
  match owner.filter fun c => decide (c.index < r.calls.size) with
  | some parent => (r.modifyCall parent fun c => { c with effects := c.effects ++ [id] }, id)
  | none => ({ r with rootEffects := r.rootEffects ++ [id] }, id)

end Recording

namespace ObjectKind

/-- An instance with one more call, which is the one it is made with if it is a constructor call
and there was none. -/
def addCall (id : CallId) (isConstructor : Bool) : ObjectKind → ObjectKind
  | user cls initCall uses =>
    .user cls (if isConstructor && initCall.isNone then some id else initCall)
      (uses ++ [.call id])
  | kind => kind

/-- An instance with one more generator. -/
def addGenerator (id : ObjectId) : ObjectKind → ObjectKind
  | user cls initCall uses => .user cls initCall (uses ++ [.generator id])
  | kind => kind

/-- A generator with its activation. -/
def activate (activation : Activation) : ObjectKind → ObjectKind
  | generator _ calls => .generator (some activation) calls
  | kind => kind

/-- A generator with one more resumption. -/
def addResumption (id : CallId) : ObjectKind → ObjectKind
  | generator activation calls => .generator activation (calls ++ [id])
  | kind => kind

/-- A generator without its last resumption. -/
def dropResumption : ObjectKind → ObjectKind
  | generator activation calls => .generator activation calls.dropLast
  | kind => kind

end ObjectKind

namespace Session

/-- Records a call of a function. -/
def callFunction (s : Session) (function : FunctionId) (args : List (String × Value))
    (caller : Option CallId) : Session × CallId :=
  let (s, input) := s.serializeArguments args
  let (r, id) := s.recording.pushCall .function (.function function) input caller
  (({ s with recording := r } : Session).linkFunction function (.call id), id)

/-- Records a call of a method. The receiver is recorded first and has to be an instance of a
project class. -/
def callMethod (s : Session) (method : MethodId) (receiver : Value)
    (args : List (String × Value)) (caller : Option CallId) : Session × Except Fault CallId :=
  let (s, receiverId) := s.serialize receiver
  match s.recording.object? receiverId with
  | none => (s, .error (.dangling (.object receiverId)))
  | some object =>
    if object.kind.isUser then
      let (s, input) := s.serializeArguments args
      let (r, id) := s.recording.pushCall (.method receiverId) (.method method) input caller
      let s : Session := { s with recording := r }
      match s.project.method? method with
      | .error fault => (s, .error fault)
      | .ok m =>
        (s.record fun r => r.modifyKind receiverId (·.addCall id m.isConstructor), .ok id)
    else (s, .error (.notAnInstance receiverId))

/-- What a generator is made by: the function itself, or the recorded receiver of the method, which
has to be an instance of a project class. -/
def makerOf (s : Session) (definition : Definition) (receiver : Option Value) :
    Session × Except Fault Maker :=
  match definition, receiver with
  | .function id, _ => (s, .ok (.function id))
  | .method _, some receiver =>
    let (s, receiverId) := s.serialize receiver
    match s.recording.object? receiverId with
    | none => (s, .error (.dangling (.object receiverId)))
    | some object =>
      if object.kind.isUser then (s, .ok (.userObject receiverId))
      else (s, .error (.notAnInstance receiverId))
  | .method _, none =>
    (s, .error (.invalidOperation "generator method resumed without a receiver"))

/-- Records how a generator was made, and links it to its maker. -/
def activate (s : Session) (generator : ObjectId) (definition : Definition)
    (args : List (String × Value)) (receiver : Option Value) : Session × Except Fault Unit :=
  match s.makerOf definition receiver with
  | (s, .error fault) => (s, .error fault)
  | (s, .ok maker) =>
    let (s, input) := s.serializeArguments args
    let s := s.record fun r => r.modifyKind generator (·.activate ⟨definition, input, maker⟩)
    match maker with
    | .function id => (s.linkFunction id (.generator generator), .ok ())
    | .userObject owner =>
      (s.record fun r => r.modifyKind owner (·.addGenerator generator), .ok ())

/-- Records one resumption of a generator. The first one tells how the generator was made; a
resumption itself has no arguments. -/
def resume (s : Session) (generator : Value) (definition : Definition)
    (args : List (String × Value)) (receiver : Option Value) (caller : Option CallId) :
    Session × Except Fault CallId :=
  let (s, generatorId) := s.serialize generator
  match (s.recording.object? generatorId).map Object.kind with
  | some (.generator activation _) =>
    let (s, ready) : Session × Except Fault Unit :=
      match activation with
      | some _ => (s, .ok ())
      | none => s.activate generatorId definition args receiver
    match ready with
    | .error fault => (s, .error fault)
    | .ok () =>
      let (r, id) := s.recording.pushCall (.resumption generatorId) definition .empty caller
      let s : Session := { s with recording := r }
      (s.record fun r => r.modifyKind generatorId (·.addResumption id), .ok id)
  | _ => (s, .error (.invalidOperation s!"object {generatorId.shown} is not a generator"))

def addEffect (s : Session) (change : Change) (owner : Option CallId) : Session × EffectId :=
  let (r, id) := s.recording.pushEffect change owner
  ({ s with recording := r }, id)

end Session

end Reenact
