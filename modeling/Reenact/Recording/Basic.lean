import Reenact.Recording.Call
import Reenact.Recording.Effect

/-!
# Recordings

All that one run of a program left behind: objects, calls and side effects in the order in which
they were recorded, the graph of calls, and the handles of the values that have an object already.
A `Session` is a recording together with the project it links to.
-/

namespace Reenact

/-- What one run of a program left behind. -/
structure Recording where
  /-- Its number among all recordings. -/
  id : RunId
  /-- Its clock. -/
  clock : Clock
  /-- The object of each handle that has one, latest first. -/
  known : List (Handle × ObjectId)
  /-- The generators, with their values, in order. -/
  generators : List (ObjectId × Value)
  objects : Array Object
  calls : Array Call
  effects : Array Effect
  /-- The calls captured, in order. -/
  captured : List CallId
  /-- The calls that have no caller, in order. -/
  roots : List CallId
  /-- The side effects outside of all calls, in order. -/
  rootEffects : List EffectId
  /-- Whether the recording has ended. -/
  isFinished : Bool

namespace Recording

/-- A recording that holds nothing. -/
def empty (id : RunId) : Recording where
  id := id
  clock := .start
  known := []
  generators := []
  objects := #[]
  calls := #[]
  effects := #[]
  captured := []
  roots := []
  rootEffects := []
  isFinished := false

/-- The latest moment handed out. -/
def lastMoment (r : Recording) : Moment := r.clock.last

/-- An object of the recording. -/
def object? (r : Recording) (id : ObjectId) : Option Object := r.objects[id.index]?

/-- A call of the recording. -/
def call? (r : Recording) (id : CallId) : Option Call := r.calls[id.index]?

/-- A side effect of the recording. -/
def effect? (r : Recording) (id : EffectId) : Option Effect := r.effects[id.index]?

/-- An object that has to be part of the recording. -/
def object (r : Recording) (id : ObjectId) : Except Fault Object :=
  match r.object? id with
  | some o => .ok o
  | none => .error (.dangling (.object id))

/-- A call that has to be part of the recording. -/
def call (r : Recording) (id : CallId) : Except Fault Call :=
  match r.call? id with
  | some c => .ok c
  | none => .error (.dangling (.call id))

/-- A side effect that has to be part of the recording. -/
def effect (r : Recording) (id : EffectId) : Except Fault Effect :=
  match r.effect? id with
  | some e => .ok e
  | none => .error (.dangling (.effect id))

/-- An object, or the fault that the recording lacks it. -/
def findObject (r : Recording) (id : ObjectId) : Except Fault Object :=
  match r.object? id with
  | some o => .ok o
  | none => .error (.unknownObject id)

/-- A call, or the fault that the recording lacks it. -/
def findCall (r : Recording) (id : CallId) : Except Fault Call :=
  match r.call? id with
  | some c => .ok c
  | none => .error (.unknownCall id)

/-- A side effect, or the fault that the recording lacks it. -/
def findEffect (r : Recording) (id : EffectId) : Except Fault Effect :=
  match r.effect? id with
  | some e => .ok e
  | none => .error (.unknownEffect id)

/-- The object of a handle. -/
def lookup (r : Recording) (h : Handle) : Option ObjectId := r.known.lookup h

/-- The calls captured. -/
def capturedCalls (r : Recording) : List Call := r.captured.filterMap r.call?

def tick (r : Recording) : Recording := { r with clock := r.clock.advance }

/-- Changes what is particular to one object. -/
def modifyKind (r : Recording) (id : ObjectId) (f : ObjectKind → ObjectKind) : Recording :=
  { r with objects := r.objects.modify id.index fun o => { o with kind := f o.kind } }

def modifyCall (r : Recording) (id : CallId) (f : Call → Call) : Recording :=
  { r with calls := r.calls.modify id.index f }

end Recording

/-- A recording and the project it links to. -/
structure Session where
  project : Project
  /-- The recording. -/
  recording : Recording

namespace Session

/-- A session that has recorded nothing. -/
def start (project : Project) (id : RunId) : Session := ⟨project, .empty id⟩

def record (s : Session) (f : Recording → Recording) : Session :=
  { s with recording := f s.recording }

/-- Links a function to something captured. -/
def linkFunction (s : Session) (id : FunctionId) (target : LinkTarget) : Session :=
  { s with project := s.project.linkFunction id ⟨s.recording.id, target⟩ }

/-- Links a class to something captured. -/
def linkClass (s : Session) (id : ClassId) (target : LinkTarget) : Session :=
  { s with project := s.project.linkClass id ⟨s.recording.id, target⟩ }

end Session

end Reenact
