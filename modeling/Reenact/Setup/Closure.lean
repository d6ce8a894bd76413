import Reenact.Graph.Reach
import Reenact.Recording.Basic

/-!
# What a call needs

The objects and side effects from which the calls under test can be repeated. The working set starts
with the arguments, receiver and generator of each call, and with those objects in its outcome that
are older than the call. It is closed under what an object needs to be made: its parts, the arguments
of the constructor of an instance, the arguments and the maker of a generator. A candidate side
effect is included once it affects an object of the working set, and what it refers to is added.
Candidates are the effects that may have shaped the world of a call: those outside of all calls,
those of calls that led up to it, and its own and those of the calls inside it.
-/

namespace Reenact.Setup

def indices (ids : List ObjectId) : List Nat := ids.map ObjectId.index

/-- What an object needs to be made. -/
def needs (r : Recording) (o : Object) : Except Fault (List ObjectId) :=
  match o.kind with
  | .user _ (some init) _ => do
    let call ← r.call init
    return call.input.values
  | .generator (some activation) _ =>
    match activation.maker with
    | .userObject owner => .ok (activation.args.values ++ [owner])
    | .function _ => .ok activation.args.values
  | kind => .ok kind.parts

/-- The fault of an object that is not part of the recording. -/
def missingObject (n : Nat) : Fault := .dangling (.object ⟨n⟩)

/-- The fault of a call that is not part of the recording. -/
def missingCall (n : Nat) : Fault := .dangling (.call ⟨n⟩)

/-- Adds objects and all that they need to a set of objects. -/
def addNeeded (r : Recording) (objects : List Nat) (pending : List ObjectId) :
    Except Fault (List Nat) :=
  Graph.reach r.objects.size
    (fun n => do
      let o ← r.object ⟨n⟩
      return indices (← needs r o))
    missingObject objects (indices pending)

/-- The objects older than `started` among an object, the parts of those that are not, and so on. -/
def olderParts (r : Recording) (id : ObjectId) (started : Moment) :
    Except Fault (List ObjectId) := do
  let met ← Graph.reach r.objects.size
    (fun n => do
      let o ← r.object ⟨n⟩
      return if o.moment.before started then [] else indices o.parts)
    missingObject [] [id.index]
  return (met.map ObjectId.mk).filter fun id =>
    (r.object? id).any fun o => o.moment.before started

/-- The objects that the working set starts with for one call. -/
def seeds (r : Recording) (call : Call) : Except Fault (List ObjectId) := do
  let started :=
    call.input.values ++ call.receiver.toList ++ call.generator.toList
  match call.outcome with
  | none => return started
  | some outcome => return started ++ (← olderParts r outcome.object call.moment)

/-- The outermost call around a call. Callers are older than the calls made from them. -/
def outermost (r : Recording) (id : CallId) : CallId :=
  match r.call? id with
  | none => id
  | some call =>
    match call.caller with
    | none => id
    | some caller => if caller.index < id.index then outermost r caller else id
termination_by id.index

/-- A call and the calls inside it that `keeps` lets pass. -/
def callsFrom (r : Recording) (keeps : Call → Bool) (id : CallId) : Except Fault (List Call) := do
  let met ← Graph.reach r.calls.size
    (fun n => do
      let c ← r.call ⟨n⟩
      let inner ← c.subcalls.mapM r.call
      return (inner.filter keeps).map fun c => c.id.index)
    missingCall [] [id.index]
  met.mapM fun n => r.call ⟨n⟩

/-- The side effects that may have shaped the world of a call. -/
def candidates (r : Recording) (subject : Call) : Except Fault (List Effect) := do
  let outside ← r.rootEffects.mapM r.effect
  let outside := outside.filter fun e => subject.completedAt.all fun done => e.moment.before done
  let leading ← callsFrom r (fun c => c.moment.before subject.moment) (outermost r subject.id)
  let earlier ← (leading.flatMap Call.effects).mapM r.effect
  let earlier := earlier.filter fun e => e.moment.before subject.moment
  let inner ← callsFrom r (fun _ => true) subject.id
  let own ← (inner.flatMap Call.effects).mapM r.effect
  return outside ++ earlier ++ own

/-- The objects and side effects found so far. -/
structure Closure where
  /-- The working set. -/
  objects : List Nat
  /-- The side effects included, latest first. -/
  effects : List Effect

namespace Closure

/-- Whether the side effect is included. -/
def includes (c : Closure) (e : Effect) : Bool := c.effects.any fun f => f.id == e.id

/-- Whether the side effect affects an object of the working set. -/
def concerns (c : Closure) (e : Effect) : Bool :=
  e.affected.any fun o => c.objects.contains o.index

/-- Includes a side effect if it affects an object of the working set. -/
def consider (r : Recording) (c : Closure) (e : Effect) : Except Fault Closure :=
  if c.includes e || !c.concerns e then .ok c
  else do
    let objects ← addNeeded r c.objects e.referenced
    return ⟨objects, e :: c.effects⟩

/-- Considers the candidates again and again, for at most the given number of rounds, until a round
includes nothing. -/
def rounds (r : Recording) (candidates : List Effect) : Nat → Closure → Except Fault Closure
  | 0, c => .ok c
  | n + 1, c => do
    let next ← candidates.foldlM (consider r) c
    if next.effects.length = c.effects.length then return next else rounds r candidates n next

/-- The closure of a working set under the candidates. Each round but the last includes one. -/
def close (r : Recording) (candidates : List Effect) (objects : List Nat) :
    Except Fault Closure :=
  rounds r candidates (candidates.length + 1) ⟨objects, []⟩

end Closure

/-- What calls and further objects need. -/
def closure (r : Recording) (subjects : List Call) (objects : List ObjectId) :
    Except Fault Closure := do
  let start ← addNeeded r [] objects
  let seeded ← subjects.foldlM (fun set call => do addNeeded r set (← seeds r call)) start
  let found ← subjects.mapM (candidates r)
  Closure.close r found.flatten seeded

end Reenact.Setup
