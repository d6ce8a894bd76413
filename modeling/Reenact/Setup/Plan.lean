import Reenact.Setup.Closure
import Reenact.Setup.Entry

/-!
# Plans

A plan is the setup of the calls under test, worked out from their closure. Nothing that happened
after the last of them ended counts. Its entries are in the order of the recording, so an entry only
needs earlier ones. An object gets a name when it is used more than once, when an included side
effect changes it, or when a method was called on it; other objects, and objects without identity,
are written where they are used and have no entry.
-/

namespace Reenact.Setup

/-- The setup of calls under test. -/
structure Plan where
  /-- All objects and side effects needed, in order. -/
  closure : List Entry
  /-- The entries of the setup, in order. -/
  all : List Entry
  /-- The objects that get a name, in order. -/
  named : List ObjectId
  /-- Each use of an object of the working set. -/
  uses : List ObjectId

namespace Plan

/-- Whether the object gets a name. -/
def needsName (p : Plan) (id : ObjectId) : Bool := p.named.contains id

/-- How often the object is used. -/
def useCount (p : Plan) (id : ObjectId) : Nat := p.uses.count id

/-- The side effects of the closure, in order. -/
def effects (p : Plan) : List EffectId := p.closure.filterMap Entry.effect?

/-- Whether nothing has to be set up. -/
def isEmpty (p : Plan) : Bool := p.all.isEmpty

end Plan

/-- When the last of the calls ended; none when one has not ended or there are no calls. -/
def horizon : List Call → Option Moment
  | [] => none
  | [c] => c.completedAt
  | c :: rest => do
    let done ← c.completedAt
    let later ← horizon rest
    return if done.before later then later else done

/-- Whether the moment lies before the horizon; every moment does when there is none. -/
def isBefore (horizon : Option Moment) (m : Moment) : Bool :=
  horizon.all m.before

/-- The calls captured before the horizon. -/
def callsBefore (r : Recording) (horizon : Option Moment) : Except Fault (List Call) := do
  let calls ← r.captured.mapM r.call
  return calls.filter fun c => isBefore horizon c.moment

/-- The objects that a call uses. -/
def usesOfCall (c : Call) : List ObjectId :=
  c.input.values ++ c.receiver.toList ++ (c.outcome.map Outcome.object).toList

/-- The objects that an object uses. -/
def usesOfObject (o : Object) : List ObjectId :=
  o.parts ++ ((o.kind.activation?.map fun a => a.args.values).getD [])

/-- Each use of an object of the working set. -/
def allUses (calls : List Call) (objects : List Object) (effects : List Effect) :
    List ObjectId :=
  let used := calls.flatMap usesOfCall ++ objects.flatMap usesOfObject ++
    effects.flatMap Effect.referenced
  let members := objects.map Object.id
  used.filter members.contains

/-- Whether an object gets a name, given the uses, the objects that included side effects change and
the receivers of method calls. -/
def deservesName (uses affected receivers : List ObjectId) (o : Object) : Bool :=
  !o.kind.isImmutable &&
    (decide (1 < uses.count o.id) || affected.contains o.id || receivers.contains o.id)

/-- An entry with the moment it is sorted by. -/
abbrev Timed := Moment × Entry

/-- Whether one entry is not later than another. -/
def isNotLater (a b : Timed) : Bool := decide (a.1.tick ≤ b.1.tick)

/-- The objects and side effects before the horizon, in order. -/
def orderedEntries (horizon : Option Moment) (objects : List Object) (effects : List Effect) :
    List Entry :=
  let made : List Timed := (objects.filter fun o => isBefore horizon o.moment).map fun o =>
    (o.moment, .object o.id)
  let repeated : List Timed := (effects.filter fun e => isBefore horizon e.moment).map fun e =>
    (e.moment, .effect e.id)
  ((made ++ repeated).mergeSort isNotLater).map Prod.snd

/-- The plan of a closure. -/
def planOf (r : Recording) (horizon : Option Moment) (c : Closure) : Except Fault Plan := do
  let objects ← c.objects.mapM fun n => r.object ⟨n⟩
  let calls ← callsBefore r horizon
  let uses := allUses calls objects c.effects
  let affected := c.effects.flatMap Effect.affected
  let receivers := calls.filterMap Call.receiver
  let entries := orderedEntries horizon objects c.effects
  let named := (objects.filter (deservesName uses affected receivers)).map Object.id
  let kept := entries.filter fun
    | .object id => named.contains id
    | .effect _ | .grown _ => true
  let all ← fold r kept
  return {
    closure := entries
    all := all
    named := all.filterMap Entry.object?
    uses := uses }

/-- The plan of calls under test together with further objects. -/
def resolve (r : Recording) (subjects : List CallId) (objects : List ObjectId) :
    Except Fault Plan := do
  let calls ← subjects.mapM r.findCall
  planOf r (horizon calls) (← closure r calls objects)

/-- The plan of calls under test. -/
def planForCalls (r : Recording) (subjects : List CallId) : Except Fault Plan :=
  resolve r subjects []

/-- The plan of one call under test. -/
def planForCall (r : Recording) (subject : CallId) : Except Fault Plan :=
  planForCalls r [subject]

/-- The calls that a use of an instance stands for: the call itself, or the resumptions of the
generator. -/
def callsOfUse (r : Recording) : Use → Except Fault (List CallId)
  | .call id => .ok [id]
  | .generator id => do
    let o ← r.object id
    match o.kind with
    | .generator _ calls => return calls
    | _ => return []

/-- The plan of all calls made on an instance of a project class, together with the instance. -/
def planForUserObject (r : Recording) (id : ObjectId) : Except Fault Plan := do
  let o ← r.findObject id
  match o.kind with
  | .user _ _ uses =>
    let calls ← uses.mapM (callsOfUse r)
    resolve r calls.flatten [id]
  | _ => .error (.notAnInstance id)

end Reenact.Setup
