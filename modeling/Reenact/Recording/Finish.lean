import Reenact.Recording.CallGraph

/-!
# Ending a recording

A generator that runs to its end is resumed once more than it yields, and that last resumption
returns the null value. `finish` takes it out of the call graph for each generator that is
exhausted. What an exhausted generator is depends on the host and is a parameter. `erase` takes
everything back that a session captured, links included.
-/

namespace Reenact

namespace Recording

/-- The resumptions of a generator. -/
def resumptionsOf (r : Recording) (id : ObjectId) : List CallId :=
  match (r.object? id).map Object.kind with
  | some (.generator _ calls) => calls
  | _ => []

/-- The last resumption of a generator, with the object it returned. -/
def lastReturn? (r : Recording) (id : ObjectId) : Option (CallId × ObjectId) := do
  let last ← (r.resumptionsOf id).getLast?
  let call ← r.call? last
  let output ← call.output
  return (last, output)

/-- The last resumption of a generator if it returned the null value. -/
def trailingResumption? (r : Recording) (id : ObjectId) : Option CallId := do
  let (last, output) ← r.lastReturn? id
  let object ← r.object? output
  if object.kind.isNone then some last else none

/-- Takes the last resumption of a generator out of the recording if it returned the null value. -/
def dropTrailing (r : Recording) (id : ObjectId) : Recording :=
  match r.trailingResumption? id with
  | none => r
  | some last =>
    let r := r.modifyKind id (·.dropResumption)
    let r :=
      match r.detach last with
      | .ok r => r
      | .error _ => r
    { r with captured := r.captured.filter (· != last) }

/-- The generators that are exhausted. -/
def exhausted (r : Recording) (isExhausted : Value → Bool) : List ObjectId :=
  (r.generators.filter fun entry => isExhausted entry.2).map Prod.fst

/-- The recording at its end. Ending it again changes nothing. -/
def finish (r : Recording) (isExhausted : Value → Bool) : Recording :=
  if r.isFinished then r
  else
    { (r.exhausted isExhausted).foldl dropTrailing r with
      known := []
      generators := []
      isFinished := true }

/-- The recording at its end, refused when the last resumption of an exhausted generator returned
an object that is not part of the recording. -/
def finishChecked (r : Recording) (isExhausted : Value → Bool) : Except Fault Recording :=
  if r.isFinished then .ok r
  else
    let missing := (r.exhausted isExhausted).findSome? fun id =>
      (r.lastReturn? id).bind fun entry =>
        if (r.object? entry.2).isSome then none else some entry.2
    match missing with
    | some id => .error (.dangling (.object id))
    | none => .ok (r.finish isExhausted)

end Recording

namespace Session

def finish (s : Session) (isExhausted : Value → Bool) : Session :=
  s.record (·.finish isExhausted)

/-- Takes everything back that was captured. -/
def erase (s : Session) : Session :=
  ⟨s.project.forget s.recording.id, .empty s.recording.id⟩

end Session

end Reenact
