import Reenact.Recording.Basic

/-!
# Entries of a setup

A setup is a list of objects to make and side effects to repeat. A list that is appended to right
after it was made may be made with the appended objects at once: `fold` puts such entries together,
and `Entry.unfold` takes them apart again.
-/

namespace Reenact.Setup

/-- A list made together with what was appended to it. -/
structure GrownList where
  object : ObjectId
  shape : Shape
  /-- What it held and what was appended, in order. -/
  contained : List ObjectId
  /-- The appends. -/
  appends : List EffectId
  deriving DecidableEq, Repr

/-- An entry of a setup. -/
inductive Entry where
  | object (id : ObjectId)
  /-- A side effect to repeat. -/
  | effect (id : EffectId)
  /-- A list to make together with later appends. -/
  | grown (list : GrownList)
  deriving DecidableEq, Repr

namespace Entry

/-- The object that the entry makes. -/
def object? : Entry → Option ObjectId
  | object id => some id
  | effect _ => none
  | grown list => some list.object

/-- The side effect that the entry repeats by itself. -/
def effect? : Entry → Option EffectId
  | effect id => some id
  | object _ | grown _ => none

/-- When what the entry stands for was recorded. -/
def moment (r : Recording) : Entry → Except Fault Moment
  | object id => (r.object id).map Object.moment
  | effect id => (r.effect id).map Effect.moment
  | grown list => (r.object list.object).map Object.moment

/-- The entries that an entry was put together from. -/
def unfold : Entry → List Entry
  | object id => [.object id]
  | effect id => [.effect id]
  | grown list => .object list.object :: list.appends.map .effect

end Entry

/-- The two entries as one, where the second is an append to the list that the first makes. -/
def joinPair (r : Recording) (first second : Entry) : Except Fault (Option Entry) :=
  match second with
  | .object _ | .grown _ => .ok none
  | .effect id => do
    let effect ← r.effect id
    match first with
    | .effect _ => return none
    | .object list =>
      let o ← r.object list
      match o.kind with
      | .sequence .list contained =>
        match effect.appendedTo? list with
        | some appended => return some (.grown ⟨list, .list, contained ++ [appended], [effect.id]⟩)
        | none => return none
      | _ => return none
    | .grown list =>
      match effect.appendedTo? list.object with
      | some appended =>
        return some (.grown { list with
          contained := list.contained ++ [appended], appends := list.appends ++ [effect.id] })
      | none => return none

/-- Puts each list together with the appends right behind it; `first` is the entry in front. -/
def foldFrom (r : Recording) (first : Entry) : List Entry → Except Fault (List Entry)
  | [] => .ok [first]
  | second :: rest => do
    match ← joinPair r first second with
    | some joined => foldFrom r joined rest
    | none => return first :: (← foldFrom r second rest)

/-- Puts each list together with the appends right behind it. -/
def fold (r : Recording) : List Entry → Except Fault (List Entry)
  | [] => .ok []
  | first :: rest => foldFrom r first rest

end Reenact.Setup
