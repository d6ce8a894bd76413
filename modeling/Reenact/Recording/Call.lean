import Reenact.Recording.Object

/-!
# Recorded calls

A call of a function or method, or one resumption of a generator, with its arguments, outcome and
place among other calls.
-/

namespace Reenact

/-- What is particular to a call. -/
inductive CallKind where
  /-- A call of a function. -/
  | function
  /-- A call of a method. -/
  | method (receiver : ObjectId)
  /-- A resumption of a generator. -/
  | resumption (generator : ObjectId)
  deriving DecidableEq, Repr

/-- How a call ended. -/
inductive Outcome where
  /-- It returned a value. -/
  | returned (id : ObjectId)
  /-- An exception left it. -/
  | raised (id : ObjectId)
  deriving DecidableEq, Repr

/-- The value returned or the exception. -/
def Outcome.object : Outcome → ObjectId
  | returned id | raised id => id

structure Call where
  id : CallId
  /-- What is particular to it. -/
  kind : CallKind
  definition : Definition
  input : Arguments
  /-- How it ended, if it did. -/
  outcome : Option Outcome
  /-- The side effects seen while it was the innermost call. -/
  effects : List EffectId
  /-- The call it was made from. -/
  caller : Option CallId
  /-- The calls made from it, in order. -/
  subcalls : List CallId
  moment : Moment
  completedAt : Option Moment
  deriving DecidableEq

namespace Call

def output (c : Call) : Option ObjectId :=
  match c.outcome with
  | some (.returned id) => some id
  | _ => none

/-- The exception that left the call. -/
def exception (c : Call) : Option ObjectId :=
  match c.outcome with
  | some (.raised id) => some id
  | _ => none

/-- Whether an exception left the call. -/
def hasRaised (c : Call) : Bool := c.exception.isSome

def isCompleted (c : Call) : Bool := c.completedAt.isSome

/-- The receiver of a method call. -/
def receiver (c : Call) : Option ObjectId :=
  match c.kind with
  | .method id => some id
  | _ => none

/-- The generator resumed. -/
def generator (c : Call) : Option ObjectId :=
  match c.kind with
  | .resumption id => some id
  | _ => none

/-- When the call ended, or when it started if it has not ended. -/
def endMoment (c : Call) : Moment := c.completedAt.getD c.moment

end Call

end Reenact
