import Reenact.Id

/-!
# Recorded side effects

A change of state, or a read of shared state, seen while a program runs. Each effect affects some
objects and refers to others that are needed to repeat it; those it affects are among those it
refers to (`Change.affected_subset_referenced`).
-/

namespace Reenact

/-- An operation that changes a builtin container. -/
inductive Mutation where
  | listAppend
  | listExtend
  | listInsert
  | listRemove
  | listPop
  | listSort
  | listReverse
  | listClear
  | dictSetItem
  | dictDelItem
  | dictUpdate
  | dictSetDefault
  | dictPop
  | dictClear
  | setAdd
  | setDiscard
  | setRemove
  | setUpdate
  | setClear
  deriving DecidableEq, Repr

namespace Mutation

/-- The method that performs the operation. -/
def methodName : Mutation → String
  | listAppend => "append"
  | listExtend => "extend"
  | listInsert => "insert"
  | listRemove | setRemove => "remove"
  | listPop | dictPop => "pop"
  | listSort => "sort"
  | listReverse => "reverse"
  | listClear | dictClear | setClear => "clear"
  | dictSetItem => "__setitem__"
  | dictDelItem => "__delitem__"
  | dictUpdate | setUpdate => "update"
  | dictSetDefault => "setdefault"
  | setAdd => "add"
  | setDiscard => "discard"

/-- The name of the builtin type that it changes. -/
def receiverType : Mutation → String
  | listAppend | listExtend | listInsert | listRemove | listPop | listSort | listReverse
  | listClear => "list"
  | dictSetItem | dictDelItem | dictUpdate | dictSetDefault | dictPop | dictClear => "dict"
  | setAdd | setDiscard | setRemove | setUpdate | setClear => "set"

def all : List Mutation := [
  listAppend, listExtend, listInsert, listRemove, listPop, listSort, listReverse, listClear,
  dictSetItem, dictDelItem, dictUpdate, dictSetDefault, dictPop, dictClear,
  setAdd, setDiscard, setRemove, setUpdate, setClear]

end Mutation

/-- What happened. -/
inductive Change where
  /-- A container was changed through one of its methods. -/
  | mutation (op : Mutation) (receiver : ObjectId) (args : List ObjectId)
  /-- A name of a module was read. -/
  | globalRead (module name : String) (value : ObjectId)
  /-- A name of a module was bound anew. -/
  | globalRebind (module name : String) (value : ObjectId)
  /-- An attribute of an object was bound anew. -/
  | attributeRebind (target : ObjectId) (name : String) (value : ObjectId)
  deriving DecidableEq, Repr

namespace Change

/-- The objects whose state changes. -/
def affected : Change → List ObjectId
  | mutation _ receiver _ => [receiver]
  | globalRead .. | globalRebind .. => []
  | attributeRebind target _ _ => [target]

/-- The objects needed to repeat it, those affected in front. -/
def referenced : Change → List ObjectId
  | mutation _ receiver args => receiver :: args
  | globalRead _ _ value | globalRebind _ _ value => [value]
  | attributeRebind target _ value => [target, value]

/-- What a change affects it refers to. -/
theorem affected_subset_referenced (c : Change) : c.affected ⊆ c.referenced := by
  cases c <;> simp [affected, referenced]

end Change

structure Effect where
  id : EffectId
  /-- When it was seen. -/
  moment : Moment
  /-- What happened. -/
  change : Change
  /-- The objects whose state changed. -/
  affected : List ObjectId
  /-- The objects needed to repeat it. -/
  referenced : List ObjectId
  deriving DecidableEq, Repr

namespace Effect

/-- The effect of a change, with the objects that the change affects and refers to. -/
def ofChange (id : EffectId) (moment : Moment) (change : Change) : Effect :=
  ⟨id, moment, change, change.affected, change.referenced⟩

/-- Whether the effect changes the object. -/
def affects (e : Effect) (o : ObjectId) : Bool := e.affected.contains o

/-- Whether the effect needs the object. -/
def refersTo (e : Effect) (o : ObjectId) : Bool := e.referenced.contains o

/-- What is appended to the list, where the effect is an append of one object to it. -/
def appendedTo? (e : Effect) (list : ObjectId) : Option ObjectId :=
  match e.change with
  | .mutation .listAppend receiver [arg] => if receiver = list then some arg else none
  | _ => none

end Effect

end Reenact
