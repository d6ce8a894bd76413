import Reenact.Recording.Basic

/-!
# The content of objects

Whether code can make an object again, when two objects have the same content, and the data that
stands for the content of an object. All three follow the parts of builtin and library objects.
Parts are recorded before what they are part of, so one more step than the number of the object
reaches them all; instances of project classes, generators and unknown objects are the same as
nothing but themselves.
-/

namespace Reenact.Recording

/-- Whether code can make the object again, following parts for at most `steps` steps. -/
def isConstructibleWithin (r : Recording) : Nat → ObjectId → Bool
  | 0, _ => false
  | steps + 1, id =>
    match (r.object? id).map Object.kind with
    | none => false
    | some (.unknown _) => false
    | some (.generator activation _) => activation.isSome
    | some (.immutable ..) | some (.user ..) => true
    | some kind => kind.parts.all (r.isConstructibleWithin steps)

/-- Whether code can make the object again: neither an unknown object nor a generator that was
never resumed is among its parts, their parts, and so on. -/
def isConstructible (r : Recording) (id : ObjectId) : Bool :=
  r.isConstructibleWithin (id.index + 1) id

/-- Whether two kinds are alike apart from their parts. -/
def isAlike : ObjectKind → ObjectKind → Bool
  | .immutable code imports, .immutable code' imports' => code == code' && imports == imports'
  | .sequence shape _, .sequence shape' _ => shape == shape'
  | .map _, .map _ => true
  | .exception _, .exception _ => true
  | .library format _ _, .library format' _ _ => format == format'
  | _, _ => false

/-- Whether two lists have equal length and related members. -/
def allAlike (same : ObjectId → ObjectId → Bool) : List ObjectId → List ObjectId → Bool
  | [], [] => true
  | a :: as, b :: bs => same a b && allAlike same as bs
  | _, _ => false

/-- Whether two objects have the same content, following parts for at most `steps` steps. -/
def hasSameContentWithin (r : Recording) : Nat → ObjectId → ObjectId → Bool
  | 0, a, b => a == b
  | steps + 1, a, b =>
    a == b ||
      match r.object? a, r.object? b with
      | some left, some right =>
        left.typeName == right.typeName && left.module == right.module &&
          isAlike left.kind right.kind &&
          allAlike (r.hasSameContentWithin steps) left.parts right.parts
      | _, _ => false

/-- Whether two objects have the same content. -/
def hasSameContent (r : Recording) (a b : ObjectId) : Bool :=
  r.hasSameContentWithin (a.index + 1) a b

/-- One piece of the data that stands for the content of an object. -/
inductive Datum where
  | text (value : String)
  | number (value : Nat)
  deriving DecidableEq, Repr

/-- The data of an import. -/
def importData : Import → List Datum
  | .module name => [.number 0, .text name]
  | .member module name => [.number 1, .text module, .text name]

/-- The data of a shape. -/
def shapeData : Shape → List Datum
  | .list => [.number 0]
  | .tuple => [.number 1]
  | .set => [.number 2]
  | .frozenSet => [.number 3]
  | .array code => [.number 4, .number code.toNat]

/-- The data of a kind apart from its parts; none for kinds that stand for themselves alone. -/
def kindData? : ObjectKind → Option (List Datum)
  | .immutable code imports =>
    some (.text code :: .number imports.items.length :: imports.items.flatMap importData)
  | .sequence shape _ => some (shapeData shape)
  | .library format _ _ => some [.text format]
  | .map _ | .exception _ => some []
  | .unknown _ | .user .. | .generator .. => none

/-- The data of an object, following parts for at most `steps` steps. -/
def contentDataWithin (r : Recording) : Nat → ObjectId → List Datum
  | 0, id => [.number id.index]
  | steps + 1, id =>
    match r.object? id with
    | none => [.number id.index]
    | some o =>
      .text o.typeName :: .text o.module ::
        match kindData? o.kind with
        | none => [.number id.index]
        | some data =>
          data ++ .number o.parts.length :: o.parts.flatMap (r.contentDataWithin steps)

/-- The data that stands for the content of an object. -/
def contentData (r : Recording) (id : ObjectId) : List Datum :=
  r.contentDataWithin (id.index + 1) id

end Reenact.Recording
