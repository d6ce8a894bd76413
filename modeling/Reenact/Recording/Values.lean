import Reenact.Recording.Basic
import Reenact.Recording.Thread
import Reenact.Value.Token

/-!
# Recording values

A value becomes an object once: its handle is looked up first, so the same value always gives the
same object. The parts of a composite value are recorded before it and are therefore older. A value
met again inside itself, while its own parts are still being recorded, becomes an unknown object
that its handle does not stand for. `serializeWithin_eq` is the rule in one equation.
-/

namespace Reenact

/-- What a value becomes, as far as it can be told before its parts are recorded. -/
inductive Outline where
  /-- The whole object, without parts. -/
  | whole (kind : ObjectKind)
  | sequence (shape : Shape) (items : List Value)
  /-- A mapping with its keys and values. -/
  | map (entries : List (Value × Value))
  /-- An exception with its arguments. -/
  | exception (args : List Value)
  /-- An instance of a known library type with the arguments of its constructor. -/
  | library (type : LibraryType) (args : List Value)

namespace Outline

/-- The values to record, in order. -/
def parts : Outline → List Value
  | whole _ => []
  | sequence _ items => items
  | map entries => entries.flatMap fun entry => [entry.1, entry.2]
  | exception args => args
  | library _ args => args

/-- Keys and values taken in turn. -/
def pairUp : List ObjectId → List (ObjectId × ObjectId)
  | key :: value :: rest => (key, value) :: pairUp rest
  | _ => []

/-- The object, given the objects of its parts. -/
def build (parts : List ObjectId) : Outline → ObjectKind
  | whole kind => kind
  | sequence shape _ => .sequence shape parts
  | map _ => .map (pairUp parts)
  | exception _ => .exception parts
  | library type _ => .library type.format parts (.single type.neededImport)

end Outline

/-- What a value becomes that is neither a generator nor an instance of a project class. -/
def Value.plainOutline (v : Value) : Outline :=
  match v with
  | .literal _ value => .whole (.immutable value.code value.imports)
  | .sequence _ shape items => .sequence shape items
  | .map _ entries => .map entries
  | .exception _ args true => .exception args
  | .library header _ =>
    match LibraryType.find? header.module header.typeName with
    | none => .whole (.unknown v.qualifiedType)
    | some type =>
      match v.attributesNamed type.arguments with
      | some args => .library type args
      | none => .whole (.unknown v.qualifiedType)
  | .exception _ _ false | .generator .. | .object _ | .other _ =>
    .whole (.unknown v.qualifiedType)

/-- What a value becomes. Generators come first, then instances of project classes. -/
def Project.outline (p : Project) (v : Value) : Outline :=
  match v with
  | .generator .. => .whole (.generator none [])
  | _ =>
    match p.findClass v.typeName v.module with
    | some cls => .whole (.user cls none [])
    | none => v.plainOutline

/-- The parts of an outline are held by the value. -/
theorem Project.mem_held_of_mem_parts {p : Project} {v w : Value}
    (h : w ∈ (p.outline v).parts) : w ∈ v.held := by
  have plain : w ∈ v.plainOutline.parts → w ∈ v.held := by
    intro h
    cases v with
    | literal | generator | object | other => simp [Value.plainOutline, Outline.parts] at h
    | sequence | map => exact h
    | exception _ _ isBuiltin =>
      cases isBuiltin with
      | true => exact h
      | false => simp [Value.plainOutline, Outline.parts] at h
    | library header attributes =>
      simp only [Value.plainOutline] at h
      split at h
      · simp [Outline.parts] at h
      · split at h
        · rename_i found
          exact Value.mem_held_of_attributesNamed found h
        · simp [Outline.parts] at h
  cases v with
  | generator => simp [outline, Outline.parts] at h
  | literal | sequence | map | exception | library | object | other =>
    simp only [outline] at h
    split at h
    · simp [Outline.parts] at h
    · exact plain h

namespace Recording

/-- Adds an object for a value at the next moment. -/
def pushObject (r : Recording) (v : Value) (kind : ObjectKind) : Recording × ObjectId :=
  let id : ObjectId := ⟨r.objects.size⟩
  let r := r.tick
  let object : Object :=
    { id := id
      moment := r.clock.last
      word := v.word
      typeName := v.typeName
      module := v.module
      kind := kind }
  ({ r with objects := r.objects.push object }, id)

/-- Remembers the object of a handle. -/
def remember (r : Recording) (h : Handle) (id : ObjectId) : Recording :=
  { r with known := (h, id) :: r.known }

end Recording

namespace Session

/-- Adds an object that its handle does not stand for. -/
def pushStray (s : Session) (v : Value) : Session × ObjectId :=
  let (r, id) := s.recording.pushObject v (.unknown v.qualifiedType)
  ({ s with recording := r }, id)

/-- Adds the object of a value, lets its handle stand for it, and links an instance to its class. -/
def pushKnown (s : Session) (v : Value) (kind : ObjectKind) : Session × ObjectId :=
  let (r, id) := s.recording.pushObject v kind
  let s : Session := { s with recording := r.remember v.handle id }
  match kind with
  | .user cls _ _ => (s.linkClass cls (.userObject id), id)
  | .generator _ _ =>
    (s.record fun r => { r with generators := r.generators ++ [(id, v)] }, id)
  | _ => (s, id)

/-- The object of a value met while the values with the handles `around` are being recorded. -/
def serializeWithin (around : List Handle) (s : Session) (v : Value) : Session × ObjectId :=
  match s.recording.lookup v.handle with
  | some id => (s, id)
  | none =>
    if v.handle ∈ around then s.pushStray v
    else
      let (after, ids) :=
        thread (fun t (w : { w // w ∈ (s.project.outline v).parts }) =>
          serializeWithin (v.handle :: around) t w.1) s (s.project.outline v).parts.attach
      after.pushKnown v ((s.project.outline v).build ids)
termination_by sizeOf v
decreasing_by
  exact Value.sizeOf_lt_of_mem_held (Project.mem_held_of_mem_parts w.2)

/-- What becomes of a value, by cases on its handle. -/
theorem serializeWithin_eq (around : List Handle) (s : Session) (v : Value) :
    s.serializeWithin around v =
      match s.recording.lookup v.handle with
      | some id => (s, id)
      | none =>
        if v.handle ∈ around then s.pushStray v
        else
          let (after, ids) :=
            thread (serializeWithin (v.handle :: around)) s (s.project.outline v).parts
          after.pushKnown v ((s.project.outline v).build ids) := by
  rw [serializeWithin]
  simp only [thread_attach]

/-- The object of a value. -/
def serialize (s : Session) (v : Value) : Session × ObjectId :=
  s.serializeWithin [] v

/-- The objects of values, in order. -/
def serializeAll (s : Session) (values : List Value) : Session × List ObjectId :=
  thread serialize s values

/-- The objects of named values, in order. -/
def serializeArguments (s : Session) (args : List (String × Value)) : Session × Arguments :=
  let (s, ids) := s.serializeAll (args.map Prod.snd)
  (s, .ofList ((args.map Prod.fst).zip ids))

end Session

end Reenact
