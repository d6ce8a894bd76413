import Reenact.Id
import Reenact.Decimal.Binary64

/-!
# Values of the observed program

The recorder never touches the observed program itself. Its host describes each value once, by a
handle that stands for the identity of the value, the name and module of its type, the code of its
methods, and a classification with the values it holds. Two values are the same to the recorder when
their handles are. Handles of values that the engine builds itself form a range of their own
(`Handle.observed_ne_built`).
-/

namespace Reenact

/-- The number of handles in each of the two ranges. -/
abbrev Handle.capacity : Nat := Nat.pow 2 63

/-- The identity of a value. -/
structure Handle where
  /-- Whether the engine built the value; the host reports all others. -/
  isBuilt : Bool
  /-- The number within its range. -/
  number : Fin Handle.capacity
  deriving DecidableEq, Repr

namespace Handle

/-- The handle of a value that the host reports; numbers past the range wrap around. -/
def observed (n : Nat) : Handle := ⟨false, Fin.ofNat _ n⟩

/-- The handle of a value that the engine builds; numbers past the range wrap around. -/
def built (n : Nat) : Handle := ⟨true, Fin.ofNat _ n⟩

/-- The handle as one word of 64 bits, the top bit telling who built the value. -/
def word (h : Handle) : Nat :=
  (if h.isBuilt then capacity else 0) + h.number

/-- The handle that a word of 64 bits stands for. -/
def ofWord (w : Nat) : Handle :=
  ⟨decide (capacity ≤ w), Fin.ofNat _ w⟩

/-- No value that the host reports shares its handle with one that the engine builds. -/
theorem observed_ne_built (m n : Nat) : observed m ≠ built n := by
  simp [observed, built]

end Handle

inductive Shape where
  /-- Changeable, ordered. -/
  | list
  /-- Fixed, ordered. -/
  | tuple
  /-- Changeable, unordered. -/
  | set
  /-- Fixed, unordered. -/
  | frozenSet
  /-- Numbers of one type, which the code names. -/
  | array (code : Char)
  deriving DecidableEq, Repr

/-- The name of the builtin type of the shape. -/
def Shape.typeName : Shape → String
  | .list => "list"
  | .tuple => "tuple"
  | .set => "set"
  | .frozenSet => "frozenset"
  | .array _ => "array"

/-- A value that can be written down without reference to others. -/
inductive Literal where
  | none
  | bool (value : Bool)
  | int (value : Int)
  | float (value : Decimal.Binary64)
  | text (value : String)
  /-- A compiled regular expression. -/
  | pattern (source : String) (flags : List String)
  /-- A named function, with the module that defines it. -/
  | function (name module : String)
  deriving DecidableEq, Repr

/-- The frame of a generator, which the host releases once the generator is exhausted. -/
structure FrameId where
  /-- The name that the host gives it. -/
  name : String
  deriving DecidableEq, Repr

/-- What is known of every value. -/
structure Header where
  /-- The identity of the value. -/
  handle : Handle
  /-- The name of its type. -/
  typeName : String
  /-- The module of its type. -/
  module : String
  /-- Its methods, each with the code that runs it. -/
  methods : List (String × CodeId)
  deriving DecidableEq, Repr

/-- A value of the observed program. -/
inductive Value where
  | literal (header : Header) (value : Literal)
  /-- A builtin sequence with its items in order. -/
  | sequence (header : Header) (shape : Shape) (items : List Value)
  /-- A builtin mapping with its keys and values in order. -/
  | map (header : Header) (entries : List (Value × Value))
  /-- An exception with its arguments; `isBuiltin` tells whether the type is builtin. -/
  | exception (header : Header) (args : List Value) (isBuiltin : Bool)
  /-- A call that can be resumed. -/
  | generator (header : Header) (frame : FrameId)
  /-- An instance of a library type, with its attributes. -/
  | library (header : Header) (attributes : List (String × Value))
  /-- An instance of some class. -/
  | object (header : Header)
  /-- Anything else. -/
  | other (header : Header)

/-- The module of builtin types. -/
def builtinModule : String := "builtins"

namespace Value

/-- What is known of every value. -/
def header : Value → Header
  | literal h _ | sequence h _ _ | map h _ | exception h _ _ | generator h _ | library h _
  | object h | other h => h

/-- The identity of the value. -/
def handle (v : Value) : Handle := v.header.handle

/-- The name of its type. -/
def typeName (v : Value) : String := v.header.typeName

/-- The module of its type. -/
def module (v : Value) : String := v.header.module

/-- The code of the first method of that name. -/
def methodCode (v : Value) (name : String) : Option CodeId :=
  v.header.methods.lookup name

/-- The items of a sequence. -/
def items? : Value → Option (List Value)
  | sequence _ _ items => some items
  | _ => none

/-- The first attribute of that name of a library value. -/
def attributeNamed (v : Value) (name : String) : Option Value :=
  match v with
  | library _ attributes => attributes.lookup name
  | _ => none

/-- The attributes of those names, if the value has them all. -/
def attributesNamed (v : Value) : List String → Option (List Value)
  | [] => some []
  | name :: rest =>
    match v.attributeNamed name, v.attributesNamed rest with
    | some value, some values => some (value :: values)
    | _, _ => none

/-- Whether both are the same value. -/
def isSame (v w : Value) : Bool :=
  v.handle == w.handle

/-- The type with its module in front, unless it is builtin or has none. -/
def qualifiedType (v : Value) : String :=
  if v.module = builtinModule ∨ v.module = "" then v.typeName else s!"{v.module}.{v.typeName}"

/-- Whether the value is a generator whose frame is among the released ones. -/
def isReleased (released : List FrameId) : Value → Bool
  | generator _ frame => released.contains frame
  | _ => false

/-- The values that a value holds directly, in order; a key in front of its value. -/
def held : Value → List Value
  | literal .. | generator .. | object .. | other .. => []
  | sequence _ _ items => items
  | map _ entries => entries.flatMap fun entry => [entry.1, entry.2]
  | exception _ args _ => args
  | library _ attributes => attributes.map Prod.snd

/-- What a value holds is smaller than the value. -/
theorem sizeOf_lt_of_mem_held {v w : Value} (h : w ∈ v.held) : sizeOf w < sizeOf v := by
  cases v with
  | literal | generator | object | other => simp [held] at h
  | sequence _ _ items =>
    have := List.sizeOf_lt_of_mem (show w ∈ items from h)
    simp only [sequence.sizeOf_spec]
    omega
  | exception _ args _ =>
    have := List.sizeOf_lt_of_mem (show w ∈ args from h)
    simp only [exception.sizeOf_spec]
    omega
  | map _ entries =>
    obtain ⟨⟨key, value⟩, mem, part⟩ := List.mem_flatMap.1 h
    have := List.sizeOf_lt_of_mem mem
    simp only [Prod.mk.sizeOf_spec] at this
    simp only [List.mem_cons, List.not_mem_nil, or_false] at part
    simp only [map.sizeOf_spec]
    rcases part with rfl | rfl <;> omega
  | library _ attributes =>
    obtain ⟨⟨name, value⟩, mem, rfl⟩ := List.mem_map.1 h
    have := List.sizeOf_lt_of_mem mem
    simp only [Prod.mk.sizeOf_spec] at this
    simp only [library.sizeOf_spec]
    omega

/-- An attribute is held by its value. -/
theorem mem_held_of_attributeNamed {v w : Value} {name : String} (h : v.attributeNamed name = some w) :
    w ∈ v.held := by
  cases v with
  | library _ attributes =>
    simp only [attributeNamed] at h
    obtain ⟨before, rest, split, -⟩ := List.lookup_eq_some_iff.1 h
    simp [held, split]
  | _ => simp [attributeNamed] at h

/-- Attributes are held by their value. -/
theorem mem_held_of_attributesNamed {v w : Value} {names : List String} {values : List Value}
    (h : v.attributesNamed names = some values) (mem : w ∈ values) : w ∈ v.held := by
  induction names generalizing values with
  | nil =>
    cases h
    cases mem
  | cons name rest ih =>
    simp only [attributesNamed] at h
    split at h
    · rename_i value others first found
      cases h
      rcases List.mem_cons.1 mem with rfl | mem
      · exact mem_held_of_attributeNamed first
      · exact ih found mem
    · cases h

end Value

end Reenact
