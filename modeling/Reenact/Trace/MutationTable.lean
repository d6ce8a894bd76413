import Reenact.Recording.Effect

/-!
# Registered mutations

Which operation of foreign code on which builtin type is which mutation. What is not registered
counts as a read.
-/

namespace Reenact

/-- Mutations by the type of the receiver and the name of the operation; no pair occurs twice. -/
structure MutationTable where
  /-- Type, operation and mutation. -/
  entries : List ((String × String) × Mutation)
  deriving DecidableEq, Repr

namespace MutationTable

/-- A table that knows nothing. -/
def empty : MutationTable := ⟨[]⟩

/-- Registers an operation, in the place of an earlier one of the same type and name. -/
def register (t : MutationTable) (typeName operation : String) (op : Mutation) : MutationTable :=
  ⟨t.entries.filter (·.1 != (typeName, operation)) ++ [((typeName, operation), op)]⟩

/-- The mutation that an operation is. -/
def find? (t : MutationTable) (typeName operation : String) : Option Mutation :=
  t.entries.lookup (typeName, operation)

/-- Whether the operation is registered. -/
def knows (t : MutationTable) (typeName operation : String) : Bool :=
  (t.find? typeName operation).isSome

/-- How many operations are registered. -/
def size (t : MutationTable) : Nat := t.entries.length

/-- Whether one pair of texts comes before another or is the same. -/
def comesFirst (a b : String × String) : Bool :=
  decide (a.1 < b.1) || (a.1 == b.1 && decide (a.2 ≤ b.2))

/-- All entries in the order of type and operation. -/
def toList (t : MutationTable) : List ((String × String) × Mutation) :=
  t.entries.mergeSort fun a b => comesFirst a.1 b.1

/-- The mutating methods of the builtin lists, mappings and sets. -/
def standard : MutationTable :=
  Mutation.all.foldl (fun t op => t.register op.receiverType op.methodName op) empty

end MutationTable

end Reenact
