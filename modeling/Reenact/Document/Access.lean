import Reenact.Document.Fields

/-!
# Parts of documents

Access to parts of documents that are read leniently: a part that is missing, or is something else
than expected, counts as null, zero, false or empty. What is reached this way is no larger than the
document (`sizeOf_lt_of_mem_items_field`), so readers of nested documents can recurse on it.
-/

namespace Reenact.Document

/-- A member, or null where it is missing. -/
def field (d : Document) (name : String) : Document := (d.member? name).getD .null

/-- The members of a list; anything else has none. -/
def items : Document → List Document
  | .list l => l
  | _ => []

/-- A member of a list by position, or null where it is missing. -/
def item (d : Document) (position : Nat) : Document := d.items[position]?.getD .null

def asText (d : Document) : String := d.text?.getD ""

def asBool (d : Document) : Bool := d.bool?.getD false

/-- A whole number, possibly written as a text. -/
def asInteger : Document → Int
  | .integer n => n
  | .text s => s.toInt?.getD 0
  | _ => 0

/-- A natural number, possibly written as a text. -/
def asNat (d : Document) : Nat := d.asInteger.toNat

/-- What the document holds, unless it is null. -/
def given? {α : Type} (f : Document → α) : Document → Option α
  | .null => none
  | d => some (f d)

def asTexts (d : Document) : List String := d.items.map asText

theorem one_le_sizeOf (d : Document) : 1 ≤ sizeOf d := by
  cases d <;> simp

/-- A member is no larger than the whole. -/
theorem sizeOf_field_le (d : Document) (name : String) : sizeOf (d.field name) ≤ sizeOf d := by
  simp only [field, member?]
  cases d with
  | record members =>
    cases found : members.reverse.lookup name with
    | none => simp [found]
    | some c =>
      obtain ⟨before, rest, split, -⟩ := List.lookup_eq_some_iff.1 found
      have mem : (name, c) ∈ members := by
        rw [← List.mem_reverse, split]
        simp
      have lt := List.sizeOf_lt_of_mem mem
      simp only [Prod.mk.sizeOf_spec] at lt
      simp only [found, Option.getD_some, record.sizeOf_spec]
      omega
  | _ => simp

/-- What a list holds is smaller than the list. -/
theorem sizeOf_lt_of_mem_items {d c : Document} (h : c ∈ d.items) : sizeOf c < sizeOf d := by
  cases d with
  | list l =>
    have := List.sizeOf_lt_of_mem (show c ∈ l from h)
    simp only [list.sizeOf_spec]
    omega
  | _ => simp [items] at h

/-- A member of a list is no larger than the whole. -/
theorem sizeOf_item_le (d : Document) (position : Nat) : sizeOf (d.item position) ≤ sizeOf d := by
  simp only [item]
  cases found : d.items[position]? with
  | none => simpa using one_le_sizeOf d
  | some c => exact Nat.le_of_lt (sizeOf_lt_of_mem_items (List.mem_of_getElem? found))

/-- What a list in a member holds is smaller than the whole. -/
theorem sizeOf_lt_of_mem_items_field {d c : Document} {name : String}
    (h : c ∈ (d.field name).items) : sizeOf c < sizeOf d :=
  Nat.lt_of_lt_of_le (sizeOf_lt_of_mem_items h) (sizeOf_field_le d name)

end Reenact.Document
