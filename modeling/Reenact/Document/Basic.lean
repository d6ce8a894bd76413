/-!
# Documents

A tree of values for exchange with other programs: numbers, texts, lists, and records with named
members. Whole numbers are kept apart from other numbers, of which only the text is kept.
-/

namespace Reenact

inductive Document where
  | null
  | bool (value : Bool)
  | integer (value : Int)
  /-- A number with a fraction or an exponent, as it is written. -/
  | real (digits : String)
  | text (value : String)
  | list (items : List Document)
  | record (members : List (String × Document))
  deriving Repr

namespace Document

instance : Inhabited Document := ⟨null⟩

def nat (n : Nat) : Document := .integer n

/-- The last member of that name. -/
def member? (d : Document) (name : String) : Option Document :=
  match d with
  | record members => members.reverse.lookup name
  | _ => none

/-- Nothing for a missing value. -/
def ofOption {α : Type} (f : α → Document) : Option α → Document
  | some a => f a
  | none => .null

/-- The list of the documents of the members. -/
def ofList {α : Type} (f : α → Document) (l : List α) : Document := .list (l.map f)

/-- A choice with content: a record with one member. -/
def tagged (tag : String) (content : Document) : Document := .record [(tag, content)]

end Document

end Reenact
