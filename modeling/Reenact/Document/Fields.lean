import Reenact.Document.Basic

/-!
# Reading documents

What a document says where a certain kind of value is expected. A record may also be written as the
list of its members in order. A choice is written as its tag, or as a record whose only member is
named by the tag and holds the content.
-/

namespace Reenact.Document

def bool? : Document → Option Bool
  | .bool b => some b
  | _ => none

def text? : Document → Option String
  | .text s => some s
  | _ => none

/-- A text of one character. -/
def char? (d : Document) : Option Char :=
  match d.text?.map String.toList with
  | some [c] => some c
  | _ => none

/-- A natural number below a bound. -/
def natBelow? (bound : Nat) : Document → Option Nat
  | .integer (.ofNat n) => if n < bound then some n else none
  | _ => none

/-- A natural number of 32 bits. -/
def nat32? (d : Document) : Option Nat := d.natBelow? (Nat.pow 2 32)

/-- A natural number of 64 bits. -/
def nat64? (d : Document) : Option Nat := d.natBelow? (Nat.pow 2 64)

def list? {α : Type} (f : Document → Option α) : Document → Option (List α)
  | .list items => items.mapM f
  | _ => none

/-- A pair, written as a list of two. -/
def pair? {α β : Type} (f : Document → Option α) (g : Document → Option β) :
    Document → Option (α × β)
  | .list [a, b] => do return (← f a, ← g b)
  | _ => none

/-- A record with any names; the last member of each name counts. -/
def table? {α : Type} (f : Document → Option α) : Document → Option (List (String × α))
  | .record members => members.mapM fun entry => do return (entry.1, ← f entry.2)
  | _ => none

/-- The members of a record that is expected to have certain ones. -/
inductive Fields where
  /-- Members by name. -/
  | named (whole : Document)
  /-- Members by position. -/
  | listed (items : List Document)

/-- The members of a record of `count` members. -/
def fields? (count : Nat) : Document → Option Fields
  | .record members => some (.named (.record members))
  | .list items => if items.length ≤ count then some (.listed items) else none
  | _ => none

namespace Fields

/-- A member by its position and name. -/
def get? (fs : Fields) (position : Nat) (name : String) : Option Document :=
  match fs with
  | .named whole => whole.member? name
  | .listed items => items[position]?

/-- A member that has to be there. -/
def required {α : Type} (fs : Fields) (position : Nat) (name : String)
    (f : Document → Option α) : Option α :=
  (fs.get? position name).bind f

/-- A member that may be null, and may be missing among members by name. -/
def optional {α : Type} (fs : Fields) (position : Nat) (name : String)
    (f : Document → Option α) : Option (Option α) :=
  match fs.get? position name, fs with
  | some .null, _ => some none
  | some d, _ => (f d).map some
  | none, .named _ => some none
  | none, .listed _ => none

/-- A member that may be missing. -/
def defaulted {α : Type} (fs : Fields) (position : Nat) (name : String)
    (f : Document → Option α) (default : α) : Option α :=
  match fs.get? position name with
  | some d => f d
  | none => some default

end Fields

/-- The tag of a choice and its content, if it has one. -/
def choice? : Document → Option (String × Option Document)
  | .text tag => some (tag, none)
  | .record members =>
    match members.reverse with
    | (tag, content) :: rest =>
      if rest.all fun entry => entry.1 == tag then some (tag, some content) else none
    | [] => none
  | _ => none

def noContent? : Option Document → Option Unit
  | none | some .null => some ()
  | some _ => none

/-- The members of a choice whose content is a record, which is not written as a list here. -/
def contentFields? : Option Document → Option Fields
  | some (.record members) => some (.named (.record members))
  | _ => none

end Reenact.Document
