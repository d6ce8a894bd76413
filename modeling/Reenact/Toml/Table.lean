import Reenact.Document.Basic

/-!
# Tables of settings files

The tables that the lines of a settings file fill. A table may come to be in three ways: by its own
heading, on the way to a deeper table, or on the way of a key with dots. A key may be set once only,
a table may have one heading only, and tables that have one cannot be added to by keys with dots.
-/

namespace Reenact.Toml

/-- What a key stands for. -/
inductive Item where
  | value (content : Document)
  /-- A table. It is implicit while it has no heading, and dotted if keys with dots made it. -/
  | table (isImplicit isDotted : Bool) (entries : List (String × Item))
  /-- Tables under one heading, latest first, each by its entries. -/
  | tables (items : List (List (String × Item)))

structure Table where
  /-- Whether it has no heading of its own. -/
  isImplicit : Bool
  /-- Whether keys with dots made it. -/
  isDotted : Bool
  /-- Keys and what they stand for, in order. -/
  entries : List (String × Item)

namespace Table

def empty : Table := ⟨false, false, []⟩

/-- The table as an item. -/
def toItem (t : Table) : Item := .table t.isImplicit t.isDotted t.entries

/-- What a key stands for. -/
def get? (t : Table) (key : String) : Option Item := t.entries.lookup key

/-- Adds a key that the table lacks. -/
def add (t : Table) (key : String) (item : Item) : Table :=
  { t with entries := t.entries ++ [(key, item)] }

/-- Changes what a key stands for. -/
def replace (t : Table) (key : String) (item : Item) : Table :=
  { t with entries := t.entries.map fun entry => if entry.1 = key then (key, item) else entry }

def remove (t : Table) (key : String) : Table :=
  { t with entries := t.entries.filter (·.1 != key) }

/-- Changes the table at the end of a path, making the tables on the way that are missing. The last
of several tables under one heading counts. With `isDotted` the path belongs to a key with dots. -/
def update (isDotted : Bool) (change : Table → Option Table) :
    List String → Table → Option Table
  | [], t => change t
  | key :: path, t =>
    match t.get? key with
    | none => do
      let inner ← update isDotted change path ⟨true, isDotted, []⟩
      return t.add key inner.toItem
    | some (.value _) => none
    | some (.table isImplicit wasDotted entries) =>
      if isDotted && !isImplicit then none
      else do
        let inner ← update isDotted change path ⟨isImplicit, wasDotted, entries⟩
        return t.replace key inner.toItem
    | some (.tables []) => none
    | some (.tables (last :: others)) => do
      let inner ← update isDotted change path ⟨false, false, last⟩
      return t.replace key (.tables (inner.entries :: others))

/-- Sets a key that may have dots. -/
def set (t : Table) (path : List String) (key : String) (value : Item) : Option Table :=
  t.update true (fun inner =>
    if inner.isDotted == path.isEmpty then none
    else if (inner.get? key).isSome then none
    else some (inner.add key value)) path

/-- The table that the heading of that path opens, and the rest without it. A table that was made on
the way to a deeper one is taken over. -/
def takeHeaded (root : Table) (path : List String) (key : String) : Option (Table × Table) := do
  let found ← root.update false some path
  let rec find : List String → Table → Option Item
    | [], t => t.get? key
    | first :: rest, t =>
      match t.get? first with
      | some (.table isImplicit isDotted entries) => find rest ⟨isImplicit, isDotted, entries⟩
      | some (.tables (last :: _)) => find rest ⟨false, false, last⟩
      | _ => none
  match find path found with
  | none => return (found, .empty)
  | some (.table true false entries) =>
    let without ← found.update false (fun t => some (t.remove key)) path
    return (without, ⟨false, false, entries⟩)
  | some _ => none

/-- Puts a table in at the end of its path. -/
def putHeaded (root : Table) (path : List String) (key : String) (t : Table) : Option Table :=
  root.update false (fun parent =>
    match parent.get? key with
    | none => some (parent.add key t.toItem)
    | some _ => none) path

/-- Prepares a heading that several tables share. -/
def openShared (root : Table) (path : List String) (key : String) : Option Table :=
  root.update false (fun parent =>
    match parent.get? key with
    | none => some (parent.add key (.tables []))
    | some (.tables _) => some parent
    | some _ => none) path

/-- Adds a table under a heading that several tables share. -/
def putShared (root : Table) (path : List String) (key : String) (t : Table) : Option Table :=
  root.update false (fun parent =>
    match parent.get? key with
    | none => some (parent.add key (.tables [t.entries]))
    | some (.tables items) => some (parent.replace key (.tables (t.entries :: items)))
    | some _ => none) path

end Table

end Reenact.Toml
