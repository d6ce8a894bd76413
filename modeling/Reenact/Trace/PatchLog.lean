import Reenact.Id

/-!
# Patching code once

Some hosts report events only for code that was patched to do so. A `PatchLog` remembers which code
was asked for already, so that none is patched twice.
-/

namespace Reenact

/-- The code that was asked for already. -/
structure PatchLog where
  /-- The code, none twice. -/
  codes : List CodeId
  deriving DecidableEq, Repr

namespace PatchLog

/-- Nothing was asked for yet. -/
def empty : PatchLog := ⟨[]⟩

/-- Whether the code was asked for. -/
def contains (l : PatchLog) (code : CodeId) : Bool := l.codes.contains code

/-- Asks for code; true for code that was not asked for before. -/
def request (l : PatchLog) (code : CodeId) : PatchLog × Bool :=
  if l.contains code then (l, false) else (⟨l.codes ++ [code]⟩, true)

/-- Asks for several pieces of code; gives those that were not asked for before. -/
def requestAll (l : PatchLog) : List CodeId → PatchLog × List CodeId
  | [] => (l, [])
  | code :: rest =>
    let (l, isNew) := l.request code
    let (l, more) := l.requestAll rest
    (l, if isNew then code :: more else more)

/-- A log in which the code counts as asked for. -/
def ofCodes (codes : List CodeId) : PatchLog := (empty.requestAll codes).1

/-- How many pieces of code were asked for. -/
def size (l : PatchLog) : Nat := l.codes.length

/-- Whether nothing was asked for. -/
def isEmpty (l : PatchLog) : Bool := l.codes.isEmpty

end PatchLog

end Reenact
