import Reenact.Id
import Reenact.Text.Digit

/-!
# Numbers of recordings as text

The number of a recording is written in 32 hexadecimal digits with hyphens between groups of 8, 4,
4, 4 and 12. It may also be read without hyphens, between braces, or behind `urn:uuid:`; capitals
count as small letters everywhere.
-/

namespace Reenact.RunId

/-- The sizes of the groups. -/
def groups : List Nat := [8, 4, 4, 4, 12]

/-- The digits of groups with hyphens between them. -/
def ungroup : List Nat → List Char → Option (List Char)
  | [], [] => some []
  | [], _ :: _ => none
  | [size], cs => if cs.length = size then some cs else none
  | size :: rest, cs =>
    match cs.drop size with
    | '-' :: others => (ungroup rest others).map (cs.take size ++ ·)
    | _ => none

/-- What stands between braces or behind the name of the scheme. -/
def unwrap (cs : List Char) : List Char :=
  if cs.length = 38 && cs.head? = some '\x7b' && cs.getLast? = some '\x7d' then
    (cs.drop 1).dropLast
  else if cs.length = 45 && (cs.take 9).map Char.toLower == "urn:uuid:".toList then cs.drop 9
  else cs

/-- The number that a text stands for. -/
def ofText? (s : String) : Option RunId :=
  let cs := s.toList
  if cs.length = 32 then (Text.number? 16 cs).map RunId.mk
  else do
    let digits ← ungroup groups (unwrap cs)
    return ⟨← Text.number? 16 digits⟩

/-- Puts hyphens between groups. -/
def group : List Nat → List Char → List Char
  | [], _ => []
  | [_], cs => cs
  | size :: rest, cs => cs.take size ++ '-' :: group rest (cs.drop size)

def text (id : RunId) : String :=
  let digits := Nat.toDigits 16 id.number
  String.ofList (group groups (List.replicate (32 - digits.length) '0' ++ digits))

end Reenact.RunId
