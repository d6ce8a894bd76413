import Reenact.Code.Import
import Reenact.Value.Basic
import Reenact.Text.Quoted
import Reenact.Decimal.Layout

/-!
# Code for values without identity

The text that writes a literal down, and the formats that put the parts of sequences and of known
library types together. A format has one `%s`, where the parts stand.
-/

namespace Reenact

namespace Literal

/-- The code that makes the literal. -/
def code : Literal → String
  | .none => "None"
  | .bool true => "True"
  | .bool false => "False"
  | .int value => toString value
  | .float value => Decimal.codeLayout.text value
  | .text value => Text.quoted value
  | .pattern source [] => "re.compile(" ++ Text.quoted source ++ ")"
  | .pattern source flags =>
    "re.compile(" ++ Text.quoted source ++ ", " ++
      String.intercalate " | " (flags.map ("re." ++ ·)) ++ ")"
  | .function name _ => name

/-- The imports that the code needs. -/
def imports : Literal → ImportSet
  | .pattern .. => .single (.module "re")
  | .function name module => .single (.member module name)
  | _ => .empty

end Literal

namespace Shape

/-- The format of a sequence of `size` parts. A tuple of one part needs a comma behind it. -/
def format (shape : Shape) (size : Nat) : String :=
  match shape with
  | .list => "[%s]"
  | .tuple => if size = 1 then "(%s,)" else "(%s)"
  | .set => "set([%s])"
  | .frozenSet => "frozenset([%s])"
  | .array code => "array.array('" ++ code.toString ++ "', [%s])"

/-- The import that the format needs. -/
def import? : Shape → Option Import
  | .array _ => some (.module "array")
  | _ => none

end Shape

/-- A library type whose instances are made again from some of their attributes. -/
structure LibraryType where
  /-- The module that defines the type. -/
  module : String
  /-- The name of the type. -/
  name : String
  /-- The format of the constructor call. -/
  format : String
  /-- The attributes that the constructor takes, in order. -/
  arguments : List String
  /-- Whether the format reaches the type through its module. -/
  throughModule : Bool
  deriving DecidableEq, Repr

namespace LibraryType

/-- The import that the format needs. -/
def neededImport (t : LibraryType) : Import :=
  if t.throughModule then .module t.module else .member t.module t.name

/-- The known library types. -/
def known : List LibraryType := [
  { module := "xml.dom.minidom"
    name := "Element"
    format := "Element(%s)"
    arguments := ["tagName", "namespaceURI", "prefix"]
    throughModule := false },
  { module := "datetime"
    name := "datetime"
    format := "datetime.datetime(%s)"
    arguments := ["year", "month", "day", "hour", "minute", "second", "microsecond", "tzinfo"]
    throughModule := true }]

/-- The known library type of that name in that module. -/
def find? (module name : String) : Option LibraryType :=
  known.find? fun t => t.module == module && t.name == name

end LibraryType

end Reenact
