import Reenact.Value.Basic
import Reenact.Text.Word
import Reenact.Decimal.Layout

/-!
# Short words for values

A short word that describes a value to a reader, such as the digits of a number, the characters of a
text that may stand in an identifier, or the name of the type.
-/

namespace Reenact

/-- The short word of a literal. -/
def Literal.word : Literal → String
  | .none => "None"
  | .bool true => "true"
  | .bool false => "false"
  | .int value => Text.token (toString value)
  | .float value => Text.token (Decimal.plainLayout.text value)
  | .text value => Text.token value
  | .pattern source _ => Text.token source ++ "_pattern"
  | .function name _ => name ++ "_function"

/-- The short word of a value. -/
def Value.word : Value → String
  | .literal _ value => value.word
  | .sequence _ shape _ => shape.typeName
  | .map .. => "dict"
  | .exception header _ _ => Text.snakeCase header.typeName
  | .generator .. => "generator"
  | .library header _ => Text.snakeCase header.typeName
  | .object header | .other header => Text.snakeCase header.typeName ++ "_instance"

end Reenact
