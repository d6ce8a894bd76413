import Reenact.Decimal.Shortest

/-!
# Writing decimals

How the digits of a number are laid out: with a point among them, or as one digit, a point, the
other digits and an exponent. A `Layout` holds the choices of one output format.
-/

namespace Reenact.Decimal

/-- The choices of one output format. -/
structure Layout where
  /-- The exponents of the first digit that are written with a point and no exponent; every
  exponent when there is none given. -/
  positional : Option (Int × Int)
  /-- Whether a whole number gets `.0`. -/
  keepsFraction : Bool
  /-- The text of what is no number. -/
  undefined : String
  /-- The text of infinity. -/
  infinite : String
  /-- The text of negative infinity. -/
  negativeInfinite : String

namespace Layout

/-- The digits of the decimal. -/
def digitText (d : Numeral) : List Char :=
  Nat.toDigits 10 d.digits

/-- The exponent of the first digit. -/
def leadingExponent (d : Numeral) : Int :=
  d.power + (digitText d).length - 1

/-- The digits with a point among them, or with zeros up to where it stands. -/
def positionalText (layout : Layout) (d : Numeral) : List Char :=
  let text := digitText d
  match d.power with
  | .ofNat n => text ++ List.replicate n '0' ++ (if layout.keepsFraction then ['.', '0'] else [])
  | .negSucc n =>
    let places := n + 1
    if places < text.length then
      text.take (text.length - places) ++ '.' :: text.drop (text.length - places)
    else '0' :: '.' :: (List.replicate (places - text.length) '0' ++ text)

/-- One digit, a point and the other digits if there are any, and the exponent. -/
def scientificText (d : Numeral) : List Char :=
  match digitText d with
  | [] => []
  | first :: rest =>
    first :: ((if rest.isEmpty then [] else '.' :: rest) ++
      'e' :: (toString (leadingExponent d)).toList)

/-- The decimal in this format. -/
def decimalText (layout : Layout) (d : Numeral) : List Char :=
  match layout.positional with
  | none => layout.positionalText d
  | some (least, greatest) =>
    if d.digits = 0 ∨ (least ≤ leadingExponent d ∧ leadingExponent d ≤ greatest) then
      layout.positionalText d
    else scientificText d

/-- The number in this format, in its shortest digits. -/
def text (layout : Layout) (x : Binary64) : String :=
  match x.magnitude with
  | .undefined => layout.undefined
  | .infinite => if x.isNegative then layout.negativeInfinite else layout.infinite
  | .finite mantissa scale isEdge =>
    String.ofList ((if x.isNegative then ['-'] else []) ++
      layout.decimalText (shortestDecimal mantissa scale isEdge))

end Layout

/-- Numbers in code: a point is always written, the exponent outside of `10^-4` to below `10^16`,
and what has no literal is made from its name. -/
def codeLayout : Layout where
  positional := some (-4, 15)
  keepsFraction := true
  undefined := "float('nan')"
  infinite := "float('inf')"
  negativeInfinite := "float('-inf')"

/-- Numbers in words: never an exponent, and no point in a whole number. -/
def plainLayout : Layout where
  positional := none
  keepsFraction := false
  undefined := "NaN"
  infinite := "inf"
  negativeInfinite := "-inf"

end Reenact.Decimal
