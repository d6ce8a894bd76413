import Reenact.Decimal.Binary64

/-!
# Shortest decimals

The fewest decimal digits that read back as the same double precision number, and of the decimals
with that many digits the nearest one. A decimal reads back when it lies between the midpoints to
the two neighbouring numbers, or on one of them where the mantissa is even. For one digit, two
digits and so on, the two neighbours of the number on the grid of decimals with that many digits
are tried: if any decimal of the grid lies in the interval, one of them does.
-/

namespace Reenact.Decimal

/-- The decimal `digits · 10^power`. -/
structure Numeral where
  /-- All significant digits as one natural number. -/
  digits : Nat
  /-- The power of ten of the last digit. -/
  power : Int
  deriving DecidableEq, Repr

/-- A fraction of natural numbers. -/
structure Ratio where
  num : Nat
  den : Nat
  deriving DecidableEq, Repr

namespace Ratio

/-- The ratio times `base^power`. -/
def scale (r : Ratio) (base : Nat) (power : Int) : Ratio :=
  match power with
  | .ofNat n => ⟨r.num * base.pow n, r.den⟩
  | .negSucc n => ⟨r.num, r.den * base.pow (n + 1)⟩

/-- Strictly below. -/
def below (a b : Ratio) : Bool :=
  decide (a.num * b.den < b.num * a.den)

/-- The greatest `power` with `10^power` no greater than the ratio, for a positive one that lies
between `10^-400` and `10^400`. -/
def decimalExponent (r : Ratio) : Int :=
  if r.num < r.den then
    match (List.range 400).find? fun n => decide (r.den ≤ r.num * Nat.pow 10 n) with
    | some n => -(n : Int)
    | none => -400
  else ((Nat.toDigits 10 (r.num / r.den)).length : Int) - 1

end Ratio

/-- The decimals that read back as one number. -/
structure Interval where
  low : Ratio
  value : Ratio
  high : Ratio
  /-- Whether the ends belong to the interval. -/
  closed : Bool

namespace Interval

/-- The interval of `mantissa · 2^scale`. In quarters of the spacing above the number, the upper
end is two above it and the lower end two below, or one below at the edge of a binade. -/
def around (mantissa : Nat) (scale : Int) (isEdge : Bool) : Interval :=
  let quarters (n : Nat) : Ratio := Ratio.scale ⟨n, 1⟩ 2 (scale - 2)
  { low := quarters (4 * mantissa - (if isEdge then 1 else 2))
    value := quarters (4 * mantissa)
    high := quarters (4 * mantissa + 2)
    closed := mantissa % 2 == 0 }

/-- Whether the decimal reads back as the number. -/
def admits (i : Interval) (d : Numeral) : Bool :=
  let r := Ratio.scale ⟨d.digits, 1⟩ 10 d.power
  if i.closed then !r.below i.low && !i.high.below r else i.low.below r && r.below i.high

/-- Of the two neighbours of the number among the multiples of `10^power`, the one that reads
back; of two, the nearer; of two equally near, the greater. -/
def onGrid (i : Interval) (power : Int) : Option Numeral :=
  let steps := i.value.scale 10 (-power)
  let floor := steps.num / steps.den
  let under : Numeral := ⟨floor, power⟩
  let above : Numeral := ⟨floor + 1, power⟩
  let rest := steps.num % steps.den
  if i.admits under && i.admits above then
    some (if 2 * rest < steps.den then under else above)
  else if i.admits under then some under
  else if i.admits above then some above
  else none

/-- The first decimal found on the grids of one, two, and up to seventeen digits. -/
def shortest (i : Interval) : Numeral :=
  let top := i.value.decimalExponent
  match (List.range 17).findSome? fun (n : Nat) => i.onGrid (top - (n : Int)) with
  | some d => d
  | none => ⟨0, 0⟩

end Interval

/-- The decimal without zeros at its end; `fuel` bounds their number. -/
def Numeral.trimmed : Nat → Numeral → Numeral
  | 0, d => d
  | fuel + 1, d =>
    if d.digits ≠ 0 ∧ d.digits % 10 = 0 then Numeral.trimmed fuel ⟨d.digits / 10, d.power + 1⟩
    else d

/-- The shortest decimal of `mantissa · 2^scale`, which is zero for a zero mantissa. -/
def shortestDecimal (mantissa : Nat) (scale : Int) (isEdge : Bool) : Numeral :=
  if mantissa = 0 then ⟨0, 0⟩
  else Numeral.trimmed 20 (Interval.around mantissa scale isEdge).shortest

end Reenact.Decimal
