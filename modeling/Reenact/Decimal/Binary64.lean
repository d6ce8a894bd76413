/-!
# Double precision numbers

The 64 bits of a double precision number and what they say: a sign, and a value `mantissa · 2^scale`
or one of the values that are no number. All later work is done on these natural numbers.
-/

namespace Reenact.Decimal

/-- The bits of a double precision number. -/
structure Binary64 where
  /-- Sign, eleven bits of exponent, fifty-two bits of fraction. -/
  bits : UInt64
  deriving DecidableEq, Repr, Inhabited

namespace Binary64

/-- The size of a number, without its sign. -/
inductive Magnitude where
  /-- Not a number. -/
  | undefined
  /-- Larger than every number. -/
  | infinite
  /-- The value `mantissa · 2^scale`. The spacing below it is half the spacing above when
  `isEdge` holds: the mantissa is the least of its binade. -/
  | finite (mantissa : Nat) (scale : Int) (isEdge : Bool)
  deriving DecidableEq, Repr

/-- Whether the sign bit is set. -/
def isNegative (x : Binary64) : Bool :=
  x.bits.toNat / Nat.pow 2 63 == 1

def exponentField (x : Binary64) : Nat :=
  x.bits.toNat / Nat.pow 2 52 % Nat.pow 2 11

def fractionField (x : Binary64) : Nat :=
  x.bits.toNat % Nat.pow 2 52

/-- The number without its sign. -/
def magnitude (x : Binary64) : Magnitude :=
  if x.exponentField = 2047 then
    if x.fractionField = 0 then .infinite else .undefined
  else if x.exponentField = 0 then .finite x.fractionField (-1074) false
  else
    .finite (Nat.pow 2 52 + x.fractionField) ((x.exponentField : Int) - 1075)
      (x.fractionField == 0 && decide (1 < x.exponentField))

end Binary64

end Reenact.Decimal
