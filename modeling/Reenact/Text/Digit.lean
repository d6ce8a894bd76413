/-!
# Digits

The value of digits to a base of up to 36; letters go on behind nine, in either case.
-/

namespace Reenact.Text

/-- The value of a digit of the base. -/
def digit? (base : Nat) (c : Char) : Option Nat :=
  let value :=
    if '0' ≤ c && c ≤ '9' then some (c.toNat - '0'.toNat)
    else if 'a' ≤ c && c ≤ 'z' then some (c.toNat - 'a'.toNat + 10)
    else if 'A' ≤ c && c ≤ 'Z' then some (c.toNat - 'A'.toNat + 10)
    else none
  value.filter fun n => decide (n < base)

/-- A digit is below its base. -/
theorem lt_of_digit? {base n : Nat} {c : Char} (h : digit? base c = some n) : n < base := by
  simp only [digit?] at h
  exact of_decide_eq_true (Option.filter_eq_some_iff.1 h).2

/-- The number that digits of the base write, the highest digit first. -/
def number? (base : Nat) (digits : List Char) : Option Nat :=
  digits.foldlM (fun n c => (digit? base c).map (base * n + ·)) 0

end Reenact.Text
