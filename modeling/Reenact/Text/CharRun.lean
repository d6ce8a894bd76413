/-!
# Runs of characters

Character properties are stored as runs: every `step`-th code point from `first` to `last`.
-/

namespace Reenact.Text

/-- Every `step`-th code point from `first` to `last`. -/
structure CharRun where
  /-- First code point of the run. -/
  first : Nat
  /-- Last code point of the run. -/
  last : Nat
  /-- Distance between neighbours. -/
  step : Nat
  deriving Repr, DecidableEq

namespace CharRun

/-- Whether the code point lies on the run. -/
def contains (run : CharRun) (code : Nat) : Bool :=
  decide (run.first ≤ code) && decide (code ≤ run.last) && (code - run.first) % run.step == 0

/-- Whether the character lies on one of the runs. -/
def covers (runs : List CharRun) (c : Char) : Bool :=
  runs.any fun run => run.contains c.toNat

end CharRun

end Reenact.Text
