/-!
# Identifiers and moments

What a recording hands out. Objects, calls and effects are numbered from zero in the order in which
they are recorded; functions and classes in the order in which a project declares them. A `Moment`
is a position on the clock of one recording and only serves to compare.

Positions and the clock are natural numbers without a bound. The program that is modelled keeps a
position in 32 bits, cut off from the length of a list, and its clock in 64 bits, so what is proved
here holds of it as long as a recording has fewer than `2^32` objects, calls and effects each, and
fewer than `2^64` moments.
-/

namespace Reenact

/-- An object of a recording. -/
structure ObjectId where
  /-- Position among the objects. -/
  index : Nat
  deriving DecidableEq, Repr, Inhabited

/-- A call of a recording. -/
structure CallId where
  /-- Position among the calls. -/
  index : Nat
  deriving DecidableEq, Repr, Inhabited

/-- A side effect of a recording. -/
structure EffectId where
  /-- Position among the side effects. -/
  index : Nat
  deriving DecidableEq, Repr, Inhabited

/-- A function of a project. -/
structure FunctionId where
  /-- Position among the functions. -/
  index : Nat
  deriving DecidableEq, Repr, Inhabited

/-- A class of a project. -/
structure ClassId where
  /-- Position among the classes. -/
  index : Nat
  deriving DecidableEq, Repr, Inhabited

/-- A method: the class that declares it and its position among the methods of the class. -/
structure MethodId where
  /-- The declaring class. -/
  owner : ClassId
  /-- Position among the methods of the class. -/
  index : Nat
  deriving DecidableEq, Repr, Inhabited

/-- A recording among all recordings, as a number of 128 bits. -/
structure RunId where
  number : Nat
  deriving DecidableEq, Repr, Inhabited

/-- A unit of code of the observed program: the body of a function, method, class or module. -/
structure CodeId where
  /-- The number that the host gives it. -/
  number : Nat
  deriving DecidableEq, Repr, Inhabited

/-- A position on the clock of a recording. -/
structure Moment where
  /-- Ticks since the start. -/
  tick : Nat
  deriving DecidableEq, Repr, Inhabited

namespace Moment

/-- Before everything that is recorded. -/
def origin : Moment := ⟨0⟩

/-- Strictly earlier. -/
def before (a b : Moment) : Bool :=
  decide (a.tick < b.tick)

/-- Strictly later. -/
def after (a b : Moment) : Bool :=
  decide (b.tick < a.tick)

/-- The moment as text: the letter t and the ticks. -/
def text (m : Moment) : String :=
  s!"t{m.tick}"

end Moment

/-- The clock of a recording. -/
structure Clock where
  /-- The moment handed out last, or the origin. -/
  last : Moment
  deriving DecidableEq, Repr, Inhabited

namespace Clock

/-- A clock that has handed out nothing. -/
def start : Clock := ⟨.origin⟩

/-- The clock one tick later; its `last` is the moment handed out. -/
def advance (c : Clock) : Clock :=
  ⟨⟨c.last.tick + 1⟩⟩

@[simp] theorem last_advance (c : Clock) : c.advance.last.tick = c.last.tick + 1 := rfl

end Clock

end Reenact
