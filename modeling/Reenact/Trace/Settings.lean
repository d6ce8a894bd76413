import Reenact.Fault
import Reenact.Text.Escaped

/-!
# Settings of a capture

Which frames and exceptions are passed over and which side effects are recorded. A name that is
empty or blank is invalid.
-/

namespace Reenact

/-- The settings of a capture. -/
structure Settings where
  /-- Names of code whose frames are passed over. -/
  ignoredCode : List String
  /-- Types of exceptions that are dropped. -/
  ignoredExceptions : List String
  /-- Whether mutations by foreign code are recorded. -/
  recordsMutations : Bool
  /-- Whether reads of module names are recorded. -/
  recordsGlobalReads : Bool
  deriving DecidableEq, Repr

namespace Settings

/-- The settings that hold where nothing else is said. -/
def default : Settings where
  ignoredCode := ["<module>", "<genexpr>"]
  ignoredExceptions := ["GeneratorExit"]
  recordsMutations := true
  recordsGlobalReads := true

/-- Whether frames of code of that name are passed over. -/
def ignoresCode (s : Settings) (name : String) : Bool := s.ignoredCode.contains name

/-- Whether exceptions of that type are dropped. -/
def ignoresException (s : Settings) (typeName : String) : Bool :=
  s.ignoredExceptions.contains typeName

/-- The first blank name. -/
def blankName? (s : Settings) : Option String :=
  (s.ignoredCode ++ s.ignoredExceptions).find? Text.isBlankText

/-- The name of the file that holds settings. -/
def fileName : String := "testscope.toml"

/-- Refuses settings with a blank name. -/
def validate (s : Settings) : Except Fault Unit :=
  match s.blankName? with
  | some name => .error (.invalidSettings ("empty name " ++ Text.shown name ++ " in " ++ fileName))
  | none => .ok ()

end Settings

end Reenact
