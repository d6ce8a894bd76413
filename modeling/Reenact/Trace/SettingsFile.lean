import Reenact.Document.Fields
import Reenact.Toml.Printer
import Reenact.Toml.Reader
import Reenact.Trace.Settings

/-!
# Settings as documents and files

How settings are written in documents and in their file, and read back. A member that is missing
keeps its default, and members that are no settings do not count. A file is given by its bytes, or
is missing.
-/

namespace Reenact.Settings

/-- The members of the settings. -/
def toDocument (s : Settings) : Document :=
  .record [
    ("ignored_code_names", .ofList .text s.ignoredCode),
    ("ignored_exceptions", .ofList .text s.ignoredExceptions),
    ("record_opaque_side_effects", .bool s.recordsMutations),
    ("record_global_reads", .bool s.recordsGlobalReads)]

def ofDocument? (d : Document) : Option Settings := do
  let fs ← d.fields? 4
  let texts := Document.list? Document.text?
  return {
    ignoredCode := ← fs.defaulted 0 "ignored_code_names" texts default.ignoredCode
    ignoredExceptions := ← fs.defaulted 1 "ignored_exceptions" texts default.ignoredExceptions
    recordsMutations :=
      ← fs.defaulted 2 "record_opaque_side_effects" Document.bool? default.recordsMutations
    recordsGlobalReads :=
      ← fs.defaulted 3 "record_global_reads" Document.bool? default.recordsGlobalReads }

/-- The file that is written where there is none: the defaults, explained. -/
def defaultFile : String :=
  "# testscope capture configuration\n" ++
  "#\n" ++
  "# Frames running code with these names are neither captured nor descended into.\n" ++
  "ignored_code_names = [\"<module>\", \"<genexpr>\"]\n" ++
  "\n" ++
  "# Exceptions of these types are dropped before they reach a captured call.\n" ++
  "ignored_exceptions = [\"GeneratorExit\"]\n" ++
  "\n" ++
  "# Record list/dict/set mutations performed by third-party calls (default: true)\n" ++
  "record_opaque_side_effects = true\n" ++
  "\n" ++
  "# Record reads of module-level names (default: true)\n" ++
  "record_global_reads = true\n"

/-- The settings as a file. -/
def toFile (s : Settings) : String :=
  Toml.writeLine "ignored_code_names" (Toml.writeTexts s.ignoredCode) ++
  Toml.writeLine "ignored_exceptions" (Toml.writeTexts s.ignoredExceptions) ++
  Toml.writeLine "record_opaque_side_effects" (Toml.writeBool s.recordsMutations) ++
  Toml.writeLine "record_global_reads" (Toml.writeBool s.recordsGlobalReads)

/-- The settings of a file with that text, which must be valid. -/
def ofText (content : String) : Except Fault Settings := do
  match (Toml.read? content).bind ofDocument? with
  | none => throw .unreadableSettings
  | some s =>
    s.validate
    return s

/-- The settings of a file with those bytes. -/
def ofFile (file : Option ByteArray) : Except Fault Settings :=
  match file.bind String.fromUTF8? with
  | none => .error .inaccessibleFile
  | some content => ofText content

/-- The file, or the default one where it is missing. -/
def orDefaultFile (file : Option ByteArray) : ByteArray :=
  file.getD defaultFile.toUTF8

end Reenact.Settings
