import Reenact.Trace.Observation

/-!
# Hosts

A host runs points of entry of the observed program and reports events. It can be traced by one
tracer at a time. This host replays a list of events: it patches the code that it is asked to
patch, and keeps track of the modules that are loaded on the way.
-/

namespace Reenact

/-- A sample program that runs the observed program. -/
structure EntryPoint where
  name : String
  /-- Its code. -/
  snippet : String
  /-- The directory it runs in. -/
  directory : String
  deriving DecidableEq, Repr

/-- The directories that the sample program imports from. -/
def EntryPoint.importPaths (e : EntryPoint) : List String := [e.directory]

/-- How a point of entry failed. -/
structure Failure where
  /-- The type of the exception, where it is known. -/
  typeName : Option String
  description : String
  deriving DecidableEq, Repr

def Failure.text (f : Failure) : String :=
  match f.typeName with
  | some typeName => typeName ++ ": " ++ f.description
  | none => f.description

/-- A host that replays events. -/
structure Host where
  /-- The events of every run. -/
  events : List Event
  /-- How every run fails at its end, if it does. -/
  failure : Option Failure
  /-- The code that drives the sample program. -/
  driver : Option CodeId
  /-- Whether a tracer is installed. -/
  isInstalled : Bool
  /-- The code patched so far, in order. -/
  patched : List CodeId
  /-- The modules loaded, in order. -/
  modules : List String
  /-- How many runs came to their end. -/
  runs : Nat

namespace Host

def install (r : Host) : Except Fault Host :=
  if r.isInstalled then .error .alreadyTracing else .ok { r with isInstalled := true }

def uninstall (r : Host) : Host := { r with isInstalled := false }

/-- Patches code so that it reports events. -/
def patch (r : Host) (codes : List CodeId) : Host :=
  { r with patched := r.patched ++ codes }

def unload (r : Host) (module : String) : Host :=
  { r with modules := r.modules.filter (· != module) }

/-- Forgets all modules but the given ones. -/
def unloadExcept (r : Host) (kept : List String) : Host :=
  { r with modules := r.modules.filter kept.contains }

/-- The modules loaded by an event. -/
def modulesOf : Event → List String
  | .moduleLoaded module _ => [module]
  | _ => []

/-- Replays one event to a tracer. -/
def replay {σ : Type} [Observer σ] (state : Host × Tracer σ) (event : Event) :
    Host × Tracer σ :=
  let (host, tracer) := state
  let (tracer, directive) := tracer.step event
  ({ host with
      modules := host.modules ++ modulesOf event
      patched := host.patched ++ directive.patch }, tracer)

/-- Replays all events to a tracer. -/
def run {σ : Type} [Observer σ] (r : Host) (tracer : Tracer σ) : Host × Tracer σ :=
  let (r, tracer) := r.events.foldl replay (r, tracer)
  ({ r with runs := r.runs + 1 }, tracer)

end Host

end Reenact
