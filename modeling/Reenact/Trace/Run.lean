import Reenact.Recording.Finish
import Reenact.Trace.Recorder
import Reenact.Trace.Host

/-!
# Capturing points of entry

One run of a point of entry under a tracer gives a finished recording, also when the point of entry
fails. A point of entry keeps the recording of its latest run. Running it again first takes
everything back that the earlier run captured, so a project never has links from two runs of one
point of entry.
-/

namespace Reenact

/-- The result of one run. -/
structure Report where
  /-- What was captured. -/
  recording : Recording
  /-- How the point of entry failed, if it did. -/
  failure : Option Failure

/-- What stays the same from run to run. -/
structure Capture where
  settings : Settings
  mutations : MutationTable
  /-- Whether a generator is exhausted. -/
  isExhausted : Value → Bool

namespace Capture

/-- The tracer of a run. Code that the host has patched already is not asked for again, and the
code that drives the sample program is passed over. -/
def tracerFor (c : Capture) (project : Project) (host : Host) (id : RunId) :
    Tracer Recorder :=
  { Tracer.start (Recorder.start (.start project id) c.mutations c.settings) c.settings with
    patches := .ofCodes host.patched
    ignored := host.driver.toList }

/-- Runs the events of a host and captures them for a project. Modules that were loaded on the
way are forgotten. Refused, without any change, when the host is traced already. -/
def run (c : Capture) (project : Project) (host : Host) (id : RunId) :
    Except Fault (Project × Host × Report) := do
  let installed ← host.install
  let (after, tracer) := installed.run (c.tracerFor project installed id)
  let session := tracer.observer.session.finish c.isExhausted
  return (session.project, (after.unloadExcept host.modules).uninstall,
    ⟨session.recording, host.failure⟩)

end Capture

/-- A point of entry with the result of its latest run. -/
structure EntryPointRuns where
  entry : EntryPoint
  /-- The result of the latest run. -/
  lastRun : Option Report

namespace EntryPointRuns

/-- A point of entry that was never run. -/
def start (entry : EntryPoint) : EntryPointRuns := ⟨entry, none⟩

/-- Takes back what the latest run captured. -/
def clear (e : EntryPointRuns) (project : Project) : EntryPointRuns × Project :=
  match e.lastRun with
  | none => (e, project)
  | some report => ({ e with lastRun := none }, project.forget report.recording.id)

/-- Takes back what the latest run captured and runs the point of entry again. -/
def inspect (e : EntryPointRuns) (c : Capture) (project : Project) (host : Host)
    (id : RunId) : EntryPointRuns × Project × Host × Except Fault Report :=
  let (e, project) := e.clear project
  match c.run project host id with
  | .error fault => (e, project, host, .error fault)
  | .ok (project, host, report) =>
    ({ e with lastRun := some report }, project, host, .ok report)

end EntryPointRuns

end Reenact
