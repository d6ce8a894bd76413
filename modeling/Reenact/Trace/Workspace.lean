import Reenact.Trace.Run

/-!
# Hosts and points of entry of one project

A workspace holds a project, the hosts that can run it and its points of entry. Each run captured in
it gets the next identifier of a supply that comes from outside. Nothing here makes sure that the
supply never repeats: where the links of one run have to be told from those of all others, that is a
condition on it.
-/

namespace Reenact

/-- Hosts and points of entry that share a project. -/
structure Workspace where
  project : Project
  hosts : Array Host
  entries : Array EntryPointRuns
  /-- The supply of identifiers for runs. -/
  ids : Nat → RunId
  /-- How many runs were captured. -/
  captured : Nat

namespace Workspace

/-- A workspace in which nothing was captured. Unless a supply of identifiers is given, runs are
numbered in order. -/
def start (project : Project) (hosts : List Host) (entries : List EntryPoint)
    (ids : Nat → RunId := RunId.mk) : Workspace where
  project := project
  hosts := hosts.toArray
  entries := (entries.map EntryPointRuns.start).toArray
  ids := ids
  captured := 0

def modifyHost (w : Workspace) (host : Nat) (f : Host → Host) : Workspace :=
  { w with hosts := w.hosts.modify host f }

/-- Runs a point of entry on a host; nothing happens when the workspace lacks one of them. The
earlier run of the point of entry is taken back also when the host refuses the new one. -/
def inspect (w : Workspace) (c : Capture) (host entry : Nat) :
    Workspace × Option (Except Fault Report) :=
  match w.hosts[host]?, w.entries[entry]? with
  | some h, some e =>
    let (e, project, h, outcome) := e.inspect c w.project h (w.ids w.captured)
    let captured :=
      match outcome with
      | .ok _ => w.captured + 1
      | .error _ => w.captured
    ({ w with
       project := project
       hosts := w.hosts.setIfInBounds host h
       entries := w.entries.setIfInBounds entry e
       captured := captured }, some outcome)
  | _, _ => (w, none)

/-- Takes back what the latest run of a point of entry captured. -/
def clear (w : Workspace) (entry : Nat) : Workspace :=
  match w.entries[entry]? with
  | some e =>
    let (e, project) := e.clear w.project
    { w with project := project, entries := w.entries.setIfInBounds entry e }
  | none => w

end Workspace

end Reenact
