import Reenact.Proofs.Recording.Linking

/-!
# Recordings that share a project

Any number of recordings link one project, and their operations come in any order: one may be ended
or taken back while the others go on, and be recorded into again.

**The law** (`linksMirror_performAll`): when the recordings are told apart by their numbers, the
project mirrors each of them at all times. Taking one of them back removes its links and no others,
and leaves a recording that holds nothing, so whatever it captures afterwards is linked once as
well.
-/

namespace Reenact

/-- Recordings that link one project. -/
structure Shared where
  project : Project
  recordings : List Recording

namespace Shared

/-- Recordings that hold nothing yet, with these numbers. -/
def start (project : Project) (runs : List RunId) : Shared := ⟨project, runs.map .empty⟩

/-- An operation of one of the recordings. Nothing happens where there is no such recording. -/
def perform (w : Shared) (step : Nat × Operation) : Shared :=
  match w.recordings[step.1]? with
  | none => w
  | some r =>
    let t := (⟨w.project, r⟩ : Session).perform step.2
    ⟨t.project, w.recordings.set step.1 t.recording⟩

/-- Operations of any of the recordings, in order. -/
def performAll (w : Shared) (steps : List (Nat × Operation)) : Shared := steps.foldl perform w

variable {w : Shared} {i : Nat} {r : Recording} {op : Operation}

theorem perform_of_getElem? (there : w.recordings[i]? = some r) :
    w.perform (i, op) = ⟨((⟨w.project, r⟩ : Session).perform op).project,
      w.recordings.set i ((⟨w.project, r⟩ : Session).perform op).recording⟩ := by
  unfold perform
  rw [there]

/-! ## One operation -/

/-- The recordings are told apart by their numbers, and each of them is mirrored. -/
structure AreMirrored (w : Shared) (runs : List RunId) : Prop where
  ids : w.recordings.map Recording.id = runs
  distinct : runs.Nodup
  mirrors : ∀ r ∈ w.recordings, w.project.Mirrors r

theorem areMirrored_start {project : Project} {runs : List RunId} (distinct : runs.Nodup)
    (unlinked : ∀ run ∈ runs, ∀ place, project.targets run place = []) :
    (start project runs).AreMirrored runs where
  ids := by
    rw [start, List.map_map]
    exact List.map_id runs
  distinct := distinct
  mirrors r mem := by
    obtain ⟨run, listed, rfl⟩ := List.mem_map.1 mem
    exact Session.mirrors_empty (unlinked run listed)

/-- Recordings with different places in the list have different numbers. -/
theorem AreMirrored.id_ne {runs : List RunId} (h : w.AreMirrored runs) {j : Nat} {q : Recording}
    (here : w.recordings[i]? = some r) (there : w.recordings[j]? = some q) (differ : i ≠ j) :
    q.id ≠ r.id := by
  have once : (w.recordings.map Recording.id).Nodup := h.ids ▸ h.distinct
  intro same
  have lt : i < (w.recordings.map Recording.id).length := by
    rw [List.length_map]
    exact (List.getElem?_eq_some_iff.1 here).1
  refine differ ((List.getElem?_inj lt once).1 ?_)
  rw [List.getElem?_map, List.getElem?_map, here, there, Option.map_some, Option.map_some, same]

/-- An operation on what the project defines keeps every recording mirrored. -/
theorem AreMirrored.perform {runs : List RunId} (h : w.AreMirrored runs) (i : Nat)
    (defined : op.IsDefinedIn w.project) : (w.perform (i, op)).AreMirrored runs := by
  cases here : w.recordings[i]? with
  | none =>
    have stays : w.perform (i, op) = w := by
      unfold Shared.perform
      rw [here]
    rw [stays]
    exact h
  | some r =>
    have accounts := Session.perform_accounts (s := ⟨w.project, r⟩) defined
    rw [perform_of_getElem? here]
    refine ⟨?_, h.distinct, fun q mem => ?_⟩
    · obtain ⟨lt, eq⟩ := List.getElem?_eq_some_iff.1 here
      have lt : i < (w.recordings.map Recording.id).length := by rwa [List.length_map]
      have id : r.id = (w.recordings.map Recording.id)[i] := by rw [List.getElem_map, eq]
      rw [List.map_set, accounts.run, ← h.ids]
      show (w.recordings.map Recording.id).set i r.id = _
      rw [id, List.set_getElem_self]
    · obtain ⟨j, there⟩ := List.mem_iff_getElem?.1 mem
      rw [List.getElem?_set] at there
      split at there
      · split at there
        · cases there
          exact accounts.mirrors (h.mirrors r (List.mem_of_getElem? here))
        · cases there
      · rename_i differ
        exact (h.mirrors q (List.mem_of_getElem? there)).of_forget accounts.others
          (h.id_ne here there differ)

theorem unlinked_perform (i : Nat) (defined : op.IsDefinedIn w.project) :
    (w.perform (i, op)).project.unlinked = w.project.unlinked := by
  unfold perform
  split
  · rfl
  · exact (Session.perform_accounts defined).unlinked

/-! ## Any number of them -/

/-- What holds of recordings that share a project, whatever was done to them. -/
structure LinksMirror (w : Shared) (runs : List RunId) : Prop where
  ids : w.recordings.map Recording.id = runs
  mirrors : ∀ r ∈ w.recordings, w.project.Mirrors r
  /-- Taking a recording back leaves the links of all others, in their order. -/
  erase_links : ∀ {i r}, w.recordings[i]? = some r → ∀ place,
    (w.perform (i, .erase)).project.linksAt place =
      (w.project.linksAt place).filter (·.run != r.id)
  /-- It holds nothing then, and the other recordings are as they were. -/
  erase_recordings : ∀ {i r}, w.recordings[i]? = some r →
    (w.perform (i, .erase)).recordings = w.recordings.set i (.empty r.id) ∧
      (Recording.empty r.id).lastMoment = .origin

theorem AreMirrored.linksMirror {runs : List RunId} (h : w.AreMirrored runs) :
    w.LinksMirror runs where
  ids := h.ids
  mirrors := h.mirrors
  erase_links there place := by
    rw [perform_of_getElem? there]
    exact Project.linksAt_forget ..
  erase_recordings there := by
    rw [perform_of_getElem? there]
    exact ⟨rfl, rfl⟩

namespace Paired

/-- A function that makes a list of boxes. -/
def project : Project where
  root := "/p"
  functions := #[⟨"f", "m", ["x"], false, []⟩]
  classes := #[⟨"Box", "m", [], [], []⟩]

def box : Value := .object ⟨.observed 1, "Box", "m", []⟩

/-- Two recordings capture a call each, and one of them is taken back. -/
def steps : List (Nat × Operation) := [
  (0, .callFunction ⟨0⟩ [("x", box)] none),
  (1, .callFunction ⟨0⟩ [("x", box)] none),
  (0, .erase),
  (1, .finish fun _ => true)]

theorem defined : ∀ step ∈ steps, step.2.IsDefinedIn project := by
  simp only [steps, List.forall_mem_cons]
  exact ⟨⟨_, rfl⟩, ⟨_, rfl⟩, trivial, trivial, fun _ mem => (List.not_mem_nil mem).elim⟩

end Paired

/-- The project mirrors every one of the recordings that share it, whatever operations on what it
defines they have seen, in whatever order. -/
theorem linksMirror_performAll {project : Project} {runs : List RunId} (distinct : runs.Nodup)
    (unlinked : ∀ run ∈ runs, ∀ place, project.targets run place = [])
    {steps : List (Nat × Operation)} (defined : ∀ step ∈ steps, step.2.IsDefinedIn project) :
    ((start project runs).performAll steps).LinksMirror runs := by
  have all : ∀ (steps : List (Nat × Operation)) (w : Shared), w.AreMirrored runs →
      w.project.unlinked = project.unlinked → (∀ step ∈ steps, step.2.IsDefinedIn project) →
      (w.performAll steps).AreMirrored runs := by
    intro steps
    induction steps with
    | nil => exact fun w mirrored _ _ => mirrored
    | cons step rest ih =>
      intro w mirrored same defined
      obtain ⟨first, others⟩ := List.forall_mem_cons.1 defined
      have first := first.congr same.symm
      exact ih _ (mirrored.perform step.1 first) ((unlinked_perform step.1 first).trans same) others
  exact (all steps _ (areMirrored_start distinct unlinked) rfl defined).linksMirror

theorem linksMirror_performAll_paired :
    [(⟨0⟩ : RunId), ⟨1⟩].Nodup ∧
      (∀ run ∈ [(⟨0⟩ : RunId), ⟨1⟩], ∀ place, Paired.project.targets run place = []) ∧
      (∀ step ∈ Paired.steps, step.2.IsDefinedIn Paired.project) ∧
      ((start Paired.project [⟨0⟩, ⟨1⟩]).performAll Paired.steps).LinksMirror [⟨0⟩, ⟨1⟩] := by
  have distinct : [(⟨0⟩ : RunId), ⟨1⟩].Nodup := by decide
  have unlinked (run : RunId) (_ : run ∈ [(⟨0⟩ : RunId), ⟨1⟩]) (place : Place) :
      Paired.project.targets run place = [] := by
    have bare : Paired.project = Paired.project.unlinked := by decide +kernel
    rw [Project.targets, bare, Project.linksAt_unlinked]
    rfl
  exact ⟨distinct, unlinked, Paired.defined,
    linksMirror_performAll distinct unlinked Paired.defined⟩

/-- Of the four links, those of the second recording are left. -/
example : let w := (start Paired.project [⟨0⟩, ⟨1⟩]).performAll Paired.steps
    w.project.linksAt (.function ⟨0⟩) = [⟨⟨1⟩, .call ⟨0⟩⟩] ∧
      w.project.linksAt (.class ⟨0⟩) = [⟨⟨1⟩, .userObject ⟨0⟩⟩] := by
  decide +kernel

end Shared

end Reenact
