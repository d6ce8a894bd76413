import Reenact.Proofs.Recording.Wholeness
import Reenact.Proofs.Trace.Exhaustion

/-!
# What the end of a watch leaves of the graph of calls

The last resumption of a generator may have called other functions before it returned the null
value. The end of the recording takes the resumption out of both views of the captured calls, and
with it, in the graph only, all calls inside it.

**The law** (`prunes_finish`): of every stream of events, and whatever counts as exhausted, the walk
from the roots meets each call at most once, and those are the captured calls that are not inside a
dropped one. So the two views agree exactly when the calls inside dropped calls are dropped too. One
that is left behind is in `not_isWhole`.
-/

namespace Reenact

namespace Watch

/-! ## The law -/

/-- Until it is ended, the recording of a stream is whole. -/
theorem isWhole_recording (w : Watch) (events : List Event) : (w.recording events).IsWhole := by
  have files : (w.recording events).Files := (w.inOrder_session events).files
  obtain ⟨met, walk, once⟩ := files.filesCaptured.exists_walk_roots
  refine ⟨met, walk, once, fun id => ?_⟩
  rw [← Recording.without_nil (w.recording events)] at walk
  exact (files.mem_walk_without_iff [] walk id).trans (and_iff_left nofun)

/-- The end of a recording takes the last resumption of each exhausted generator that returned the
null value out of both views, and the calls inside it out of the graph. -/
theorem prunes_finish (w : Watch) (events : List Event) (isExhausted : Value → Bool) :
    (w.recording events).Prunes ((w.recording events).finish isExhausted)
      ((w.recording events).dropped isExhausted) := by
  have inOrder := w.inOrder_session events
  have eq : (w.recording events).finish isExhausted = _ := inOrder.finish_eq isExhausted
  rw [eq]
  refine inOrder.files.prunes _ fun id mem => ?_
  exact inOrder.files.mem_captured.1 (inOrder.listed_of_dropped mem).1

/-! ## A call left behind -/

namespace Orphan

/-- A project with a generator function and another function. -/
def project : Project where
  root := "/p"
  functions := #[⟨"count", "m", [], true, []⟩, ⟨"f", "m", [], false, []⟩]
  classes := #[]

/-- A watch of the project with nothing patched. -/
def watch : Watch := ⟨project, ⟨0⟩, .standard, .default, .empty, []⟩

def null : Value := .literal ⟨.observed 2, "NoneType", "builtins", []⟩ .none

/-- A generator that the function made. -/
def generator : Value := .generator ⟨.observed 1, "generator", "builtins", []⟩ ⟨"a"⟩

/-- The generator is resumed, calls the other function, and is at its end. -/
def events : List Event :=
  [.call ⟨⟨⟨10⟩, "count", "/p/m.py", true, false⟩, ⟨[], none, none⟩, some generator⟩,
    .call ⟨⟨⟨11⟩, "f", "/p/m.py", false, false⟩, ⟨[], none, none⟩, none⟩,
    .ret null none, .ret null none]

/-- What was recorded of it. -/
def recording : Recording := (watch.recording events).finish fun _ => true

theorem captured_recording : recording.captured = [⟨1⟩] := by decide +kernel

theorem roots_recording : recording.roots = [] := by decide +kernel

end Orphan

/-- The two views do not always agree: a call that the last resumption of a generator made is still
captured, and is met on no walk. -/
theorem not_isWhole : ¬∀ (w : Watch) (events : List Event) (isExhausted : Value → Bool),
    ((w.recording events).finish isExhausted).IsWhole := by
  intro always
  obtain ⟨met, walk, -, same⟩ := always Orphan.watch Orphan.events fun _ => true
  have captured : (⟨1⟩ : CallId) ∈ Orphan.recording.captured := by
    rw [Orphan.captured_recording]
    exact List.mem_singleton.2 rfl
  have listed := (same ⟨1⟩).2 captured
  have nothing : Orphan.recording.Walk [] met := Orphan.roots_recording ▸ walk
  cases nothing
  cases listed

end Watch

end Reenact
