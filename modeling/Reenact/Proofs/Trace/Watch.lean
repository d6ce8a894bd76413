import Reenact.Proofs.Recording.Ending
import Reenact.Proofs.Trace.Nesting
import Reenact.Trace.Run

/-!
# Watching a program

A `Watch` is all that a run of a program is watched with: the project, the registered mutations, the
settings, and what the host has patched or passes over. `Watch.after` feeds it a stream of events,
of which nothing is required: calls may have no returns, and returns no calls.

**The law** (`nests_after`): after every stream, the calls that have not ended are those on the
stack of the recorder, and the recording is sound. A capture is a watch whose recording has been
ended (`recording_of_run`).
-/

namespace Reenact

/-! ## One event -/

/-- Whatever the tracer makes of an event, the recorder takes at most one step. -/
theorem Tracer.step_observer {t : Tracer Recorder} (h : t.observer.Nests) (e : Event) :
    t.observer.Step (t.step e).1.observer := by
  have stays : t.observer.Step t.observer := .noted (.refl _)
  have known (id : CallId) (rest : List Running) (top : t.observer.stack = .call id :: rest) :
      t.observer.session.recording.HasCall id := h.hasCall_top top
  cases e with
  | call frame =>
    simp only [Tracer.step, Tracer.onCall]
    split
    · exact stays
    · have told : t.observer.Step (t.report frame).1.observer := by
        unfold Tracer.report
        dsimp only
        split
        · exact (Recorder.methodCalled_answers h.sound ..).step
        · exact (Recorder.functionCalled_answers h.sound ..).step
      split <;> exact told
  | ret value handled =>
    simp only [Tracer.step, Tracer.onReturn]
    split
    · exact stays
    · split
      · exact Recorder.returned_step h.sound known value handled
      · exact stays
  | raise raised traceback =>
    simp only [Tracer.step, Tracer.onRaise]
    split
    · exact stays
    · split
      · exact stays
      · split
        · exact stays
        · split
          · exact stays
          · exact Recorder.raised_step h.sound known _ traceback
  | foreignCall call => exact Recorder.foreignCalled_step h.sound call
  | foreignReturn value =>
    simp only [Tracer.step]
    split
    · exact stays
    · exact Recorder.foreignReturned_step value
  | globalRead module name value => exact Recorder.globalRead_step h.sound module name value
  | globalRebind module name value => exact Recorder.globalRebind_step h.sound module name value
  | attributeRebind target name value =>
    exact Recorder.attributeRebind_step h.sound target name value
  | moduleLoaded module codes => exact stays

theorem Tracer.nests_step {t : Tracer Recorder} (h : t.observer.Nests) (e : Event) :
    (t.step e).1.observer.Nests :=
  h.step (Tracer.step_observer h e)

/-! ## Streams of events -/

@[simp] theorem Tracer.run_nil (t : Tracer Recorder) : t.run [] = t := rfl

@[simp] theorem Tracer.run_cons (t : Tracer Recorder) (e : Event) (rest : List Event) :
    t.run (e :: rest) = (t.step e).1.run rest := rfl

theorem Tracer.run_append (t : Tracer Recorder) (first second : List Event) :
    t.run (first ++ second) = (t.run first).run second :=
  List.foldl_append

/-- Every stream of events keeps calls nested. -/
theorem Tracer.nests_run {t : Tracer Recorder} (h : t.observer.Nests) (events : List Event) :
    (t.run events).observer.Nests := by
  induction events generalizing t with
  | nil => exact h
  | cons e rest ih => exact ih (Tracer.nests_step h e)

/-- Every stream of events keeps what each observation keeps. -/
theorem Tracer.run_keeps {P : Recording → Prop}
    (step : ∀ {r r' : Recorder}, r.Step r' → P r.session.recording → P r'.session.recording)
    {t : Tracer Recorder} (nests : t.observer.Nests) (h : P t.observer.session.recording)
    (events : List Event) : P (t.run events).observer.session.recording := by
  induction events generalizing t with
  | nil => exact h
  | cons e rest ih => exact ih (Tracer.nests_step nests e) (step (Tracer.step_observer nests e) h)

/-- A stream of events keeps what was recorded before it. -/
theorem Tracer.grows_run {t : Tracer Recorder} (h : t.observer.Nests) (events : List Event) :
    t.observer.session.recording.Grows (t.run events).observer.session.recording := by
  induction events generalizing t with
  | nil => exact .refl _
  | cons e rest ih => exact (h.grows (step_observer h e)).trans (ih (nests_step h e))

/-- What a program is watched with. -/
structure Watch where
  project : Project
  /-- The number of the recording. -/
  run : RunId
  mutations : MutationTable
  settings : Settings
  /-- The code that is patched already. -/
  patches : PatchLog
  /-- The code that is passed over. -/
  ignored : List CodeId

namespace Watch

/-- The tracer that has seen nothing. -/
def start (w : Watch) : Tracer Recorder :=
  { Tracer.start (Recorder.start (.start w.project w.run) w.mutations w.settings) w.settings with
    patches := w.patches
    ignored := w.ignored }

/-- The tracer after a stream of events. -/
def after (w : Watch) (events : List Event) : Tracer Recorder := w.start.run events

/-- What was recorded of a stream of events. -/
def recording (w : Watch) (events : List Event) : Recording :=
  (w.after events).observer.session.recording

/-- After every stream of events the recording is sound, and the calls that have not ended are those
on the stack. -/
theorem nests_after (w : Watch) (events : List Event) : (w.after events).observer.Nests :=
  Tracer.nests_run (Recorder.nests_start ..) events

theorem sound_recording (w : Watch) (events : List Event) : (w.recording events).Sound :=
  (w.nests_after events).sound

/-- What was recorded of a stream, or the recording that ending it leaves. -/
def Records (w : Watch) (events : List Event) (r : Recording) : Prop :=
  ∃ isExhausted, r = w.recording events ∨ r = (w.recording events).finish isExhausted

theorem Records.sound {w : Watch} {events : List Event} {r : Recording} (h : w.Records events r) :
    r.Sound := by
  obtain ⟨isExhausted, rfl | rfl⟩ := h
  · exact w.sound_recording events
  · exact (w.sound_recording events).finish isExhausted

/-- What was recorded of a stream is still there when more of it has been seen. -/
theorem grows_take (w : Watch) (events : List Event) (k l : Nat) (le : k ≤ l) :
    (w.recording (events.take k)).Grows (w.recording (events.take l)) := by
  have split := List.take_append_drop k (events.take l)
  rw [List.take_take, Nat.min_eq_left le] at split
  rw [← split, recording, recording, after, after, Tracer.run_append]
  exact Tracer.grows_run (w.nests_after _) _

end Watch

/-! ## Captures -/

/-- The watch of a capture. -/
def Capture.watch (c : Capture) (project : Project) (host : Host) (id : RunId) : Watch where
  project := project
  run := id
  mutations := c.mutations
  settings := c.settings
  patches := .ofCodes host.patched
  ignored := host.driver.toList

/-- A host feeds its tracer the events in order. -/
theorem Host.tracer_run (h : Host) (t : Tracer Recorder) : (h.run t).2 = t.run h.events := by
  have general (events : List Event) : ∀ (h : Host) (t : Tracer Recorder),
      (events.foldl Host.replay (h, t)).2 = t.run events := by
    induction events with
    | nil => exact fun _ _ => rfl
    | cons e rest ih => exact fun h t => ih _ _
  exact general h.events h t

/-- What a capture reports is the recording of its watch, at its end. -/
theorem Capture.recording_of_run {c : Capture} {project : Project} {host : Host} {id : RunId}
    {result : Project × Host × Report} (h : c.run project host id = .ok result) :
    result.2.2.recording =
      ((c.watch project host id).recording host.events).finish c.isExhausted := by
  unfold Capture.run at h
  obtain ⟨installed, ready, h⟩ := bind_eq_ok.1 h
  rw [← pure_eq_ok.1 h]
  show (installed.run (c.tracerFor project installed id)).2.observer.session.recording.finish
    c.isExhausted = _
  rw [Host.tracer_run]
  unfold Host.install at ready
  split at ready <;> cases ready
  rfl

end Reenact
