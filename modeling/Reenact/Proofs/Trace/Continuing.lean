import Reenact.Proofs.Recording.Continuing
import Reenact.Proofs.Trace.Watch

/-!
# Streams that go on

An observation changes no call but the innermost one on the stack, which has not ended. So a recording
goes on with every event, and what was recorded of a stream is a later state of what was recorded of
its beginning (`continues_append`).
-/

namespace Reenact

namespace Recorder

variable {r r' : Recorder}

theorem Nests.continues_setsOutcome (h : r.Nests) {id : CallId} {rest : List Running}
    (top : r.stack = .call id :: rest) {s : Session} (sets : r.session.SetsOutcome id s) :
    r.session.recording.Continues s.recording := by
  obtain ⟨noted, outcome, notes, -, rfl⟩ := sets
  refine notes.continues.trans (Recording.continues_withOutcome outcome fun c found => ?_)
  exact ((h.noted notes).innermost (by rw [currentCall, top]; rfl) found).1

theorem Nests.continues_endCall (h : r.Nests) {id : CallId} {rest : List Running}
    (top : r.stack = .call id :: rest) :
    r.session.recording.Continues (r.session.recording.endCall id) := by
  obtain ⟨c, found⟩ := h.hasCall_top top
  exact Recording.continues_endCall found (h.innermost (by rw [currentCall, top]; rfl) found).1

/-- A side effect belongs to the innermost call. -/
theorem Nests.continues_addEffect (h : r.Nests) (change : Change) :
    r.session.recording.Continues (r.session.addEffect change r.currentCall).1.recording :=
  Recording.continues_pushEffect change fun _ _ current found => (h.innermost current found).1

/-- Every observation goes on from what was recorded before. -/
theorem Nests.continues (h : r.Nests) (step : r.Step r') :
    r.session.recording.Continues r'.session.recording := by
  cases step with
  | noted notes => exact notes.continues
  | opened opens =>
    obtain ⟨-, before, kind, definition, input, notes, -, after⟩ := opens
    have pushed : before.recording.Continues
        (before.recording.pushCall kind definition input r.currentCall).1 :=
      Recording.continues_pushCall kind definition input fun _ _ current found =>
        ((h.noted notes).innermost current found).1
    exact (notes.continues.trans pushed).trans after.continues
  | failed traceback top sets => exact h.continues_setsOutcome top sets
  | closed top closes =>
    obtain ⟨before, rfl | sets, rfl⟩ := closes
    · exact h.continues_endCall top
    · exact (h.continues_setsOutcome top sets).trans
        ((h.setsOutcome top sets).continues_endCall top)
  | entered notes known => exact notes.continues
  | left top => exact .refl _
  | mutated top => exact (h.popForeign top).continues_addEffect _
  | affected notes known => exact notes.continues.trans ((h.noted notes).continues_addEffect _)

end Recorder

/-- Every stream of events goes on from what was recorded before it. -/
theorem Tracer.continues_run {t : Tracer Recorder} (h : t.observer.Nests) (events : List Event) :
    t.observer.session.recording.Continues (t.run events).observer.session.recording := by
  induction events generalizing t with
  | nil => exact .refl _
  | cons e rest ih => exact (h.continues (step_observer h e)).trans (ih (nests_step h e))

/-! ## The return that completes a call -/

/-- A call that is not the one being closed does not end, and the one being closed ends at the next
tick. -/
theorem Session.Closes.completedAt {s t : Session} {top id : CallId} (closes : s.Closes top t)
    {c d : Call} (found : s.recording.call? id = some c) (found' : t.recording.call? id = some d)
    (running : c.completedAt = none) :
    d.completedAt = none ∨ d.completedAt = some t.recording.lastMoment := by
  obtain ⟨before, set, rfl⟩ := closes
  rw [record, Recording.call?_endCall] at found'
  split at found'
  · obtain ⟨d', -, rfl⟩ := Option.map_eq_some_iff.1 found'
    exact .inr rfl
  · rename_i other
    left
    rcases set with rfl | ⟨noted, outcome, notes, -, rfl⟩
    · rw [found] at found'
      rw [← Option.some.inj found', running]
    · rw [record, Recording.call?_modifyCall, if_neg other, notes.call?, found] at found'
      rw [← Option.some.inj found', running]

/-- A return completes at most the innermost call, and nothing is recorded after that. -/
theorem Tracer.completedAt_step_ret {t : Tracer Recorder} (h : t.observer.Nests) {value : Value}
    {handled : Option TracebackId} {id : CallId} {c d : Call}
    (found : t.observer.session.recording.call? id = some c) (running : c.completedAt = none)
    (found' : (t.step (.ret value handled)).1.observer.session.recording.call? id = some d) :
    d.completedAt = none ∨ d.completedAt =
      some (t.step (.ret value handled)).1.observer.session.recording.lastMoment := by
  have unchanged (same : t.observer.session.recording.call? id = some d) : d.completedAt = none := by
    rw [found] at same
    rw [← Option.some.inj same, running]
  have told : (t.step (.ret value handled)).1.observer = t.observer ∨
      (t.step (.ret value handled)).1.observer = t.observer.returned value handled := by
    simp only [step, onReturn]
    split
    · exact .inl rfl
    · split
      · exact .inr rfl
      · exact .inl rfl
  rcases told with told | told
  · rw [told] at found'
    exact .inl (unchanged found')
  · rw [told, Recorder.returned] at found' ⊢
    split at found'
    · exact .inl (unchanged found')
    · exact .inl (unchanged found')
    · rename_i top rest stack
      exact (Recorder.closeCall_closes h.sound (h.hasCall_top stack) value _).completedAt found
        found' running

theorem Watch.after_append (w : Watch) (past future : List Event) :
    w.after (past ++ future) = (w.after past).run future :=
  Tracer.run_append ..

/-- What was recorded of a stream goes on from what was recorded of its beginning. -/
theorem Watch.continues_append (w : Watch) (past future : List Event) :
    (w.recording past).Continues (w.recording (past ++ future)) := by
  rw [recording, recording, after_append]
  exact Tracer.continues_run (w.nests_after past) future

end Reenact
