import Reenact.Proofs.Recording.Ownership
import Reenact.Proofs.Trace.Watch

/-!
# Which calls a watch leaves to which objects

Every observation keeps a recording in which objects name only calls made on them, and in which every
call is listed. Ending the recording takes resumptions out of the list.

**The law** (`Records.namesOwnCalls`, `Records.listsConstructors`): of every recording, whatever the
stream of events and whether or not it has been ended, each object names only calls that were made on
it, and each constructor call of an instance is listed among the calls captured.
-/

namespace Reenact

namespace Recorder

variable {r r' : Recorder}

theorem ownsCalls_setsOutcome {s t : Session} {id : CallId} (h : s.recording.OwnsCalls)
    (sets : s.SetsOutcome id t) : t.recording.OwnsCalls := by
  obtain ⟨noted, outcome, notes, -, rfl⟩ := sets
  exact (notes.ownsCalls h).keepCalls rfl (Recording.keepsKinds_modifyCall _ id fun _ => rfl)
    (Recording.size_calls_modifyCall ..) rfl

theorem ownsCalls_endCall {r : Recording} (h : r.OwnsCalls) (id : CallId) :
    (r.endCall id).OwnsCalls :=
  h.keepCalls rfl (Recording.keepsKinds_modifyCall r.tick id fun _ => rfl)
    (Recording.size_calls_endCall ..) rfl

theorem ownsCalls_addEffect {s : Session} (h : s.recording.OwnsCalls) (change : Change)
    (owner : Option CallId) : (s.addEffect change owner).1.recording.OwnsCalls :=
  h.keepCalls (Recording.objects_pushEffect ..)
    (Recording.keepsKinds_pushEffect s.recording change owner)
    (Recording.size_calls_pushEffect ..) (Recording.captured_pushEffect ..)

/-- Every observation leaves calls to the objects they are made on. -/
theorem Step.ownsCalls (step : r.Step r') (h : r.session.recording.OwnsCalls) :
    r'.session.recording.OwnsCalls := by
  cases step with
  | noted notes => exact notes.ownsCalls h
  | opened opens => exact opens.ownsCalls h
  | failed traceback top sets => exact ownsCalls_setsOutcome h sets
  | closed top closes =>
    obtain ⟨before, rfl | sets, rfl⟩ := closes
    · exact ownsCalls_endCall h _
    · exact ownsCalls_endCall (ownsCalls_setsOutcome h sets) _
  | entered notes known => exact notes.ownsCalls h
  | left top => exact h
  | mutated top => exact ownsCalls_addEffect h ..
  | affected notes known => exact ownsCalls_addEffect (notes.ownsCalls h) ..

end Recorder

/-- Every stream of events leaves calls to the objects they are made on. -/
theorem Tracer.ownsCalls_run {t : Tracer Recorder} (nests : t.observer.Nests)
    (h : t.observer.session.recording.OwnsCalls) (events : List Event) :
    (t.run events).observer.session.recording.OwnsCalls :=
  Tracer.run_keeps (P := Recording.OwnsCalls) (fun step => step.ownsCalls) nests h events

namespace Watch

variable {w : Watch} {events : List Event} {r : Recording}

theorem ownsCalls_recording (w : Watch) (events : List Event) : (w.recording events).OwnsCalls :=
  Tracer.ownsCalls_run (Recorder.nests_start ..) (Recording.ownsCalls_empty _) events

theorem Records.namesOwnCalls (h : w.Records events r) : r.NamesOwnCalls := by
  obtain ⟨isExhausted, rfl | rfl⟩ := h
  · exact (w.ownsCalls_recording events).named
  · exact ((w.ownsCalls_recording events).finish isExhausted).1

theorem Records.listsConstructors (h : w.Records events r) : r.ListsConstructors := by
  obtain ⟨isExhausted, rfl | rfl⟩ := h
  · exact (w.ownsCalls_recording events).listsConstructors
  · exact ((w.ownsCalls_recording events).finish isExhausted).2

end Watch

end Reenact
