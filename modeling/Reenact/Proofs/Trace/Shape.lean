import Reenact.Proofs.Trace.Bracket
import Reenact.Proofs.Trace.Watch

/-!
# The two stacks on well-bracketed streams

The tracer keeps a stack of frames and counts foreign calls; the recorder keeps a stack of its own, on
which only followed frames and foreign calls appear. `Tracer.HasShape` states both at once, and the
lemmas below say what each event does to them: an event that closes a bracket takes off exactly what
the event that opened it has put on.

**The law** (`hasShape_run`): a well-bracketed stream leaves both stacks as they were.
-/

namespace Reenact

namespace Tracer

/-- What was recorded so far. -/
def recording (t : Tracer Recorder) : Recording := t.observer.session.recording

/-- The frames of a tracer, by whether they are followed, its count of foreign calls, and the stack
of its recorder. -/
structure HasShape (t : Tracer Recorder) (followed : List Bool) (depth : Nat)
    (stack : List Running) : Prop where
  frames : t.frames.map OpenFrame.isTraced = followed
  foreignDepth : t.foreignDepth = depth
  stack : t.observer.stack = stack

theorem hasShape_self (t : Tracer Recorder) :
    t.HasShape (t.frames.map OpenFrame.isTraced) t.foreignDepth t.observer.stack :=
  ⟨rfl, rfl, rfl⟩

variable {t : Tracer Recorder} {followed : List Bool} {depth : Nat} {stack : List Running}

/-! ## One event -/

theorem stack_raised (r : Recorder) (exception : Value) (traceback : TracebackId) :
    (r.raised exception traceback).stack = r.stack := by
  unfold Recorder.raised
  split
  · rename_i top
    exact top.symm ▸ rfl
  · rfl

theorem hasShape_plain (h : t.HasShape followed depth stack) {e : Event}
    (plain : e.isPlain = true) : (t.step e).1.HasShape followed depth stack := by
  obtain ⟨rfl, rfl, rfl⟩ := h
  cases e with
  | call | ret | foreignCall | foreignReturn => cases plain
  | raise raised traceback =>
    simp only [step, onRaise]
    split
    · exact hasShape_self t
    · split
      · exact hasShape_self t
      · rename_i top rest eq
        split
        · exact hasShape_self t
        · split
          · exact hasShape_self t
          · exact ⟨by rw [eq]; rfl, rfl, stack_raised ..⟩
  | globalRead module name value =>
    refine ⟨rfl, rfl, ?_⟩
    show (Recorder.globalRead t.observer module name value).stack = _
    unfold Recorder.globalRead
    split <;> rfl
  | globalRebind module name value => exact ⟨rfl, rfl, rfl⟩
  | attributeRebind target name value =>
    refine ⟨rfl, rfl, ?_⟩
    show (Recorder.attributeRebind t.observer target name value).stack = _
    unfold Recorder.attributeRebind
    split <;> rfl
  | moduleLoaded module codes => exact ⟨rfl, rfl, rfl⟩

theorem hasShape_foreignCall (h : t.HasShape followed depth stack) (call : Foreign) :
    ∃ mutation, (t.step (.foreignCall call)).1.HasShape followed (depth + 1)
      (.foreign mutation :: stack) := by
  obtain ⟨rfl, rfl, rfl⟩ := h
  have entered : ∃ mutation, (t.observer.foreignCalled call).stack =
      .foreign mutation :: t.observer.stack := by
    unfold Recorder.foreignCalled
    split <;> exact ⟨_, rfl⟩
  obtain ⟨mutation, eq⟩ := entered
  exact ⟨mutation, rfl, rfl, eq⟩

theorem hasShape_foreignReturn {mutation : Option PendingMutation}
    (h : t.HasShape followed (depth + 1) (.foreign mutation :: stack)) (result : Option Value) :
    (t.step (.foreignReturn result)).1.HasShape followed depth stack := by
  obtain ⟨rfl, count, top⟩ := h
  have left : (t.observer.foreignReturned result).stack = stack := by
    simp only [Recorder.foreignReturned, top]
    split <;> rfl
  simp only [step, count]
  exact ⟨rfl, rfl, left⟩

theorem report_answers (nests : t.observer.Nests) (f : Frame) :
    t.observer.Answers ((t.report f).1.observer, (t.report f).2) := by
  unfold report
  dsimp only
  split
  · exact Recorder.methodCalled_answers nests.sound ..
  · exact Recorder.functionCalled_answers nests.sound ..

/-- A frame is put on the stack of the tracer. If it is followed, a call is opened and put on the
stack of the recorder; otherwise at most some values were noted. -/
theorem step_call (nests : t.observer.Nests) (h : t.HasShape followed depth stack) (f : Frame) :
    (∃ s id, (t.step (.call f)).2.descend = true ∧
      t.observer.session.Opens t.observer.currentCall id s ∧
      (t.step (.call f)).1.observer =
        { t.observer with session := s, stack := .call id :: t.observer.stack } ∧
      (t.step (.call f)).1.HasShape (true :: followed) depth (.call id :: stack)) ∨
    ∃ s, (t.step (.call f)).2.descend = false ∧ t.observer.session.Notes s ∧
      (t.step (.call f)).1.observer = { t.observer with session := s } ∧
      (t.step (.call f)).1.HasShape (false :: followed) depth stack := by
  obtain ⟨rfl, rfl, rfl⟩ := h
  simp only [step, onCall]
  split
  · exact .inr ⟨_, rfl, .refl _, rfl, rfl, rfl, rfl⟩
  · have answers := report_answers nests f
    generalize told : t.report f = result at answers
    obtain ⟨reported, descend⟩ := result
    have frames : reported.frames = t.frames := congrArg (fun p => p.1.frames) told.symm
    have count : reported.foreignDepth = t.foreignDepth :=
      congrArg (fun p => p.1.foreignDepth) told.symm
    have pushed (isTraced : Bool) : (reported.enter isTraced).frames.map OpenFrame.isTraced =
        isTraced :: t.frames.map OpenFrame.isTraced := by rw [enter, frames]; rfl
    dsimp only at answers ⊢
    generalize eq : reported.observer = observer at answers
    cases answers with
    | @followed s id opens =>
      have stack : reported.observer.stack = .call id :: t.observer.stack := by rw [eq]
      exact .inl ⟨s, id, rfl, opens, eq, pushed true, count, stack⟩
    | @declined s notes =>
      have stack : reported.observer.stack = t.observer.stack := by rw [eq]
      exact .inr ⟨s, rfl, notes, eq, pushed false, count, stack⟩

/-- A frame that is followed is taken off both stacks. -/
theorem hasShape_ret_followed {id : CallId}
    (h : t.HasShape (true :: followed) depth (.call id :: stack)) (value : Value)
    (handled : Option TracebackId) :
    (t.step (.ret value handled)).1.HasShape followed depth stack := by
  obtain ⟨frames, rfl, top⟩ := h
  obtain ⟨head, rest, eq, isTraced, rfl⟩ := List.map_eq_cons_iff.1 frames
  have left : (t.observer.returned value handled).stack = stack := by
    simp only [Recorder.returned, top]
  simp only [step, onReturn, eq, isTraced, if_true]
  exact ⟨rfl, rfl, left⟩

/-- A frame that is not followed is taken off the stack of the tracer, and the recorder is not told. -/
theorem step_ret_passed (h : t.HasShape (false :: followed) depth stack) (value : Value)
    (handled : Option TracebackId) : (t.step (.ret value handled)).1.observer = t.observer ∧
      (t.step (.ret value handled)).1.HasShape followed depth stack := by
  obtain ⟨frames, rfl, rfl⟩ := h
  obtain ⟨head, rest, eq, isTraced, rfl⟩ := List.map_eq_cons_iff.1 frames
  simp only [step, onReturn, eq, isTraced, Bool.false_eq_true, if_false]
  exact ⟨trivial, rfl, rfl, rfl⟩

/-! ## Whole streams -/

/-- A well-bracketed stream leaves both stacks as they were. -/
theorem hasShape_run (b : Bracketed) (nests : t.observer.Nests)
    (h : t.HasShape followed depth stack) :
    (t.run b.events).HasShape followed depth stack := by
  induction b generalizing t followed depth stack with
  | done => exact h
  | plain e plain rest ih => exact ih (nests_step nests e) (hasShape_plain h plain)
  | foreign call inside result rest inside_ih rest_ih =>
    obtain ⟨mutation, entered⟩ := hasShape_foreignCall h call
    have entered_nests := nests_step nests (.foreignCall call)
    have before := inside_ih entered_nests entered
    have before_nests := nests_run entered_nests inside.events
    rw [Bracketed.events, run_cons, run_append, run_cons]
    exact rest_ih (nests_step before_nests _) (hasShape_foreignReturn before result)
  | frame f inside value handled rest inside_ih rest_ih =>
    have entered_nests := nests_step nests (.call f)
    have before_nests := nests_run entered_nests inside.events
    rw [Bracketed.events, run_cons, run_append, run_cons]
    refine rest_ih (nests_step before_nests _) ?_
    rcases step_call nests h f with ⟨s, id, -, -, -, entered⟩ | ⟨s, -, -, -, entered⟩
    · exact hasShape_ret_followed (inside_ih entered_nests entered) value handled
    · exact (step_ret_passed (inside_ih entered_nests entered) value handled).2

end Tracer

end Reenact
