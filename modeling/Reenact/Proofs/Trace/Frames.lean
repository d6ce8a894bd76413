import Reenact.Proofs.Trace.Shape

/-!
# Frames and what they remember

The tracer remembers with each frame the exception that was delivered to it last. An event that opens
and closes nothing touches the innermost frame only, and a return takes off the frame that its call has
put on.

**The law** (`frames_frame`, `frames_run_of_not_in_frame`): after everything inside a frame or a foreign
call, the frames around it are the same and remember the same.
-/

namespace Reenact

/-- Whether the event is an exception. -/
def Event.isRaise : Event → Bool
  | .raise .. => true
  | _ => false

/-- Whether an exception is delivered to a frame that remembers the one delivered to it last. -/
def Settings.delivers (s : Settings) (last : Option Handle) (raised : Raised) : Bool :=
  !s.ignoresException raised.typeName &&
    !((Tracer.memory raised).isSome && last == Tracer.memory raised)

namespace Bracketed

/-- Whether every exception of the stream passes through a frame. `innermost` is the innermost bracket
around the stream. -/
def raisesInFrames (innermost : Option Bracket) : Bracketed → Bool
  | done => true
  | plain e _ rest =>
    (!e.isRaise || innermost == some .frame) && rest.raisesInFrames innermost
  | foreign _ inside _ rest =>
    inside.raisesInFrames (some .foreign) && rest.raisesInFrames innermost
  | frame _ inside _ _ rest =>
    inside.raisesInFrames (some .frame) && rest.raisesInFrames innermost

/-- What holds of a stream about its exceptions holds inside each of its frames. -/
theorem raisesInFrames_of_mem_passages {b : Bracketed} {innermost : Option Bracket}
    {before : List Event} {p : Passage} (mem : p ∈ b.passages before)
    (inFrames : b.raisesInFrames innermost = true) :
    p.inside.raisesInFrames (some .frame) = true := by
  induction b generalizing innermost before with
  | done => cases mem
  | plain e plain rest ih =>
    exact ih mem (Bool.and_eq_true_iff.1 inFrames).2
  | foreign call inside result rest inside_ih rest_ih =>
    obtain ⟨inner, later⟩ := Bool.and_eq_true_iff.1 inFrames
    rcases List.mem_append.1 mem with mem | mem
    · exact inside_ih mem inner
    · exact rest_ih mem later
  | frame f inside value handled rest inside_ih rest_ih =>
    obtain ⟨inner, later⟩ := Bool.and_eq_true_iff.1 inFrames
    rcases List.mem_cons.1 mem with rfl | mem
    · exact inner
    rcases List.mem_append.1 mem with mem | mem
    · exact inside_ih mem inner
    · exact rest_ih mem later

end Bracketed

namespace Tracer

variable {t : Tracer Recorder}

/-! ## One event -/

/-- An exception that is delivered to the frame that it passes through is remembered there, and the
recorder is told of it. Any other one changes nothing. -/
theorem step_raise (t : Tracer Recorder) (raised : Raised) (traceback : TracebackId) :
    (∃ top below, t.frames = top :: below ∧ top.isTraced = true ∧
      t.settings.delivers top.lastException raised = true ∧
      (t.step (.raise raised traceback)).1.frames =
        { top with lastException := (memory raised).or top.lastException } :: below ∧
      (t.step (.raise raised traceback)).1.observer =
        t.observer.raised (raised.toValue t.handles).2 traceback) ∨
    ((∀ top below, t.frames = top :: below → top.isTraced = true →
        t.settings.delivers top.lastException raised = false) ∧
      (t.step (.raise raised traceback)).1 = t) := by
  simp only [step, onRaise, Settings.delivers]
  split
  · rename_i ignored
    refine .inr ⟨fun _ _ _ _ => ?_, rfl⟩
    rw [ignored]
    rfl
  · rename_i heeded
    split
    · rename_i none
      refine .inr ⟨fun top below eq => ?_, rfl⟩
      rw [none] at eq
      cases eq
    · rename_i top below eq
      split
      · rename_i untraced
        refine .inr ⟨fun top' below' eq' traced => ?_, rfl⟩
        rw [eq] at eq'
        cases eq'
        rw [traced] at untraced
        cases untraced
      · rename_i traced
        split
        · rename_i again
          refine .inr ⟨fun top' below' eq' _ => ?_, rfl⟩
          rw [eq] at eq'
          cases eq'
          rw [again]
          exact Bool.and_false _
        · rename_i fresh
          refine .inl ⟨top, below, eq, ?_, ?_, rfl, rfl⟩
          · simpa using traced
          · rw [Bool.eq_false_iff.2 heeded, Bool.eq_false_iff.2 fresh]
            rfl

/-- An event that is no exception leaves the frames in place, and what they remember. -/
theorem frames_step_plain {e : Event} (plain : e.isPlain = true) (quiet : e.isRaise = false) :
    (t.step e).1.frames = t.frames := by
  cases e with
  | call | ret | foreignCall | foreignReturn => cases plain
  | raise => cases quiet
  | globalRead | globalRebind | attributeRebind | moduleLoaded => rfl

theorem frames_step_foreignReturn (t : Tracer Recorder) (result : Option Value) :
    (t.step (.foreignReturn result)).1.frames = t.frames := by
  simp only [step]
  split <;> rfl

/-- A frame that is entered remembers no exception. -/
theorem frames_step_call (t : Tracer Recorder) (f : Frame) :
    (t.step (.call f)).1.frames = ⟨(t.step (.call f)).2.descend, none⟩ :: t.frames := by
  simp only [step, onCall]
  split
  · rfl
  · generalize told : t.report f = result
    obtain ⟨reported, descend⟩ := result
    have frames : reported.frames = t.frames := congrArg (fun p => p.1.frames) told.symm
    cases descend with
    | true =>
      show ⟨true, none⟩ :: reported.frames = _
      rw [frames]
      rfl
    | false =>
      show ⟨false, none⟩ :: reported.frames = _
      rw [frames]
      rfl

/-- A return takes off the innermost frame. -/
theorem frames_step_ret (t : Tracer Recorder) (value : Value) (handled : Option TracebackId) :
    (t.step (.ret value handled)).1.frames = t.frames.tail := by
  simp only [step, onReturn]
  split
  · rename_i none
    rw [none]
    rfl
  · rename_i top below eq
    rw [eq]
    split <;> rfl

/-- An event that opens and closes nothing leaves all frames but the innermost one as they are. -/
theorem tail_frames_step_plain {e : Event} (plain : e.isPlain = true) :
    (t.step e).1.frames.tail = t.frames.tail := by
  by_cases quiet : e.isRaise = false
  · rw [frames_step_plain plain quiet]
  · cases e with
    | raise raised traceback =>
      rcases step_raise t raised traceback with ⟨top, below, frames, -, -, after, -⟩ | ⟨-, same⟩
      · rw [after, frames]
        rfl
      · rw [same]
    | _ => exact absurd rfl quiet

/-! ## Frames after a stream -/

/-- A stream leaves all frames around it but the innermost one as they are. -/
theorem tail_frames_run (b : Bracketed) (t : Tracer Recorder) :
    (t.run b.events).frames.tail = t.frames.tail := by
  induction b generalizing t with
  | done => rfl
  | plain e plain rest ih => exact (ih _).trans (tail_frames_step_plain plain)
  | foreign call inside result rest inside_ih rest_ih =>
    rw [Bracketed.events, run_cons, run_append, run_cons, rest_ih, frames_step_foreignReturn,
      inside_ih]
    rfl
  | frame f inside value handled rest inside_ih rest_ih =>
    rw [Bracketed.events, run_cons, run_append, run_cons, rest_ih, frames_step_ret, inside_ih,
      frames_step_call]
    rfl

/-- The frames after a frame that was entered and left are those before it. -/
theorem frames_frame (t : Tracer Recorder) (f : Frame) (inside : Bracketed) (value : Value)
    (handled : Option TracebackId) :
    (((t.step (.call f)).1.run inside.events).step (.ret value handled)).1.frames = t.frames := by
  rw [frames_step_ret, tail_frames_run, frames_step_call]
  rfl

theorem foreign_ne_frame : some Bracket.foreign ≠ some .frame := nofun

/-- Where no exception passes through the innermost frame, it remembers what it did. -/
theorem frames_run_of_not_in_frame {b : Bracketed} {innermost : Option Bracket}
    (outside : innermost ≠ some .frame) (inFrames : b.raisesInFrames innermost = true)
    (t : Tracer Recorder) : (t.run b.events).frames = t.frames := by
  induction b generalizing t innermost with
  | done => rfl
  | plain e plain rest ih =>
    obtain ⟨here, later⟩ := Bool.and_eq_true_iff.1 inFrames
    have quiet : e.isRaise = false := by simpa [outside] using here
    exact (ih outside later _).trans (frames_step_plain plain quiet)
  | foreign call inside result rest inside_ih rest_ih =>
    obtain ⟨inner, later⟩ := Bool.and_eq_true_iff.1 inFrames
    rw [Bracketed.events, run_cons, run_append, run_cons, rest_ih outside later,
      frames_step_foreignReturn, inside_ih foreign_ne_frame inner]
    rfl
  | frame f inside value handled rest inside_ih rest_ih =>
    obtain ⟨-, later⟩ := Bool.and_eq_true_iff.1 inFrames
    rw [Bracketed.events, run_cons, run_append, run_cons, rest_ih outside later, frames_frame]

end Tracer

end Reenact
