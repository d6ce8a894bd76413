import Reenact.Proofs.Trace.Exhaustion
import Reenact.Proofs.Trace.TwoRuns

/-!
# Frames that leave no trace

A frame that the tracer passes over, or that the project does not define, is not recorded. Still it is
not without effect: the tracer remembers that it was entered, looks at exceptions that pass through it,
and may build a tuple of its arguments before the recorder declines it. Here a whole run is compared
with the run in which such a frame never was: its call, its return and the exceptions that passed
through it are gone, and what was called from it is called from the frame around it.

**The law** (`foreignFrames_leave_no_trace`): both runs end with the same recording, and link the
project to the same, as long as the host keeps to its own range of handles and the range of the engine
lasts. Whether a file lies in the project is told from its path as it is written, so that a frame of a
file outside can leave a trace if two dots in its path hide where it leads
(`not_foreignFrames_leave_no_trace`).
-/

namespace Reenact

/-! ## Taking a frame out of a stream -/

/-- The inside of a frame without the exceptions that pass through the frame. Frames inside it stay as
they are. -/
def Bracketed.bare : Bracketed → Bracketed
  | done => done
  | plain e isPlain rest => if e.isRaise then rest.bare else .plain e isPlain rest.bare
  | foreign call inside result rest => .foreign call inside.bare result rest.bare
  | frame f inside value handled rest => .frame f inside value handled rest.bare

/-- One stream and then another one. -/
def Bracketed.append : Bracketed → Bracketed → Bracketed
  | done, b => b
  | plain e isPlain rest, b => .plain e isPlain (rest.append b)
  | foreign call inside result rest, b => .foreign call inside result (rest.append b)
  | frame f inside value handled rest, b => .frame f inside value handled (rest.append b)

theorem Bracketed.events_append (a b : Bracketed) : (a.append b).events = a.events ++ b.events := by
  induction a with
  | done => rfl
  | plain e isPlain rest ih => rw [append, events, ih, events, List.cons_append]
  | foreign call inside result rest _ ih | frame f inside value handled rest _ ih =>
    simp only [append, events, ih, List.cons_append, List.append_assoc]

namespace Passage

/-- The events of a frame, from its call to its return. -/
def events (p : Passage) : List Event :=
  .call p.frame :: (p.inside.events ++ [.ret p.value p.handled])

/-- The rest is the stream without the call and the return of the frame and without the exceptions that
pass through it; everything else inside the frame is still there. -/
def IsTakenOut (p : Passage) (b rest : Bracketed) : Prop :=
  ∃ after, b.events = p.before ++ (p.events ++ after) ∧
    rest.events = p.before ++ (p.inside.bare.events ++ after)

/-- A stream is well-bracketed without one of its frames, too. -/
theorem exists_rest_of_mem_passages {b : Bracketed} {before : List Event} {p : Passage}
    (mem : p ∈ b.passages before) : ∃ after rest,
      before ++ b.events = p.before ++ (p.events ++ after) ∧
      before ++ Bracketed.events rest = p.before ++ (p.inside.bare.events ++ after) := by
  induction b generalizing before with
  | done => cases mem
  | plain e plain rest ih =>
    obtain ⟨after, taken, whole, left⟩ := ih mem
    refine ⟨after, .plain e plain taken, ?_, ?_⟩
    · rw [← whole, Bracketed.events, List.append_assoc]
      rfl
    · rw [← left, Bracketed.events, List.append_assoc]
      rfl
  | foreign call inside result rest inside_ih rest_ih =>
    rcases List.mem_append.1 mem with mem | mem
    · obtain ⟨after, taken, whole, left⟩ := inside_ih mem
      refine ⟨after ++ .foreignReturn result :: rest.events, .foreign call taken result rest, ?_, ?_⟩
      · simpa [Bracketed.events] using congrArg (· ++ .foreignReturn result :: rest.events) whole
      · simpa [Bracketed.events] using congrArg (· ++ .foreignReturn result :: rest.events) left
    · obtain ⟨after, taken, whole, left⟩ := rest_ih mem
      exact ⟨after, .foreign call inside result taken, by simpa [Bracketed.events] using whole,
        by simpa [Bracketed.events] using left⟩
  | frame f inside value handled rest inside_ih rest_ih =>
    rcases List.mem_cons.1 mem with rfl | mem
    · refine ⟨rest.events, inside.bare.append rest, ?_, ?_⟩
      · simp [events, Bracketed.events]
      · rw [Bracketed.events_append]
    rcases List.mem_append.1 mem with mem | mem
    · obtain ⟨after, taken, whole, left⟩ := inside_ih mem
      refine ⟨after ++ .ret value handled :: rest.events, .frame f taken value handled rest, ?_, ?_⟩
      · simpa [Bracketed.events] using congrArg (· ++ .ret value handled :: rest.events) whole
      · simpa [Bracketed.events] using congrArg (· ++ .ret value handled :: rest.events) left
    · obtain ⟨after, taken, whole, left⟩ := rest_ih mem
      exact ⟨after, .frame f inside value handled taken, by simpa [Bracketed.events] using whole,
        by simpa [Bracketed.events] using left⟩

end Passage

/-! ## Handles that move up -/

/-- Handles of the same value where one run has built more values than the other: those that were
built `before` are the same, and later ones are further by `ahead`. -/
inductive Handle.IsAhead (before ahead : Nat) : Handle → Handle → Prop
  | same {a : Handle} (near : a.isBuilt = true → a.number.val ≤ before) : IsAhead before ahead a a
  | later {a b : Handle} (built : a.isBuilt = true) (built' : b.isBuilt = true)
      (far : before < b.number.val) (number : a.number.val = b.number.val + ahead) :
      IsAhead before ahead a b

namespace Handle

variable {before ahead n : Nat} {a b c d : Handle}

theorem eq_iff_of_built (built : a.isBuilt = true) (built' : b.isBuilt = true) :
    a = b ↔ a.number.val = b.number.val := by
  obtain ⟨isBuilt, number⟩ := a
  obtain ⟨other, number'⟩ := b
  obtain rfl : isBuilt = true := built
  obtain rfl : other = true := built'
  rw [mk.injEq, Fin.ext_iff]
  exact and_iff_right rfl

theorem ne_of_far (near : a.isBuilt = true → a.number.val ≤ before) (built : b.isBuilt = true)
    (far : before < b.number.val) : a ≠ b := by
  rintro rfl
  exact absurd (near built) (Nat.not_le_of_lt far)

theorem IsAhead.oneToOne (h : IsAhead before ahead a b) (h' : IsAhead before ahead c d) :
    a = c ↔ b = d := by
  cases h with
  | same near =>
    cases h' with
    | same => exact Iff.rfl
    | later built built' far number =>
      exact iff_of_false (ne_of_far near built (by omega)) (ne_of_far near built' far)
  | later built built' far number =>
    cases h' with
    | same near =>
      exact iff_of_false (ne_of_far near built (by omega)).symm (ne_of_far near built' far).symm
    | later other other' far' number' =>
      rw [eq_iff_of_built built other, eq_iff_of_built built' other', number, number',
        Nat.add_right_cancel_iff]

theorem isAhead_of_observed (observed : a.isBuilt = false) : IsAhead before ahead a a :=
  .same fun built => absurd (built.symm.trans observed) Bool.false_ne_true.symm

theorem number_built (lt : n < capacity) : (built n).number.val = n := Nat.mod_eq_of_lt lt

theorem isAhead_built_of_le (le : n ≤ before) : IsAhead before ahead (.built n) (.built n) :=
  .same fun _ => Nat.le_trans (Nat.mod_le ..) le

theorem isAhead_built_of_lt (later : before < n) (lt : n + ahead < capacity) :
    IsAhead before ahead (.built (n + ahead)) (.built n) := by
  have number' := number_built (Nat.lt_of_le_of_lt (Nat.le_add_right n ahead) lt)
  refine .later rfl rfl ?_ ?_
  · rw [number']
    exact later
  · rw [number_built lt, number']

end Handle

/-! ## Inside the frame -/

namespace TwoRuns

variable {runs : TwoRuns} {ahead limit : Nat} {t t' : Tracer Recorder}

/-- What happens inside a frame that is not followed, told to one tracer with the frame and to another
one without it. -/
theorem TracersMatch.run_bare (h : runs.TracersMatch ahead limit t t') (b : Bracketed)
    {last : Option Handle} (frames : t.frames = ⟨false, last⟩ :: t'.frames)
    (reported : ∀ e ∈ b.events, e.IsReported) (le : (t.run b.events).handles.count ≤ limit) :
    runs.TracersMatch ahead limit (t.run b.events) (t'.run b.bare.events) ∧
      (t.run b.events).frames = ⟨false, last⟩ :: (t'.run b.bare.events).frames := by
  induction b generalizing t t' with
  | done => exact ⟨h, frames⟩
  | plain e plain rest ih =>
    rw [Bracketed.events, List.forall_mem_cons] at reported
    by_cases quiet : e.isRaise = false
    · have same : (t.step e).1.frames = ⟨false, last⟩ :: (t'.step e).1.frames := by
        rw [Tracer.frames_step_plain plain quiet, Tracer.frames_step_plain plain quiet, frames]
      have stepped := h.step e (.inl (Event.looksAtFrame_of_plain plain quiet)) reported.1
        (Nat.le_trans (count_le_run _ rest.events) le)
      rw [Bracketed.bare, quiet, if_neg Bool.false_ne_true]
      exact ih stepped same reported.2 le
    · cases e with
      | raise raised traceback =>
        -- the frame is not followed, so the exception is not looked at
        have passed : (t.step (.raise raised traceback)).1 = t := by
          rcases t.step_raise raised traceback with ⟨top, below, eq, traced, -⟩ | ⟨-, same⟩
          · rw [frames] at eq
            cases eq
            cases traced
          · exact same
        rw [Bracketed.events, Tracer.run_cons, passed] at le ⊢
        exact ih h frames reported.2 le
      | _ => exact absurd rfl quiet
  | foreign call inside result rest inside_ih rest_ih =>
    simp only [Bracketed.bare, Bracketed.events, Tracer.run_cons, Tracer.run_append,
      List.forall_mem_cons, List.forall_mem_append] at reported le ⊢
    obtain ⟨first, inner, lastly, later⟩ := reported
    have left := Nat.le_trans (count_le_run _ rest.events) le
    have before := Nat.le_trans (count_le_step _ (.foreignReturn result)) left
    have entered := h.step (.foreignCall call) (.inl rfl) first
      (Nat.le_trans (count_le_run _ inside.events) before)
    obtain ⟨ended, same⟩ := inside_ih entered frames inner before
    refine rest_ih (ended.step (.foreignReturn result) (.inl rfl) lastly left) ?_ later le
    rw [Tracer.frames_step_foreignReturn, Tracer.frames_step_foreignReturn, same]
  | frame f inside value handled rest inside_ih rest_ih =>
    simp only [Bracketed.bare, Bracketed.events, Tracer.run_cons, Tracer.run_append,
      List.forall_mem_cons, List.forall_mem_append] at reported le ⊢
    obtain ⟨first, inner, lastly, later⟩ := reported
    have left := Nat.le_trans (count_le_run _ rest.events) le
    have before := Nat.le_trans (count_le_step _ (.ret value handled)) left
    refine rest_ih (h.run_frame first inner lastly before) ?_ later le
    rw [Tracer.frames_frame, Tracer.frames_frame, frames]

end TwoRuns

/-! ## Entering the frame -/

namespace Tracer

/-- No event changes what is passed over. -/
theorem passesOver_step (t : Tracer Recorder) (e : Event) :
    (t.step e).1.settings = t.settings ∧ (t.step e).1.ignored = t.ignored := by
  cases e with
  | call f =>
    simp only [step, onCall]
    split
    · exact ⟨rfl, rfl⟩
    · split <;> exact ⟨rfl, rfl⟩
  | ret value handled =>
    simp only [step, onReturn]
    split
    · exact ⟨rfl, rfl⟩
    · split <;> exact ⟨rfl, rfl⟩
  | raise raised traceback =>
    simp only [step, onRaise]
    repeat' split
    all_goals exact ⟨rfl, rfl⟩
  | foreignReturn value =>
    simp only [step]
    split <;> exact ⟨rfl, rfl⟩
  | foreignCall | globalRead | globalRebind | attributeRebind | moduleLoaded => exact ⟨rfl, rfl⟩

theorem passesOver_run (t : Tracer Recorder) (events : List Event) :
    (t.run events).settings = t.settings ∧ (t.run events).ignored = t.ignored := by
  induction events generalizing t with
  | nil => exact ⟨rfl, rfl⟩
  | cons e rest ih =>
    obtain ⟨settings, ignored⟩ := passesOver_step t e
    obtain ⟨settings', ignored'⟩ := ih (t.step e).1
    exact ⟨settings'.trans settings, ignored'.trans ignored⟩

variable {t : Tracer Recorder} {f : Frame}

/-- The recorder declines a method that the project does not define, and records nothing of it. -/
theorem report_of_no_method {receiver : Value} (method : f.receiver? = some receiver)
    (lacks : t.observer.resolveMethod f.code.name receiver = none) :
    t.report f = ({ t with handles := (f.role t.handles).1 }, false) := by
  have declined (args : NamedValues) :
      t.observer.methodCalled f.code.name receiver args f = (t.observer, false) := by
    rw [Recorder.methodCalled, lacks]
  simp only [report, Frame.role, Frame.methodCall?, method, Observer.methodCalled, declined]

theorem report_of_no_function (function : f.receiver? = none)
    (lacks : t.observer.resolveFunction f.code.name f = none) :
    t.report f = ({ t with handles := (f.role t.handles).1 }, false) := by
  have declined : t.observer.functionCalled f.code.name f.args.all f = (t.observer, false) := by
    rw [Recorder.functionCalled, lacks]
  simp only [report, Frame.role, Frame.methodCall?, function, Observer.functionCalled, declined]

end Tracer

namespace Watch

/-- The frame is the body of a class, drives the program, has a name that is ignored, or runs something
that the project does not define. -/
inductive IsForeign (w : Watch) (f : Frame) : Prop
  | classBody (h : f.code.isClassBody = true)
  | driver (h : f.code.id ∈ w.ignored)
  | ignoredName (h : w.settings.ignoresCode f.code.name = true)
  | noClass {receiver : Value} (method : f.receiver? = some receiver)
      (h : w.project.findClass receiver.typeName receiver.module = none)
  | noMethod {receiver : Value} {cls : ClassId} (method : f.receiver? = some receiver)
      (found : w.project.findClass receiver.typeName receiver.module = some cls)
      (h : w.project.findMethod cls f.code.name = none)
  | outside (function : f.receiver? = none) (h : w.project.moduleOfFile f.code.file = none)
  | noFunction {module : String} (function : f.receiver? = none)
      (found : w.project.moduleOfFile f.code.file = some module)
      (h : w.project.findFunction f.code.name module = none)

variable {w : Watch} {f : Frame} {t : Tracer Recorder}

/-- A frame that leaves no trace and is not passed over is declined. -/
theorem report_foreign (same : t.observer.session.project.unlinked = w.project.unlinked)
    (heeded : t.isIgnored f = false) (passesOver : t.settings = w.settings ∧ t.ignored = w.ignored)
    (foreign : w.IsForeign f) :
    t.report f = ({ t with handles := (f.role t.handles).1 }, false) := by
  obtain ⟨settings, ignored⟩ := passesOver
  rw [Tracer.isIgnored, settings, ignored, Bool.or_eq_false_iff, Bool.or_eq_false_iff] at heeded
  obtain ⟨⟨noBody, heededName⟩, noDriver⟩ := heeded
  cases foreign with
  | classBody h =>
    rw [h] at noBody
    cases noBody
  | driver h =>
    rw [List.contains_iff_mem.2 h] at noDriver
    cases noDriver
  | ignoredName h =>
    rw [h] at heededName
    cases heededName
  | noClass method h =>
    refine Tracer.report_of_no_method method ?_
    rw [Recorder.resolveMethod_congr same, h]
    rfl
  | noMethod method found h =>
    refine Tracer.report_of_no_method method ?_
    rw [Recorder.resolveMethod_congr same, found]
    exact h
  | outside function h =>
    refine Tracer.report_of_no_function function ?_
    rw [Recorder.resolveFunction_congr same, h]
    rfl
  | noFunction function found h =>
    refine Tracer.report_of_no_function function ?_
    rw [Recorder.resolveFunction_congr same, found]
    exact h

/-- A frame that leaves no trace is entered without being followed. -/
theorem step_foreign (same : t.observer.session.project.unlinked = w.project.unlinked)
    (passesOver : t.settings = w.settings ∧ t.ignored = w.ignored) (foreign : w.IsForeign f) :
    (t.step (.call f)).1 = { t.enter false with handles := (t.step (.call f)).1.handles } := by
  simp only [Tracer.step, Tracer.onCall]
  split
  · rfl
  · rename_i heeded
    rw [report_foreign same (Bool.eq_false_iff.2 heeded) passesOver foreign]
    rfl

/-! ## Both runs -/

/-- The same watch whose recording has another number. -/
def renumbered (w : Watch) (other : RunId) : Watch := { w with run := other }

/-- Two runs of a watch, the first of which builds some more values after so many. -/
def twoRuns (w : Watch) (other : RunId) (before ahead : Nat) : TwoRuns where
  project := w.project
  run := w.run
  other := other
  pairs := Handle.IsAhead before ahead
  oneToOne := Handle.IsAhead.oneToOne
  reported := Handle.isAhead_of_observed

theorem tracersMatch_start (w : Watch) (other : RunId) (before ahead : Nat) :
    (w.twoRuns other before ahead).TracersMatch 0 before w.start (w.renumbered other).start where
  observer := ⟨(w.twoRuns other before ahead).sessionsMatch_start, rfl, rfl, rfl, rfl⟩
  settings := rfl
  ignored := rfl
  foreignDepth := rfl
  handles := ⟨rfl, fun _ _ le => Handle.isAhead_built_of_le le⟩

/-- A frame that leaves no trace, entered in one of two runs that were alike so far. -/
theorem tracersMatch_entered {other : RunId} {ahead limit : Nat} {t' : Tracer Recorder}
    (h : (w.twoRuns other t.handles.count ahead).TracersMatch 0 t.handles.count t t')
    (frames : t.frames = t'.frames)
    (passesOver : t.settings = w.settings ∧ t.ignored = w.ignored) (foreign : w.IsForeign f)
    (count : (t.step (.call f)).1.handles.count = t.handles.count + ahead)
    (lasts : limit < Handle.capacity) :
    (w.twoRuns other t.handles.count ahead).TracersMatch ahead limit (t.step (.call f)).1 t' ∧
      (t.step (.call f)).1.frames = ⟨false, none⟩ :: t'.frames := by
  have entered := step_foreign h.observer.session.projects.left passesOver foreign
  have same : t.handles.count = t'.handles.count := h.handles.count
  have sources : (w.twoRuns other t.handles.count ahead).SourcesMatch ahead limit
      (t.step (.call f)).1.handles t'.handles := by
    refine ⟨by rw [count, same], fun n later le => ?_⟩
    exact Handle.isAhead_built_of_lt (same ▸ later) (Nat.lt_of_le_of_lt le lasts)
  refine ⟨?_, ?_⟩
  · rw [entered]
    exact { h with handles := sources }
  · rw [entered, ← frames]
    rfl

/-- A frame that leaves no trace is left. -/
theorem tracersMatch_left {runs : TwoRuns} {ahead limit : Nat} {t' : Tracer Recorder}
    (h : runs.TracersMatch ahead limit t t') {last : Option Handle}
    (frames : t.frames = ⟨false, last⟩ :: t'.frames) (value : Value) (handled : Option TracebackId) :
    runs.TracersMatch ahead limit (t.step (.ret value handled)).1 t' ∧
      (t.step (.ret value handled)).1.frames = t'.frames := by
  have left : (t.step (.ret value handled)).1 = { t with frames := t'.frames } := by
    simp only [Tracer.step, Tracer.onReturn, frames]
    rfl
  rw [left]
  exact ⟨{ h with }, rfl⟩

/-- Whatever comes after a frame that leaves no trace, it makes no difference to the tracer in the end
whether the frame was there. -/
theorem tracersMatch_bare (w : Watch) (other : RunId) (p : Passage) (after : List Event)
    (foreign : w.IsForeign p.frame)
    (reported : ∀ e ∈ p.before ++ (p.events ++ after), e.IsReported)
    (lasts : (w.after (p.before ++ (p.events ++ after))).handles.count < Handle.capacity) :
    ∃ count ahead limit, (w.twoRuns other count ahead).TracersMatch ahead limit
      (w.after (p.before ++ (p.events ++ after)))
      ((w.renumbered other).after (p.before ++ (p.inside.bare.events ++ after))) := by
  obtain ⟨before, f, inside, value, handled⟩ := p
  simp only [Passage.events, List.forall_mem_append, List.forall_mem_cons] at reported
  obtain ⟨front, ⟨-, inner, -⟩, later⟩ := reported
  simp only [Watch.after, Passage.events, Tracer.run_append, Tracer.run_cons,
    Tracer.run_nil] at lasts ⊢
  have passesOver := Tracer.passesOver_run w.start before
  -- the two runs are alike up to the frame, whatever number of handles it takes
  have alike (ahead : Nat) := (w.tracersMatch_start other (w.start.run before).handles.count ahead).run
    rfl front (Nat.le_refl _)
  generalize w.start.run before = t at *
  generalize (w.renumbered other).start.run before = t' at *
  obtain ⟨ahead, count⟩ := Nat.exists_eq_add_of_le (TwoRuns.count_le_step t (.call f))
  obtain ⟨before, frames⟩ := alike ahead
  obtain ⟨entered, top⟩ := tracersMatch_entered before frames passesOver foreign count lasts
  have ended := TwoRuns.count_le_run
    (((t.step (.call f)).1.run inside.events).step (.ret value handled)).1 after
  have leaving := Nat.le_trans (TwoRuns.count_le_step _ (.ret value handled)) ended
  obtain ⟨passed, below⟩ := entered.run_bare inside top inner leaving
  obtain ⟨left, same⟩ := tracersMatch_left passed below value handled
  exact ⟨_, _, _, (left.run same later (Nat.le_refl _)).1⟩

/-- It makes no difference whether the frame was in the stream: without it the stream gives the same
recording in the end, apart from its number, and links the project to the same. -/
structure LeavesNoTrace (w : Watch) (b : Bracketed) (p : Passage) : Prop where
  rest : ∃ rest, p.IsTakenOut b rest
  recording : ∀ other rest, p.IsTakenOut b rest → ∀ isExhausted,
    (((w.renumbered other).session rest.events).finish isExhausted).recording =
      { ((w.session b.events).finish isExhausted).recording with id := other }
  links : ∀ other rest, p.IsTakenOut b rest →
    w.project.GainAlike w.run other (w.session b.events).project
      ((w.renumbered other).session rest.events).project

/-- A frame that is passed over, or that the project does not define, leaves no trace. The host has to
keep to its own range of handles, and the range of the engine has to last. -/
theorem foreignFrames_leave_no_trace (w : Watch) (b : Bracketed) (p : Passage)
    (mem : p ∈ b.passages []) (foreign : w.IsForeign p.frame)
    (reported : ∀ e ∈ b.events, e.IsReported)
    (lasts : (w.after b.events).handles.count < Handle.capacity) : w.LeavesNoTrace b p := by
  have alike (other : RunId) (rest : Bracketed) (takenOut : p.IsTakenOut b rest) :
      ∃ count ahead limit, (w.twoRuns other count ahead).TracersMatch ahead limit
        (w.after b.events) ((w.renumbered other).after rest.events) := by
    obtain ⟨after, whole, left⟩ := takenOut
    rw [whole] at reported lasts ⊢
    rw [left]
    exact w.tracersMatch_bare other p after foreign reported lasts
  refine ⟨?_, fun other rest takenOut isExhausted => ?_, fun other rest takenOut => ?_⟩
  · obtain ⟨after, rest, whole, left⟩ := Passage.exists_rest_of_mem_passages mem
    exact ⟨rest, after, whole, left⟩
  · obtain ⟨count, ahead, limit, tracers⟩ := alike other rest takenOut
    exact tracers.observer.session.finish (w.inOrder_session b.events).keeps.going isExhausted
  · obtain ⟨count, ahead, limit, tracers⟩ := alike other rest takenOut
    exact tracers.observer.session.projects

/-! ## A method of a library -/

namespace Wrapped

/-- A project with one function. -/
def project : Project where
  root := "/p"
  functions := #[⟨"f", "m", [], false, []⟩]
  classes := #[]

def watch : Watch := ⟨project, ⟨0⟩, .standard, .default, .empty, []⟩

def null : Value := .literal ⟨.observed 3, "NoneType", "builtins", []⟩ .none

/-- An instance of a class that the project does not define. -/
def receiver : Value := .object ⟨.observed 1, "Runner", "lib", [("run", ⟨20⟩)]⟩

def arguments : Value := .sequence ⟨.observed 2, "tuple", "builtins", []⟩ .tuple [receiver]

/-- A method of the instance, which takes any arguments. -/
def method : Frame :=
  ⟨⟨⟨20⟩, "run", "/lib/lib.py", false, false⟩, ⟨[], some ("args", arguments), none⟩, none⟩

def function : Frame := ⟨⟨⟨10⟩, "f", "/p/m.py", false, false⟩, ⟨[], none, none⟩, none⟩

/-- The function raises a text. -/
def inner : Bracketed := .plain (.raise (.text "late") ⟨1⟩) rfl .done

/-- The method raises a text and handles it, and calls the function. -/
def inside : Bracketed :=
  .plain (.raise (.text "early") ⟨2⟩) rfl (.frame function inner null none .done)

def stream : Bracketed := .frame method inside null none .done

def passage : Passage := ⟨[], method, inside, null, none⟩

/-- The stream without the method. -/
def rest : Bracketed := .frame function inner null none .done

theorem isForeign : watch.IsForeign method := .noClass rfl (by decide +kernel)

theorem repacks : method.Repacks receiver "args" arguments := ⟨rfl, rfl, rfl⟩

theorem isReported_null : null.IsReported := .intro rfl fun _ mem => absurd mem List.not_mem_nil

theorem isReported_ret : (Event.ret null none).IsReported :=
  List.forall_mem_singleton.2 isReported_null

theorem isReported_method : (Event.call method).IsReported := by
  have ofReceiver : receiver.IsReported := .intro rfl fun _ mem => absurd mem List.not_mem_nil
  exact List.forall_mem_singleton.2 (.intro rfl (List.forall_mem_singleton.2 ofReceiver))

theorem isReported_function : (Event.call function).IsReported :=
  fun _ mem => absurd mem List.not_mem_nil

theorem isReported_text (content : String) (traceback : TracebackId) :
    (Event.raise (.text content) traceback).IsReported := fun _ mem => absurd mem List.not_mem_nil

theorem isReported : ∀ e ∈ stream.events, e.IsReported :=
  List.forall_mem_cons.2 ⟨isReported_method, List.forall_mem_cons.2 ⟨isReported_text _ _,
    List.forall_mem_cons.2 ⟨isReported_function, List.forall_mem_cons.2 ⟨isReported_text _ _,
      List.forall_mem_cons.2 ⟨isReported_ret, List.forall_mem_singleton.2 isReported_ret⟩⟩⟩⟩⟩

theorem isTakenOut : passage.IsTakenOut stream rest := ⟨[], rfl, rfl⟩

/-- The text that the function raises is the second value built with the method, and the first one
without. -/
theorem count_after : (watch.after stream.events).handles.count = 2 ∧
    ((watch.renumbered ⟨1⟩).after rest.events).handles.count = 1 := by decide +kernel

end Wrapped

theorem foreignFrames_leave_no_trace_wrapped :
    Wrapped.passage ∈ Wrapped.stream.passages [] ∧ Wrapped.watch.IsForeign Wrapped.method ∧
    (∀ e ∈ Wrapped.stream.events, e.IsReported) ∧
    (Wrapped.watch.after Wrapped.stream.events).handles.count < Handle.capacity ∧
    Wrapped.passage.IsTakenOut Wrapped.stream Wrapped.rest ∧
    Wrapped.watch.LeavesNoTrace Wrapped.stream Wrapped.passage := by
  have lasts : (Wrapped.watch.after Wrapped.stream.events).handles.count < Handle.capacity := by
    rw [Wrapped.count_after.1]
    decide
  exact ⟨List.mem_cons_self, Wrapped.isForeign, Wrapped.isReported, lasts, Wrapped.isTakenOut,
    foreignFrames_leave_no_trace Wrapped.watch Wrapped.stream Wrapped.passage List.mem_cons_self
      Wrapped.isForeign Wrapped.isReported lasts⟩

end Watch

/-! ## Frames that leave a trace -/

/-- Two dots lead to the directory around the place, and any other component leads into it. -/
def Path.follow (place : List (List Char)) (part : List Char) : List (List Char) :=
  if part = ['.', '.'] then
    if place = [['/']] then place else place.dropLast
  else place ++ [part]

/-- The place that an absolute path leads to. -/
def Path.place (path : String) : List (List Char) :=
  (components path.toList).foldl follow []

/-- The path leads out of the directory of the project. -/
def Project.IsOutside (p : Project) (path : String) : Prop :=
  ¬Path.place p.root <+: Path.place path

namespace Watch

/-- What was captured in the end, if all generators can still be resumed. -/
def captured (w : Watch) (b : Bracketed) : Recording :=
  ((w.session b.events).finish fun _ => false).recording

/-- Without a frame that leaves no trace there are as many objects and calls. -/
theorem LeavesNoTrace.sizes {w : Watch} {b rest : Bracketed} {p : Passage} (h : w.LeavesNoTrace b p)
    (takenOut : p.IsTakenOut b rest) :
    (w.captured rest).objects.size = (w.captured b).objects.size ∧
      (w.captured rest).calls.size = (w.captured b).calls.size := by
  have same : w.captured rest = { w.captured b with id := w.run } :=
    h.recording w.run rest takenOut fun _ => false
  rw [same]
  exact ⟨rfl, rfl⟩

namespace Clash

/-- The host gives it the first handle of the engine. -/
def number : Value := .literal ⟨.built 1, "int", "builtins", []⟩ (.int 5)

def function : Frame :=
  ⟨⟨⟨10⟩, "f", "/p/m.py", false, false⟩, ⟨[("x", number)], none, none⟩, none⟩

/-- The function is called with the number and raises a text. -/
def rest : Bracketed := .frame function Wrapped.inner Wrapped.null none .done

/-- The method of the library calls the function. -/
def stream : Bracketed := .frame Wrapped.method rest Wrapped.null none .done

def passage : Passage := ⟨[], Wrapped.method, rest, Wrapped.null, none⟩

theorem isTakenOut : passage.IsTakenOut stream rest := ⟨[], rfl, rfl⟩

/-- With the method the text is the second value that is built, and an object of its own. Without it
the text has the handle of the number, and is taken for it. -/
theorem size_objects : (Wrapped.watch.captured stream).objects.size = 2 ∧
    (Wrapped.watch.captured rest).objects.size = 1 := by decide +kernel

theorem not_leavesNoTrace : ¬Wrapped.watch.LeavesNoTrace stream passage := by
  intro noTrace
  have same := (noTrace.sizes isTakenOut).1
  rw [size_objects.1, size_objects.2] at same
  cases same

end Clash

namespace Spent

/-- The method of the library is called so often, one call after the other. -/
def calls : Nat → Bracketed → Bracketed
  | 0, rest => rest
  | n + 1, rest => .frame Wrapped.method .done Wrapped.null none (calls n rest)

/-- The function raises a text before the calls and one after them. -/
def stream (n : Nat) : Bracketed :=
  .frame Wrapped.function (.plain (.raise (.text "early") ⟨2⟩) rfl (calls n Wrapped.inner))
    Wrapped.null none .done

def before : List Event := [.call Wrapped.function, .raise (.text "early") ⟨2⟩]

/-- The first of the calls. -/
def passage : Passage := ⟨before, Wrapped.method, .done, Wrapped.null, none⟩

theorem mem_passages (n : Nat) : passage ∈ (stream (n + 1)).passages [] :=
  List.mem_cons_of_mem _ (List.mem_append_left _ List.mem_cons_self)

theorem isTakenOut (n : Nat) : passage.IsTakenOut (stream (n + 1)) (stream n) :=
  ⟨(calls n Wrapped.inner).events ++ [.ret Wrapped.null none], rfl, rfl⟩

theorem isReported (n : Nat) : ∀ e ∈ (stream n).events, e.IsReported := by
  have inner : ∀ e ∈ (calls n Wrapped.inner).events, e.IsReported := by
    induction n with
    | zero => exact List.forall_mem_singleton.2 (Wrapped.isReported_text _ _)
    | succ n ih =>
      exact List.forall_mem_cons.2 ⟨Wrapped.isReported_method,
        List.forall_mem_cons.2 ⟨Wrapped.isReported_ret, ih⟩⟩
  exact List.forall_mem_cons.2 ⟨Wrapped.isReported_function, List.forall_mem_cons.2
    ⟨Wrapped.isReported_text _ _, List.forall_mem_append.2
      ⟨inner, List.forall_mem_singleton.2 Wrapped.isReported_ret⟩⟩⟩

/-- Each of the calls takes a handle and leaves everything else as it is. -/
theorem run_calls {t : Tracer Recorder}
    (project : t.observer.session.project.unlinked = Wrapped.watch.project.unlinked)
    (passesOver : t.settings = Wrapped.watch.settings ∧ t.ignored = Wrapped.watch.ignored) (n : Nat)
    (rest : Bracketed) : t.run (calls n rest).events =
      ({ t with handles := ⟨t.handles.count + n⟩ } : Tracer Recorder).run rest.events := by
  induction n generalizing t with
  | zero => rfl
  | succ n ih =>
    have heeded : t.isIgnored Wrapped.method = false := by
      rw [Tracer.isIgnored, passesOver.1, passesOver.2]
      decide +kernel
    have taken : (t.step (.call Wrapped.method)).1 =
        { t.enter false with handles := ⟨t.handles.count + 1⟩ } := by
      rw [step_foreign project passesOver Wrapped.isForeign, Tracer.handles_step_call heeded,
        Wrapped.repacks.role]
      rfl
    have called : t.run (calls (n + 1) rest).events =
        ({ t with handles := ⟨t.handles.count + 1⟩ } : Tracer Recorder).run (calls n rest).events := by
      rw [calls, Bracketed.events, Tracer.run_cons, taken]
      rfl
    have count : t.handles.count + (n + 1) = t.handles.count + 1 + n := by omega
    rw [called, count]
    exact ih project passesOver

/-- What is left after the calls, if the engine has given out so many handles by then. -/
def ended (count : Nat) : Tracer Recorder :=
  ({ Wrapped.watch.after before with handles := ⟨count⟩ } : Tracer Recorder).run
    [.raise (.text "late") ⟨1⟩, .ret Wrapped.null none]

theorem after_stream (n : Nat) : Wrapped.watch.after (stream n).events = ended (1 + n) := by
  have project : (Wrapped.watch.after before).observer.session.project.unlinked =
      Wrapped.watch.project.unlinked := by decide +kernel
  have one : (Wrapped.watch.after before).handles.count = 1 := by decide +kernel
  have split : (stream n).events = before ++ ((calls n Wrapped.inner).events ++
      [.ret Wrapped.null none]) := rfl
  rw [split, Watch.after, Tracer.run_append, Tracer.run_append]
  have run := run_calls project (Tracer.passesOver_run Wrapped.watch.start before) n Wrapped.inner
  rw [one] at run
  exact congrArg (·.run [.ret Wrapped.null none]) run

/-- All but two of the handles of the engine. -/
def many : Nat := Handle.capacity - 2

/-- Past the end of the range, the second text has the handle of the first one, and is taken for it. With
one call less, it is an object of its own. -/
theorem size_objects : (Wrapped.watch.captured (stream (many + 1))).objects.size = 1 ∧
    (Wrapped.watch.captured (stream many)).objects.size = 2 := by
  have past : ((ended Handle.capacity).observer.session.finish fun _ => false).recording.objects.size =
      1 := by decide +kernel
  have within : ((ended (Handle.capacity - 1)).observer.session.finish
      fun _ => false).recording.objects.size = 2 := by decide +kernel
  have count : 1 + (many + 1) = Handle.capacity := by decide +kernel
  have count' : 1 + many = Handle.capacity - 1 := by decide +kernel
  refine ⟨?_, ?_⟩
  · rw [captured, session, after_stream, count]
    exact past
  · rw [captured, session, after_stream, count']
    exact within

theorem not_leavesNoTrace : ¬Wrapped.watch.LeavesNoTrace (stream (many + 1)) passage := by
  intro noTrace
  have same := (noTrace.sizes (isTakenOut many)).1
  rw [size_objects.1, size_objects.2] at same
  cases same

end Spent

namespace Climbing

/-- A project that declares a function in a module beside its root. -/
def project : Project where
  root := "/p"
  functions := #[⟨"f", "...lib", [], false, []⟩]
  classes := #[]

def watch : Watch := ⟨project, ⟨0⟩, .standard, .default, .empty, []⟩

/-- A path below the root, as it is written, that leads out of it. -/
def function : Frame := ⟨⟨⟨10⟩, "f", "/p/../lib.py", false, false⟩, ⟨[], none, none⟩, none⟩

def stream : Bracketed := .frame function .done Wrapped.null none .done

def passage : Passage := ⟨[], function, .done, Wrapped.null, none⟩

theorem isTakenOut : passage.IsTakenOut stream .done := ⟨[], rfl, rfl⟩

theorem isReported : ∀ e ∈ stream.events, e.IsReported :=
  List.forall_mem_cons.2 ⟨fun _ mem => absurd mem List.not_mem_nil,
    List.forall_mem_singleton.2 Wrapped.isReported_ret⟩

theorem isOutside : project.IsOutside function.code.file := by
  unfold Project.IsOutside
  decide +kernel

theorem size_calls : (watch.captured stream).calls.size = 1 ∧
    (watch.captured .done).calls.size = 0 := by decide +kernel

theorem not_leavesNoTrace : ¬watch.LeavesNoTrace stream passage := by
  intro noTrace
  have same := (noTrace.sizes isTakenOut).2
  rw [size_calls.1, size_calls.2] at same
  cases same

end Climbing

/-- Not every foreign frame leaves no trace. One does where the host uses a handle of the engine, and
one where the engine has given out its whole range. A frame of a file outside of the project does where
two dots in the path, which are a component like any other, hide that it leads there. -/
theorem not_foreignFrames_leave_no_trace :
    (Clash.passage ∈ Clash.stream.passages [] ∧ Wrapped.watch.IsForeign Clash.passage.frame ∧
      (Wrapped.watch.after Clash.stream.events).handles.count < Handle.capacity ∧
      ¬Wrapped.watch.LeavesNoTrace Clash.stream Clash.passage) ∧
    (Spent.passage ∈ (Spent.stream (Spent.many + 1)).passages [] ∧
      Wrapped.watch.IsForeign Spent.passage.frame ∧
      (∀ e ∈ (Spent.stream (Spent.many + 1)).events, e.IsReported) ∧
      ¬Wrapped.watch.LeavesNoTrace (Spent.stream (Spent.many + 1)) Spent.passage) ∧
    (Climbing.passage ∈ Climbing.stream.passages [] ∧ Climbing.passage.frame.receiver? = none ∧
      Climbing.project.IsOutside Climbing.passage.frame.code.file ∧
      (∀ e ∈ Climbing.stream.events, e.IsReported) ∧
      (Climbing.watch.after Climbing.stream.events).handles.count < Handle.capacity ∧
      ¬Climbing.watch.LeavesNoTrace Climbing.stream Climbing.passage) :=
  ⟨⟨List.mem_cons_self, Wrapped.isForeign, by decide +kernel, Clash.not_leavesNoTrace⟩,
    ⟨Spent.mem_passages _, Wrapped.isForeign, Spent.isReported _, Spent.not_leavesNoTrace⟩,
    ⟨List.mem_cons_self, rfl, Climbing.isOutside, Climbing.isReported, by decide +kernel,
      Climbing.not_leavesNoTrace⟩⟩

end Watch

end Reenact
