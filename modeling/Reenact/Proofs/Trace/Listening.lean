import Reenact.Proofs.Trace.Transparency

/-!
# Listening in

A tracer tells its observer of values that the host reports, and of a few that it builds itself. To
see which, one listens in on the observer, whatever it is (`Listener`): this changes nothing that
the tracer does (`Tracer.step_listening`).

**The law** (`Tracer.mem_told`): every value that the observer is told of, and every value that such
a one holds, is held by the event or built by the tracer. What the tracer builds are the further
arguments of a method without its receiver, an exception that the host reports only in parts, and
its message (`Tracer.Builds`).
-/

namespace Reenact

/-! ## Values in values -/

namespace Value

/-- The value and all that it holds, all that this holds, and so on. -/
def all (v : Value) : List Value :=
  v :: v.held.attach.flatMap fun w => all w.1
termination_by sizeOf v
decreasing_by exact sizeOf_lt_of_mem_held w.2

theorem all_eq (v : Value) : v.all = v :: v.held.flatMap all := by
  rw [all]
  simp

theorem mem_all_self (v : Value) : v ∈ v.all := by
  rw [all_eq]
  exact List.mem_cons_self

theorem all_subset_of_mem_held {v w : Value} (mem : w ∈ v.held) : w.all ⊆ v.all := by
  intro u inside
  rw [all_eq v]
  exact List.mem_cons_of_mem _ (List.mem_flatMap.2 ⟨w, mem, inside⟩)

theorem IsReported.of_mem_all {v w : Value} (h : v.IsReported) (mem : w ∈ v.all) : w.IsReported := by
  induction h with
  | @intro v observed held ih =>
    rw [all_eq] at mem
    rcases List.mem_cons.1 mem with rfl | mem
    · exact .intro observed held
    · obtain ⟨part, inside, mem⟩ := List.mem_flatMap.1 mem
      exact ih part inside mem

end Value

/-! ## Listening in -/

/-- An observer, with all values that it was told. -/
structure Listener (σ : Type) where
  observer : σ
  /-- The values, in order. -/
  told : List Value

namespace Listener

variable {σ : Type}

/-- The observer has been told values. -/
def hear (l : Listener σ) (values : List Value) (observer : σ) : Listener σ :=
  ⟨observer, l.told ++ values⟩

instance [Observer σ] : Observer (Listener σ) where
  methodCalled l name receiver args f :=
    let (observer, descend) := Observer.methodCalled l.observer name receiver args f
    (l.hear (receiver :: args.map Prod.snd) observer, descend)
  functionCalled l name args f :=
    let (observer, descend) := Observer.functionCalled l.observer name args f
    (l.hear (args.map Prod.snd) observer, descend)
  returned l value handled := l.hear [value] (Observer.returned l.observer value handled)
  raised l exception traceback :=
    l.hear [exception] (Observer.raised l.observer exception traceback)
  foreignCalled l call :=
    l.hear (call.receiver.toList ++ (call.args ++ call.keywords.map Prod.snd))
      (Observer.foreignCalled l.observer call)
  foreignReturned l value := l.hear value.toList (Observer.foreignReturned l.observer value)
  globalRead l module name value :=
    l.hear [value] (Observer.globalRead l.observer module name value)
  globalRebind l module name value :=
    l.hear [value] (Observer.globalRebind l.observer module name value)
  attributeRebind l target name value :=
    l.hear [target, value] (Observer.attributeRebind l.observer target name value)

end Listener

namespace Tracer

variable {σ : Type} [Observer σ]

/-- The same tracer, with someone who listens in. -/
def listening (t : Tracer σ) : Tracer (Listener σ) :=
  { t with observer := ⟨t.observer, []⟩ }

/-- The values that the observer is told when an event comes, in order. -/
def told (t : Tracer σ) (e : Event) : List Value :=
  (t.listening.step e).1.observer.told

/-- The observer has been told values, and someone who listens in has heard them. -/
def heard (t : Tracer σ) (values : List Value) : Tracer (Listener σ) :=
  { t with observer := ⟨t.observer, values⟩ }

/-- The values that an event can tell the observer of, and the handles that are left: values of the
event, the arguments of a frame, or an exception as one value. -/
inductive Tells (t : Tracer σ) : Event → List Value → HandleSource → Prop
  | reported {e : Event} {values : List Value} (given : values ⊆ e.values) : Tells t e values t.handles
  | frame (f : Frame) : Tells t (.call f) (f.role t.handles).2.values (f.role t.handles).1
  | exception (raised : Raised) (traceback : TracebackId) :
      Tells t (.raise raised traceback) [(raised.toValue t.handles).2] (raised.toValue t.handles).1

variable {t : Tracer σ}

theorem report_listening (t : Tracer σ) (f : Frame) : t.listening.report f =
    ((t.report f).1.heard (f.role t.handles).2.values, (t.report f).2) := by
  have handles : t.listening.handles = t.handles := rfl
  unfold report
  rw [handles]
  generalize f.role t.handles = result
  obtain ⟨handles, receiver | args⟩ := result <;> rfl

/-- A frame that is not passed over. -/
theorem step_listening_call {f : Frame} (heeded : t.isIgnored f = false) :
    t.listening.step (.call f) =
      ((t.step (.call f)).1.heard (f.role t.handles).2.values, (t.step (.call f)).2) := by
  have same : t.listening.isIgnored f = false := heeded
  simp only [step, onCall, heeded, same, report_listening, Bool.false_eq_true, if_false]
  generalize t.report f = result
  obtain ⟨reported, descend⟩ := result
  cases descend <;> rfl

/-- Listening in changes nothing, and what is heard is one of the things that the event can tell. -/
theorem exists_tells (t : Tracer σ) (e : Event) : ∃ values,
    t.Tells e values (t.step e).1.handles ∧
      t.listening.step e = ((t.step e).1.heard values, (t.step e).2) := by
  have quiet : ([] : List Value) ⊆ e.values := List.nil_subset _
  cases e with
  | call f =>
    cases ignored : t.isIgnored f with
    | true =>
      have same : t.listening.isIgnored f = true := ignored
      refine ⟨[], ?_, ?_⟩
      · simp only [step, onCall, ignored, if_true]
        exact .reported quiet
      · simp only [step, onCall, ignored, same, if_true]
        rfl
    | false =>
      refine ⟨_, ?_, step_listening_call ignored⟩
      rw [handles_step_call ignored]
      exact .frame f
  | ret value handled =>
    have frames : t.listening.frames = t.frames := rfl
    simp only [step, onReturn, frames]
    split
    · exact ⟨[], .reported quiet, rfl⟩
    · split
      · exact ⟨[value], .reported (List.Subset.refl _), rfl⟩
      · exact ⟨[], .reported quiet, rfl⟩
  | raise raised traceback =>
    have frames : t.listening.frames = t.frames := rfl
    have settings : t.listening.settings = t.settings := rfl
    simp only [step, onRaise, frames, settings]
    split
    · exact ⟨[], .reported quiet, rfl⟩
    · split
      · exact ⟨[], .reported quiet, rfl⟩
      · split
        · exact ⟨[], .reported quiet, rfl⟩
        · split
          · exact ⟨[], .reported quiet, rfl⟩
          · exact ⟨_, .exception raised traceback, rfl⟩
  | foreignReturn value =>
    have depth : t.listening.foreignDepth = t.foreignDepth := rfl
    simp only [step, depth]
    split
    · exact ⟨[], .reported quiet, rfl⟩
    · exact ⟨value.toList, .reported (List.Subset.refl _), rfl⟩
  | foreignCall | globalRead | globalRebind | attributeRebind =>
    exact ⟨_, .reported (List.Subset.refl _), rfl⟩
  | moduleLoaded => exact ⟨[], .reported quiet, rfl⟩

/-- Listening in changes nothing. -/
theorem step_listening (t : Tracer σ) (e : Event) :
    t.listening.step e = ((t.step e).1.heard (t.told e), (t.step e).2) := by
  obtain ⟨values, -, eq⟩ := t.exists_tells e
  rw [told, eq]
  rfl

/-- What the observer is told is one of the things that the event can tell. -/
theorem tells_step (t : Tracer σ) (e : Event) : t.Tells e (t.told e) (t.step e).1.handles := by
  obtain ⟨values, tells, eq⟩ := t.exists_tells e
  rw [told, eq]
  exact tells

theorem told_call {f : Frame} (heeded : t.isIgnored f = false) :
    t.told (.call f) = (f.role t.handles).2.values := by
  rw [told, step_listening_call heeded]
  rfl

/-- An exception that is delivered to its frame is told as one value. -/
theorem told_raise {top : OpenFrame} {below : List OpenFrame} (frames : t.frames = top :: below)
    (traced : top.isTraced = true) {raised : Raised}
    (delivers : t.settings.delivers top.lastException raised = true) (traceback : TracebackId) :
    t.told (.raise raised traceback) = [(raised.toValue t.handles).2] := by
  rw [Settings.delivers, Bool.and_eq_true_iff, Bool.not_eq_true', Bool.not_eq_true'] at delivers
  obtain ⟨heeded, fresh⟩ := delivers
  simp only [told, step, onRaise, listening, heeded, frames, traced, fresh, Bool.not_true,
    Bool.false_eq_true, if_false]
  rfl

end Tracer

/-! ## What the host reports -/

/-- The values in an event, with all that they hold. -/
def Event.allValues (e : Event) : List Value := e.values.flatMap Value.all

theorem Event.IsReported.isBuilt_eq_false {e : Event} (reported : e.IsReported) {v : Value}
    (mem : v ∈ e.allValues) : v.handle.isBuilt = false := by
  obtain ⟨given, inside, mem⟩ := List.mem_flatMap.1 mem
  exact ((reported given inside).of_mem_all mem).handle

/-! ## What the tracer builds -/

/-- The host reports the exception only in parts. -/
def Raised.isInParts : Raised → Bool
  | .value _ => false
  | .message .. | .args .. | .text _ => true

namespace Tracer

variable {σ : Type} {t : Tracer σ}

/-- The values that the tracer builds when an event comes. -/
inductive Builds (t : Tracer σ) : Event → Value → Prop
  /-- The further arguments of a method, without the receiver that came first among them. -/
  | tail {f : Frame} {receiver : Value} {name : String} {tuple : Value}
      (repacks : f.Repacks receiver name tuple) :
      Builds t (.call f) (Frame.repacked t.handles.take.2 tuple)
  /-- An exception as one value. -/
  | exception {raised : Raised} (inParts : raised.isInParts = true) (traceback : TracebackId) :
      Builds t (.raise raised traceback) (raised.toValue t.handles).2
  /-- The message of an exception. -/
  | message (typeName content : String) (traceback : TracebackId) :
      Builds t (.raise (.message typeName content) traceback)
        (.literal (builtHeader t.handles.take.2 "str") (.text content))

theorem Builds.isBuilt {e : Event} {v : Value} (h : t.Builds e v) : v.handle.isBuilt = true := by
  cases h with
  | tail | message => rfl
  | @exception raised inParts =>
    cases raised with
    | value => cases inParts
    | message | args | text => rfl

/-- Of a frame, the tracer tells what the frame holds, and the tuple that it builds. -/
theorem mem_role {f : Frame} {v : Value}
    (mem : v ∈ (f.role t.handles).2.values.flatMap Value.all) :
    v ∈ (f.args.all.map Prod.snd).flatMap Value.all ∨ t.Builds (.call f) v := by
  rcases f.role_cases with ⟨receiver, name, tuple, repacks⟩ | ⟨role, same, values⟩
  · obtain ⟨items, found⟩ := repacks.exists_items
    have inTuple {w : Value} (held : w ∈ receiver :: items) (mem : v ∈ w.all) :
        v ∈ (f.args.all.map Prod.snd).flatMap Value.all := by
      rw [← Value.held_of_items? found] at held
      exact List.mem_flatMap.2 ⟨tuple, repacks.mem_args, Value.all_subset_of_mem_held held mem⟩
    rw [repacks.role] at mem
    obtain ⟨w, told, within⟩ := List.mem_flatMap.1 mem
    rcases List.mem_cons.1 told with rfl | told
    · exact .inl (inTuple List.mem_cons_self within)
    rcases List.mem_cons.1 told with rfl | keyword
    · rw [Value.all_eq] at within
      rcases List.mem_cons.1 within with rfl | within
      · exact .inr (.tail repacks)
      · rw [Frame.repacked_eq found] at within
        obtain ⟨item, inside, within⟩ := List.mem_flatMap.1 within
        exact .inl (inTuple (List.mem_cons_of_mem _ inside) within)
    · exact .inl (List.mem_flatMap.2 ⟨w, repacks.keywords_subset keyword, within⟩)
  · rw [same, values] at mem
    exact .inl mem

/-- Of an exception, the tracer tells what the host reports, and what it builds around it. -/
theorem mem_toValue {raised : Raised} {v : Value} (traceback : TracebackId)
    (mem : v ∈ (raised.toValue t.handles).2.all) :
    v ∈ raised.values.flatMap Value.all ∨ t.Builds (.raise raised traceback) v := by
  cases whole : raised.isInParts with
  | false =>
    cases raised with
    | value exception => exact .inl (List.mem_flatMap.2 ⟨exception, List.mem_cons_self, mem⟩)
    | message | args | text => cases whole
  | true =>
    rw [Value.all_eq] at mem
    rcases List.mem_cons.1 mem with rfl | mem
    · exact .inr (.exception whole traceback)
    · cases raised with
      | value => cases whole
      | args => exact .inl mem
      | text => cases mem
      | message typeName content =>
        obtain ⟨text, inside, mem⟩ := List.mem_flatMap.1 mem
        obtain rfl := List.mem_singleton.1 inside
        rw [Value.all_eq] at mem
        obtain rfl := List.mem_singleton.1 mem
        exact .inr (.message typeName content traceback)

/-- Every value that the observer is told of, or that is held by one, is held by the event, or is
one that the tracer builds. -/
theorem mem_told [Observer σ] {e : Event} {v : Value} (mem : v ∈ (t.told e).flatMap Value.all) :
    v ∈ e.allValues ∨ t.Builds e v := by
  have tells := t.tells_step e
  generalize t.told e = values at mem tells
  generalize (t.step e).1.handles = source at tells
  cases tells with
  | reported given =>
    obtain ⟨w, told, mem⟩ := List.mem_flatMap.1 mem
    exact .inl (List.mem_flatMap.2 ⟨w, given told, mem⟩)
  | frame f =>
    refine (mem_role mem).imp_left fun mem => ?_
    obtain ⟨arg, inside, mem⟩ := List.mem_flatMap.1 mem
    exact List.mem_flatMap.2 ⟨arg, List.mem_append_left _ inside, mem⟩
  | exception raised traceback =>
    rw [List.flatMap_singleton] at mem
    exact mem_toValue traceback mem

end Tracer

end Reenact
