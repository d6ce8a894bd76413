import Reenact.Proofs.Recording.TwoRuns
import Reenact.Proofs.Trace.Frames
import Reenact.Proofs.Trace.Roles

/-!
# Two runs, event by event

Two tracers that are told of the same event, with values that the host reports, go on alike as long as
the engine has handles left for the values that it builds. One of them may have built more values
before: all that is needed is that the handles that both hand out from now on stand for the same values
(`SourcesMatch`). Of the frames that are entered, an event looks at the innermost one at most.

**The law** (`TracersMatch.step`): one event leaves matching tracers, and both answer a call alike.
-/

namespace Reenact

/-! ## What the host reports -/

/-- The values in an exception. -/
def Raised.values : Raised → List Value
  | .value exception => [exception]
  | .args _ values => values
  | .message .. | .text _ => []

/-- The values in an event. -/
def Event.values : Event → List Value
  | .call f => f.args.all.map Prod.snd ++ f.generator.toList
  | .ret value _ => [value]
  | .raise raised _ => raised.values
  | .foreignCall c => c.receiver.toList ++ (c.args ++ c.keywords.map Prod.snd)
  | .foreignReturn value => value.toList
  | .globalRead _ _ value | .globalRebind _ _ value => [value]
  | .attributeRebind target _ value => [target, value]
  | .moduleLoaded .. => []

/-- The host reports all values in the event. -/
def Event.IsReported (e : Event) : Prop := ∀ v ∈ e.values, v.IsReported

/-- Links do not matter to the method that a recorder finds. -/
theorem Recorder.resolveMethod_congr {r : Recorder} {p : Project}
    (same : r.session.project.unlinked = p.unlinked) (name : String) (receiver : Value) :
    r.resolveMethod name receiver =
      (p.findClass receiver.typeName receiver.module).bind (p.findMethod · name) := by
  simp only [resolveMethod, Project.findClass_congr same, Project.findMethod_congr same]
  rfl

theorem Recorder.resolveFunction_congr {r : Recorder} {p : Project}
    (same : r.session.project.unlinked = p.unlinked) (name : String) (f : Frame) :
    r.resolveFunction name f = (p.moduleOfFile f.code.file).bind (p.findFunction name) := by
  simp only [resolveFunction, Project.moduleOfFile_congr same, Project.findFunction_congr same]
  rfl

/-- The event looks at the innermost frame. -/
def Event.looksAtFrame : Event → Bool
  | .ret .. | .raise .. => true
  | _ => false

theorem Event.looksAtFrame_of_plain {e : Event} (plain : e.isPlain = true)
    (quiet : e.isRaise = false) : e.looksAtFrame = false := by
  cases e with
  | call | ret | foreignCall | foreignReturn => cases plain
  | raise => cases quiet
  | globalRead | globalRebind | attributeRebind | moduleLoaded => rfl

namespace TwoRuns

variable {runs : TwoRuns} {ahead limit : Nat}

/-! ## Handles of values that are built -/

/-- One run has handed out more handles than the other, and up to a limit the handles that both hand
out next stand for the same values. -/
structure SourcesMatch (runs : TwoRuns) (ahead limit : Nat) (s s' : HandleSource) : Prop where
  count : s.count = s'.count + ahead
  pairs : ∀ n, s'.count < n → n + ahead ≤ limit → runs.pairs (.built (n + ahead)) (.built n)

variable {s s' : HandleSource}

theorem SourcesMatch.take (h : runs.SourcesMatch ahead limit s s') :
    runs.SourcesMatch ahead limit s.take.1 s'.take.1 where
  count := by
    show s.count + 1 = s'.count + 1 + ahead
    rw [h.count]
    omega
  pairs n lt le := h.pairs n (Nat.lt_of_succ_lt lt) le

theorem SourcesMatch.handle (h : runs.SourcesMatch ahead limit s s') (le : s.take.1.count ≤ limit) :
    runs.pairs s.take.2 s'.take.2 := by
  have le : s.count + 1 ≤ limit := le
  have count : s.count + 1 = s'.count + 1 + ahead := by
    rw [h.count]
    omega
  show runs.pairs (.built (s.count + 1)) (.built (s'.count + 1))
  rw [count] at le ⊢
  exact h.pairs _ (Nat.lt_succ_self _) le

/-- The headers of values of one type that are built with the next handle. -/
theorem SourcesMatch.builtHeader (h : runs.SourcesMatch ahead limit s s')
    (le : s.take.1.count ≤ limit) (typeName : String) :
    runs.HeadersMatch (builtHeader s.take.2 typeName) (builtHeader s'.take.2 typeName) :=
  ⟨h.handle le, rfl, rfl⟩

/-- An exception as one value in both runs. -/
theorem SourcesMatch.toValue (h : runs.SourcesMatch ahead limit s s') {raised : Raised}
    (reported : ∀ v ∈ raised.values, v.IsReported) (le : (raised.toValue s).1.count ≤ limit) :
    runs.SourcesMatch ahead limit (raised.toValue s).1 (raised.toValue s').1 ∧
      runs.ValuesMatch (raised.toValue s).2 (raised.toValue s').2 := by
  cases raised with
  | value exception => exact ⟨h, .reported (reported exception List.mem_cons_self)⟩
  | message typeName content =>
    have first : s.take.1.count ≤ limit := Nat.le_of_succ_le le
    exact ⟨h.take.take, .exception (h.take.builtHeader le typeName)
      (.cons (.literal (h.builtHeader first "str") (.text content)) .nil) true⟩
  | args typeName values =>
    exact ⟨h.take, .exception (h.builtHeader le typeName) (valuesMatch_of_reported reported) true⟩
  | text content => exact ⟨h.take, .literal (h.builtHeader le "str") (.text content)⟩

/-- What a frame runs in both runs. -/
inductive RolesMatch (runs : TwoRuns) : FrameRole → FrameRole → Prop
  | method {receiver : Value} {args args' : NamedValues} (reported : receiver.IsReported)
      (values : runs.ArgsMatch args args') :
      runs.RolesMatch (.method receiver args) (.method receiver args')
  | function {args : NamedValues} (values : runs.ArgsMatch args args) :
      runs.RolesMatch (.function args) (.function args)

theorem argsMatch_of_reported {args : NamedValues} (reported : ∀ v ∈ args.map Prod.snd, v.IsReported) :
    runs.ArgsMatch args args :=
  List.forall₂_same.2 fun _ mem => ⟨rfl, .reported (reported _ (List.mem_map_of_mem mem))⟩

/-- The receiver and the items after it are reported where they come out of a tuple. -/
theorem exists_items_reported {f : Frame} {receiver : Value} {name : String} {tuple : Value}
    (repacks : f.Repacks receiver name tuple)
    (reported : ∀ v ∈ f.args.all.map Prod.snd, v.IsReported) :
    ∃ items, tuple.items? = some (receiver :: items) ∧ receiver.IsReported ∧
      ∀ v ∈ items, v.IsReported := by
  obtain ⟨items, found⟩ := repacks.exists_items
  have held : ∀ v ∈ receiver :: items, v.IsReported := fun v mem =>
    (reported tuple repacks.mem_args).of_mem_held (Value.held_of_items? found ▸ mem)
  exact ⟨items, found, List.forall_mem_cons.1 held⟩

theorem SourcesMatch.role (h : runs.SourcesMatch ahead limit s s') {f : Frame}
    (reported : ∀ v ∈ f.args.all.map Prod.snd, v.IsReported) (le : (f.role s).1.count ≤ limit) :
    runs.SourcesMatch ahead limit (f.role s).1 (f.role s').1 ∧
      runs.RolesMatch (f.role s).2 (f.role s').2 := by
  rcases f.role_cases with ⟨receiver, name, tuple, repacks⟩ | ⟨role, same, values⟩
  · obtain ⟨items, found, first, others⟩ := exists_items_reported repacks reported
    have keywords : ∀ v ∈ f.args.keywords.toList.map Prod.snd, v.IsReported :=
      fun v mem => reported v (repacks.keywords_subset mem)
    rw [repacks.role] at le
    rw [repacks.role, repacks.role, Frame.repacked_eq found, Frame.repacked_eq found]
    have tails := ValuesMatch.sequence (h.builtHeader le Shape.tuple.typeName) .tuple
      (valuesMatch_of_reported others)
    exact ⟨h.take, .method first (.cons ⟨rfl, tails⟩ (argsMatch_of_reported keywords))⟩
  · rw [same, same]
    rw [← values] at reported
    cases role with
    | method receiver args =>
      obtain ⟨first, others⟩ := List.forall_mem_cons.1 reported
      exact ⟨h, .method first (argsMatch_of_reported others)⟩
    | function args => exact ⟨h, .function (argsMatch_of_reported reported)⟩

/-! ## Recorders -/

/-- Recorders that recorded the same, apart from numbers and handles, and have the same running. -/
structure RecordersMatch (runs : TwoRuns) (r r' : Recorder) : Prop where
  session : runs.SessionsMatch r.session r'.session
  mutations : r.mutations = r'.mutations
  settings : r.settings = r'.settings
  stack : r.stack = r'.stack
  lastTraceback : r.lastTraceback = r'.lastTraceback

variable {r r' : Recorder} {t t' : Session} {v v' : Value} {args args' : NamedValues}

theorem RecordersMatch.currentCall (h : runs.RecordersMatch r r') : r.currentCall = r'.currentCall := by
  rw [Recorder.currentCall, h.stack, Recorder.currentCall]

theorem RecordersMatch.withSession (h : runs.RecordersMatch r r') (sessions : runs.SessionsMatch t t') :
    runs.RecordersMatch { r with session := t } { r' with session := t' } :=
  { h with session := sessions }

/-- The same comes to run in both. -/
theorem RecordersMatch.push (h : runs.RecordersMatch r r') (sessions : runs.SessionsMatch t t')
    (running : Running) :
    runs.RecordersMatch { r with session := t, stack := running :: r.stack }
      { r' with session := t', stack := running :: r'.stack } :=
  { h with session := sessions, stack := by rw [h.stack] }

theorem RecordersMatch.resolveMethod (h : runs.RecordersMatch r r') (name : String)
    (receiver : Value) : r.resolveMethod name receiver = r'.resolveMethod name receiver :=
  (Recorder.resolveMethod_congr h.session.unlinked ..).trans
    (Recorder.resolveMethod_congr rfl ..).symm

theorem RecordersMatch.resolveFunction (h : runs.RecordersMatch r r') (name : String) (f : Frame) :
    r.resolveFunction name f = r'.resolveFunction name f :=
  (Recorder.resolveFunction_congr h.session.unlinked ..).trans
    (Recorder.resolveFunction_congr rfl ..).symm

/-- What both recorders answer to a call. -/
structure RepliesMatch (runs : TwoRuns) (a b : Recorder × Bool) : Prop where
  recorders : runs.RecordersMatch a.1 b.1
  same : a.2 = b.2

theorem RecordersMatch.opened (h : runs.RecordersMatch r r') {a b : Session × Except Fault CallId}
    (answers : runs.AnswersMatch a b) : runs.RepliesMatch (r.opened a) (r'.opened b) := by
  obtain ⟨t, answer⟩ := a
  obtain ⟨t', answer'⟩ := b
  obtain ⟨sessions, same⟩ := answers
  obtain rfl : answer = answer' := same
  cases answer with
  | ok id => exact ⟨h.push sessions (.call id), rfl⟩
  | error fault => exact ⟨h.withSession sessions, rfl⟩

theorem RecordersMatch.methodCalled (h : runs.RecordersMatch r r') (name : String) {receiver : Value}
    (reported : receiver.IsReported) (values : runs.ArgsMatch args args') {f : Frame}
    (generator : ∀ v ∈ f.generator, v.IsReported) :
    runs.RepliesMatch (r.methodCalled name receiver args f) (r'.methodCalled name receiver args' f) := by
  unfold Recorder.methodCalled
  rw [← h.resolveMethod, ← h.currentCall]
  cases r.resolveMethod name receiver with
  | none => exact ⟨h, rfl⟩
  | some method =>
    cases resumed : f.generator with
    | none => exact h.opened (h.session.callMethod method (.reported reported) values _)
    | some g =>
      have observed : g.IsReported := generator g resumed
      exact h.opened (h.session.resume (.reported observed) _ values (.some (.reported reported)) _)

theorem RecordersMatch.functionCalled (h : runs.RecordersMatch r r') (name : String)
    (values : runs.ArgsMatch args args') {f : Frame} (generator : ∀ v ∈ f.generator, v.IsReported) :
    runs.RepliesMatch (r.functionCalled name args f) (r'.functionCalled name args' f) := by
  unfold Recorder.functionCalled
  rw [← h.resolveFunction, ← h.currentCall]
  cases r.resolveFunction name f with
  | none => exact ⟨h, rfl⟩
  | some function =>
    cases resumed : f.generator with
    | none => exact h.opened ((h.session.callFunction function values _).map Except.ok)
    | some g =>
      have observed : g.IsReported := generator g resumed
      exact h.opened (h.session.resume (.reported observed) _ values .none _)

/-- A step that sees neither number nor handles, tried in both runs. -/
theorem SessionsMatch.attempt (h : runs.SessionsMatch t t')
    {step : Recording → Except Fault Recording} (blind : Recording.IsBlindStep step) :
    runs.SessionsMatch (Recorder.attempt t step) (Recorder.attempt t' step) := by
  have attempt_eq (t : Session) :
      Recorder.attempt t step = t.record fun r => (step r).toOption.getD r := by
    unfold Recorder.attempt Session.record
    dsimp only
    cases step t.recording <;> rfl
  rw [attempt_eq, attempt_eq]
  refine h.record fun r id known => ?_
  rw [blind]
  cases step r <;> rfl

theorem SessionsMatch.setOutcome (h : runs.SessionsMatch t t') (id : CallId) (outcome : Outcome) :
    runs.SessionsMatch (Recorder.attempt t fun r => r.setOutcome id outcome)
      (Recorder.attempt t' fun r => r.setOutcome id outcome) :=
  h.attempt (Recording.isBlindStep_setOutcome id outcome)

theorem SessionsMatch.complete (h : runs.SessionsMatch t t') (id : CallId) :
    runs.SessionsMatch (Recorder.attempt t fun r => r.complete id)
      (Recorder.attempt t' fun r => r.complete id) :=
  h.attempt (Recording.isBlindStep_complete id)

theorem SessionsMatch.closeCall (h : runs.SessionsMatch t t') (id : CallId)
    (values : runs.ValuesMatch v v') (isHandled : Bool) :
    runs.SessionsMatch (Recorder.closeCall t id v isHandled)
      (Recorder.closeCall t' id v' isHandled) := by
  unfold Recorder.closeCall
  rw [h.call?]
  dsimp only
  split
  · obtain ⟨noted, same⟩ := h.serialize values
    rw [same]
    exact (noted.setOutcome id _).complete id
  · exact h.complete id

theorem RecordersMatch.returned (h : runs.RecordersMatch r r') (values : runs.ValuesMatch v v')
    (handled : Option TracebackId) :
    runs.RecordersMatch (r.returned v handled) (r'.returned v' handled) := by
  have same : r.hasHandled handled = r'.hasHandled handled := by
    rw [Recorder.hasHandled, h.lastTraceback, Recorder.hasHandled]
  unfold Recorder.returned
  rw [← h.stack, ← same]
  split
  · exact h
  · exact { h with stack := rfl }
  · exact { h with session := h.session.closeCall _ values _, stack := rfl }

theorem RecordersMatch.raised (h : runs.RecordersMatch r r') (values : runs.ValuesMatch v v')
    (traceback : TracebackId) :
    runs.RecordersMatch (r.raised v traceback) (r'.raised v' traceback) := by
  unfold Recorder.raised
  rw [← h.stack]
  split
  · rename_i id rest top
    obtain ⟨noted, same⟩ := h.session.serialize values
    have failed := noted.setOutcome id (.raised (r'.session.serialize v').2)
    dsimp only
    rw [same]
    exact { h with session := failed, stack := rfl, lastTraceback := rfl }
  · exact h

/-- A side effect of the innermost call, after its values were recorded. -/
theorem RecordersMatch.addEffect (h : runs.RecordersMatch r r') (change : Change) :
    runs.RecordersMatch (r.addEffect change) (r'.addEffect change) := by
  unfold Recorder.addEffect
  rw [← h.currentCall]
  exact h.withSession (h.session.addEffect change _)

theorem RecordersMatch.foreignCalled (h : runs.RecordersMatch r r') {call : Foreign}
    (reported : (Event.foreignCall call).IsReported) :
    runs.RecordersMatch (r.foreignCalled call) (r'.foreignCalled call) := by
  have same : r.mutationOf? call = r'.mutationOf? call := by
    simp only [Recorder.mutationOf?, h.settings, h.mutations]
  unfold Recorder.foreignCalled
  rw [← same]
  cases found : r.mutationOf? call with
  | none => exact h.push h.session (.foreign none)
  | some mutation =>
    obtain ⟨op, receiver⟩ := mutation
    have observed : receiver.IsReported := by
      obtain ⟨receiver', there, found⟩ := Option.bind_eq_some_iff.1 found
      split at found
      · obtain ⟨op', -, eq⟩ := Option.bind_eq_some_iff.1 found
        cases eq
        exact reported receiver (List.mem_append_left _ (Option.mem_toList.2 there))
      · cases found
    obtain ⟨noted, receivers⟩ := h.session.serialize (.reported observed)
    obtain ⟨recorded, args⟩ := noted.serializeAll
      (valuesMatch_of_reported fun v mem => reported v (List.mem_append_right _ mem))
    dsimp only
    rw [← receivers, ← args]
    exact h.push recorded _

theorem RecordersMatch.foreignReturned (h : runs.RecordersMatch r r') (value : Option Value) :
    runs.RecordersMatch (r.foreignReturned value) (r'.foreignReturned value) := by
  unfold Recorder.foreignReturned
  rw [← h.stack]
  split
  · rename_i mutation rest top
    have left : runs.RecordersMatch { r with stack := rest } { r' with stack := rest } :=
      { h with stack := rfl }
    dsimp only
    split
    · exact left.addEffect _
    · exact left
  · exact h

theorem RecordersMatch.globalRead (h : runs.RecordersMatch r r') (module name : String)
    (values : runs.ValuesMatch v v') :
    runs.RecordersMatch (r.globalRead module name v) (r'.globalRead module name v') := by
  have reads : r.settings.recordsGlobalReads = r'.settings.recordsGlobalReads := by rw [h.settings]
  unfold Recorder.globalRead
  rw [← reads]
  split
  · obtain ⟨noted, same⟩ := h.session.serialize values
    dsimp only
    rw [← same]
    exact (h.withSession noted).addEffect (.globalRead module name _)
  · exact h

theorem RecordersMatch.globalRebind (h : runs.RecordersMatch r r') (module name : String)
    (values : runs.ValuesMatch v v') :
    runs.RecordersMatch (r.globalRebind module name v) (r'.globalRebind module name v') := by
  obtain ⟨noted, same⟩ := h.session.serialize values
  unfold Recorder.globalRebind
  dsimp only
  rw [← same]
  exact (h.withSession noted).addEffect (.globalRebind module name _)

theorem RecordersMatch.attributeRebind (h : runs.RecordersMatch r r') {target value : Value}
    (reported : (Event.attributeRebind target name value).IsReported) :
    runs.RecordersMatch (r.attributeRebind target name value)
      (r'.attributeRebind target name value) := by
  unfold Recorder.attributeRebind
  rw [← Project.findClass_congr h.session.unlinked]
  split
  · exact h
  · have targets : target.IsReported := reported target List.mem_cons_self
    have values : value.IsReported := reported value (List.mem_cons_of_mem _ List.mem_cons_self)
    obtain ⟨first, same⟩ := h.session.serialize (.reported targets)
    obtain ⟨second, same'⟩ := first.serialize (.reported values)
    dsimp only
    rw [← same, ← same']
    exact (h.withSession second).addEffect (.attributeRebind _ name _)

/-! ## Tracers -/

/-- Tracers that go on alike whatever they are told, apart from the frames that are entered. -/
structure TracersMatch (runs : TwoRuns) (ahead limit : Nat) (t t' : Tracer Recorder) : Prop where
  observer : runs.RecordersMatch t.observer t'.observer
  settings : t.settings = t'.settings
  ignored : t.ignored = t'.ignored
  foreignDepth : t.foreignDepth = t'.foreignDepth
  handles : runs.SourcesMatch ahead limit t.handles t'.handles

variable {tr tr' : Tracer Recorder}

theorem TracersMatch.isIgnored (h : runs.TracersMatch ahead limit tr tr') (f : Frame) :
    tr.isIgnored f = tr'.isIgnored f := by
  rw [Tracer.isIgnored, h.settings, h.ignored, Tracer.isIgnored]

/-- Both observers are told of a frame and reply alike. -/
theorem TracersMatch.report (h : runs.TracersMatch ahead limit tr tr') {f : Frame}
    (reported : (Event.call f).IsReported) (le : (tr.report f).1.handles.count ≤ limit) :
    runs.TracersMatch ahead limit (tr.report f).1 (tr'.report f).1 ∧
      (tr.report f).2 = (tr'.report f).2 := by
  have args : ∀ v ∈ f.args.all.map Prod.snd, v.IsReported :=
    fun v mem => reported v (List.mem_append_left _ mem)
  have generator : ∀ v ∈ f.generator, v.IsReported :=
    fun v mem => reported v (List.mem_append_right _ (Option.mem_toList.2 mem))
  obtain ⟨sources, roles⟩ := h.handles.role args le
  unfold Tracer.report
  generalize f.role tr.handles = a at sources roles ⊢
  generalize f.role tr'.handles = b at sources roles ⊢
  obtain ⟨source, role⟩ := a
  obtain ⟨source', role'⟩ := b
  cases roles with
  | method receiver values =>
    have replies := h.observer.methodCalled f.code.name receiver values generator
    exact ⟨{ h with observer := replies.recorders, handles := sources }, replies.same⟩
  | function values =>
    have replies := h.observer.functionCalled f.code.name values generator
    exact ⟨{ h with observer := replies.recorders, handles := sources }, replies.same⟩

/-- A call leaves matching tracers, which answer alike whether to follow it. -/
theorem TracersMatch.step_call (h : runs.TracersMatch ahead limit tr tr') {f : Frame}
    (reported : (Event.call f).IsReported) (le : (tr.step (.call f)).1.handles.count ≤ limit) :
    runs.TracersMatch ahead limit (tr.step (.call f)).1 (tr'.step (.call f)).1 ∧
      (tr.step (.call f)).2.descend = (tr'.step (.call f)).2.descend := by
  simp only [Tracer.step, Tracer.onCall, ← h.isIgnored] at le ⊢
  split
  · exact ⟨{ h with }, rfl⟩
  · rename_i heeded
    rw [if_neg heeded] at le
    have counts : (tr.report f).1.handles.count ≤ limit := by
      generalize tr.report f = a at le ⊢
      obtain ⟨told, descend⟩ := a
      cases descend <;> exact le
    obtain ⟨tracers, same⟩ := h.report reported counts
    generalize tr.report f = a at tracers same ⊢
    generalize tr'.report f = b at tracers same ⊢
    obtain ⟨told, descend⟩ := a
    obtain ⟨told', descend'⟩ := b
    obtain rfl : descend = descend' := same
    cases descend <;> exact ⟨{ tracers with }, rfl⟩

theorem TracersMatch.step_ret (h : runs.TracersMatch ahead limit tr tr') {value : Value}
    {handled : Option TracebackId} (top : tr.frames.head? = tr'.frames.head?)
    (reported : (Event.ret value handled).IsReported) :
    runs.TracersMatch ahead limit (tr.step (.ret value handled)).1
      (tr'.step (.ret value handled)).1 := by
  have returned := h.observer.returned (.reported (reported value List.mem_cons_self)) handled
  simp only [Tracer.step, Tracer.onReturn]
  cases frames : tr.frames with
  | nil =>
    cases frames' : tr'.frames with
    | nil => exact h
    | cons => simp [frames, frames'] at top
  | cons first rest =>
    cases frames' : tr'.frames with
    | nil => simp [frames, frames'] at top
    | cons first' rest' =>
      obtain rfl : first = first' := by simpa [frames, frames'] using top
      dsimp only
      split
      · exact { h with observer := returned }
      · exact { h with }

theorem TracersMatch.step_raise (h : runs.TracersMatch ahead limit tr tr') {raised : Raised}
    {traceback : TracebackId} (top : tr.frames.head? = tr'.frames.head?)
    (reported : (Event.raise raised traceback).IsReported)
    (le : (tr.step (.raise raised traceback)).1.handles.count ≤ limit) :
    runs.TracersMatch ahead limit (tr.step (.raise raised traceback)).1
      (tr'.step (.raise raised traceback)).1 ∧
    (tr.step (.raise raised traceback)).1.frames.head? =
      (tr'.step (.raise raised traceback)).1.frames.head? := by
  simp only [Tracer.step, Tracer.onRaise, ← h.settings] at le ⊢
  split
  · exact ⟨h, top⟩
  · rename_i heeded
    rw [if_neg heeded] at le
    cases frames : tr.frames with
    | nil =>
      cases frames' : tr'.frames with
      | nil => exact ⟨h, top⟩
      | cons => simp [frames, frames'] at top
    | cons first rest =>
      cases frames' : tr'.frames with
      | nil => simp [frames, frames'] at top
      | cons first' rest' =>
        obtain rfl : first = first' := by simpa [frames, frames'] using top
        rw [frames] at le
        dsimp only at le ⊢
        split
        · exact ⟨h, top⟩
        · rename_i traced
          rw [if_neg traced] at le
          split
          · exact ⟨h, top⟩
          · rename_i fresh
            rw [if_neg fresh] at le
            obtain ⟨sources, values⟩ := h.handles.toValue reported le
            exact ⟨{ h with
              observer := h.observer.raised values traceback
              settings := rfl
              handles := sources }, rfl⟩

/-- One event leaves matching tracers, if the innermost frames are the same where the event looks at
them. -/
theorem TracersMatch.step (h : runs.TracersMatch ahead limit tr tr') (e : Event)
    (top : e.looksAtFrame = false ∨ tr.frames.head? = tr'.frames.head?) (reported : e.IsReported)
    (le : (tr.step e).1.handles.count ≤ limit) :
    runs.TracersMatch ahead limit (tr.step e).1 (tr'.step e).1 := by
  cases e with
  | call f => exact (h.step_call reported le).1
  | ret value handled => exact h.step_ret (top.resolve_left Bool.false_ne_true.symm) reported
  | raise raised traceback =>
    exact (h.step_raise (top.resolve_left Bool.false_ne_true.symm) reported le).1
  | foreignCall call =>
    exact { h with
      observer := h.observer.foreignCalled reported
      foreignDepth := congrArg (· + 1) h.foreignDepth }
  | foreignReturn value =>
    simp only [Tracer.step, ← h.foreignDepth]
    split
    · exact h
    · exact { h with observer := h.observer.foreignReturned value, foreignDepth := rfl }
  | globalRead module name value =>
    have observed : value.IsReported := reported value List.mem_cons_self
    exact { h with observer := h.observer.globalRead module name (.reported observed) }
  | globalRebind module name value =>
    have observed : value.IsReported := reported value List.mem_cons_self
    exact { h with observer := h.observer.globalRebind module name (.reported observed) }
  | attributeRebind target name value =>
    exact { h with observer := h.observer.attributeRebind reported }
  | moduleLoaded module codes => exact { h with }

/-! ## Streams -/

/-- A frame hands out handles and takes none back. -/
theorem count_le_role (f : Frame) (source : HandleSource) :
    source.count ≤ (f.role source).1.count := by
  rcases f.role_cases with ⟨receiver, name, tuple, repacks⟩ | ⟨role, same, -⟩
  · rw [repacks.role]
    exact Nat.le_succ _
  · exact Nat.le_of_eq (by rw [same])

theorem count_le_toValue (raised : Raised) (source : HandleSource) :
    source.count ≤ (raised.toValue source).1.count := by
  cases raised with
  | value => exact Nat.le_refl _
  | message => exact Nat.le_add_right source.count 2
  | args | text => exact Nat.le_succ _

theorem count_le_step (t : Tracer Recorder) (e : Event) :
    t.handles.count ≤ (t.step e).1.handles.count := by
  cases e with
  | call f =>
    simp only [Tracer.step, Tracer.onCall]
    split
    · exact Nat.le_refl _
    · split <;> exact count_le_role f t.handles
  | ret value handled =>
    simp only [Tracer.step, Tracer.onReturn]
    split
    · exact Nat.le_refl _
    · split <;> exact Nat.le_refl _
  | raise raised traceback =>
    simp only [Tracer.step, Tracer.onRaise]
    split
    · exact Nat.le_refl _
    · split
      · exact Nat.le_refl _
      · split
        · exact Nat.le_refl _
        · split
          · exact Nat.le_refl _
          · exact count_le_toValue raised t.handles
  | foreignReturn value =>
    simp only [Tracer.step]
    split <;> exact Nat.le_refl _
  | foreignCall | globalRead | globalRebind | attributeRebind | moduleLoaded => exact Nat.le_refl _

theorem count_le_run (t : Tracer Recorder) (events : List Event) :
    t.handles.count ≤ (t.run events).handles.count := by
  induction events generalizing t with
  | nil => exact Nat.le_refl _
  | cons e rest ih => exact Nat.le_trans (count_le_step t e) (ih _)

/-- An event that opens and closes nothing leaves the innermost frames the same if they were. -/
theorem TracersMatch.head?_frames_step (h : runs.TracersMatch ahead limit tr tr')
    (top : tr.frames.head? = tr'.frames.head?) {e : Event} (plain : e.isPlain = true)
    (reported : e.IsReported) (le : (tr.step e).1.handles.count ≤ limit) :
    (tr.step e).1.frames.head? = (tr'.step e).1.frames.head? := by
  by_cases quiet : e.isRaise = false
  · rw [Tracer.frames_step_plain plain quiet, Tracer.frames_step_plain plain quiet, top]
  · cases e with
    | raise raised traceback => exact (h.step_raise top reported le).2
    | _ => exact absurd rfl quiet

/-- What happens at any depth, up to where everything is closed again, looks at no frame but the
innermost one. -/
theorem TracersMatch.run_tree (h : runs.TracersMatch ahead limit tr tr') (b : Bracketed)
    (top : tr.frames.head? = tr'.frames.head?) (reported : ∀ e ∈ b.events, e.IsReported)
    (le : (tr.run b.events).handles.count ≤ limit) :
    runs.TracersMatch ahead limit (tr.run b.events) (tr'.run b.events) ∧
      (tr.run b.events).frames.head? = (tr'.run b.events).frames.head? := by
  induction b generalizing tr tr' with
  | done => exact ⟨h, top⟩
  | plain e plain rest ih =>
    rw [Bracketed.events, List.forall_mem_cons] at reported
    have here := Nat.le_trans (count_le_run _ rest.events) le
    exact ih (h.step e (.inr top) reported.1 here)
      (h.head?_frames_step top plain reported.1 here) reported.2 le
  | foreign call inside result rest inside_ih rest_ih =>
    simp only [Bracketed.events, Tracer.run_cons, Tracer.run_append, List.forall_mem_cons,
      List.forall_mem_append] at reported le ⊢
    obtain ⟨first, inner, last, later⟩ := reported
    have left := Nat.le_trans (count_le_run _ rest.events) le
    have before := Nat.le_trans (count_le_step _ (.foreignReturn result)) left
    have entered := h.step (.foreignCall call) (.inl rfl) first
      (Nat.le_trans (count_le_run _ inside.events) before)
    obtain ⟨ended, tops⟩ := inside_ih entered top inner before
    refine rest_ih (ended.step (.foreignReturn result) (.inl rfl) last left) ?_ later le
    rw [Tracer.frames_step_foreignReturn, Tracer.frames_step_foreignReturn, tops]
  | frame f inside value handled rest inside_ih rest_ih =>
    simp only [Bracketed.events, Tracer.run_cons, Tracer.run_append, List.forall_mem_cons,
      List.forall_mem_append] at reported le ⊢
    obtain ⟨first, inner, last, later⟩ := reported
    have left := Nat.le_trans (count_le_run _ rest.events) le
    have before := Nat.le_trans (count_le_step _ (.ret value handled)) left
    obtain ⟨entered, same⟩ := h.step_call first (Nat.le_trans (count_le_run _ inside.events) before)
    have tops : (tr.step (.call f)).1.frames.head? = (tr'.step (.call f)).1.frames.head? := by
      rw [Tracer.frames_step_call, Tracer.frames_step_call, same]
      rfl
    obtain ⟨ended, tops⟩ := inside_ih entered tops inner before
    refine rest_ih (ended.step_ret tops last) ?_ later le
    rw [Tracer.frames_frame, Tracer.frames_frame, top]

/-- A whole frame looks at none of the frames around it. -/
theorem TracersMatch.run_frame (h : runs.TracersMatch ahead limit tr tr') {f : Frame}
    {inside : Bracketed} {value : Value} {handled : Option TracebackId}
    (call : (Event.call f).IsReported) (inner : ∀ e ∈ inside.events, e.IsReported)
    (ret : (Event.ret value handled).IsReported)
    (le : ((tr.step (.call f)).1.run inside.events).handles.count ≤ limit) :
    runs.TracersMatch ahead limit
      (((tr.step (.call f)).1.run inside.events).step (.ret value handled)).1
      (((tr'.step (.call f)).1.run inside.events).step (.ret value handled)).1 := by
  obtain ⟨entered, same⟩ := h.step_call call (Nat.le_trans (count_le_run _ inside.events) le)
  have tops : (tr.step (.call f)).1.frames.head? = (tr'.step (.call f)).1.frames.head? := by
    rw [Tracer.frames_step_call, Tracer.frames_step_call, same]
    rfl
  obtain ⟨ended, tops⟩ := entered.run_tree inside tops inner le
  exact ended.step_ret tops ret

/-- Where the frames were the same, an event leaves them the same. -/
theorem TracersMatch.frames_step (h : runs.TracersMatch ahead limit tr tr')
    (frames : tr.frames = tr'.frames) {e : Event} (reported : e.IsReported)
    (le : (tr.step e).1.handles.count ≤ limit) :
    (tr.step e).1.frames = (tr'.step e).1.frames := by
  by_cases plain : e.isPlain = true
  · have head := h.head?_frames_step (congrArg List.head? frames) plain reported le
    have tail : (tr.step e).1.frames.tail = (tr'.step e).1.frames.tail := by
      rw [Tracer.tail_frames_step_plain plain, Tracer.tail_frames_step_plain plain, frames]
    generalize (tr.step e).1.frames = l at head tail ⊢
    generalize (tr'.step e).1.frames = m at head tail ⊢
    cases l <;> cases m <;> simp_all
  · cases e with
    | call f =>
      rw [Tracer.frames_step_call, Tracer.frames_step_call, (h.step_call reported le).2, frames]
    | ret value handled => rw [Tracer.frames_step_ret, Tracer.frames_step_ret, frames]
    | foreignCall call => exact frames
    | foreignReturn value =>
      rw [Tracer.frames_step_foreignReturn, Tracer.frames_step_foreignReturn, frames]
    | raise | globalRead | globalRebind | attributeRebind | moduleLoaded => exact absurd rfl plain

/-- Any events leave matching tracers, with the same frames if they were. -/
theorem TracersMatch.run (h : runs.TracersMatch ahead limit tr tr') (frames : tr.frames = tr'.frames)
    {events : List Event} (reported : ∀ e ∈ events, e.IsReported)
    (le : (tr.run events).handles.count ≤ limit) :
    runs.TracersMatch ahead limit (tr.run events) (tr'.run events) ∧
      (tr.run events).frames = (tr'.run events).frames := by
  induction events generalizing tr tr' with
  | nil => exact ⟨h, frames⟩
  | cons e rest ih =>
    obtain ⟨first, later⟩ := List.forall_mem_cons.1 reported
    have here := Nat.le_trans (count_le_run _ rest) le
    have top : tr.frames.head? = tr'.frames.head? := congrArg List.head? frames
    exact ih (h.step e (.inr top) first here) (h.frames_step frames first here) later le

end TwoRuns

end Reenact
