import Reenact.Proofs.Recording.Newness
import Reenact.Proofs.Trace.Building
import Reenact.Proofs.Trace.Methods
import Reenact.Proofs.Trace.Raising

/-!
# Built values are new

Handles stand for objects, so a value that the tracer builds would take the place of another one if
its handle had been given out before, by the host or by the tracer. It never was: the two keep to
ranges of their own, the tracer counts, and no handle that a recording knows is one that the tracer
will give out (`Watch.number_le_of_lookup`). To see the latter, a run is compared with itself, where
a handle stands for the same value on both sides only if it is not one of those to come.

**The law** (`Watch.buildsApart`): in every stream of events the values that the tracer builds
differ in their handles from those of the host and from one another, and whatever they are recorded
as is new. So is an exception that the host reports in parts, when it is delivered to a call, and so
is the tuple of the further arguments of a method, when it is recorded with its call or its
generator.
-/

namespace Reenact

/-! ## One observation -/

namespace Session

open Recording (namesNew_of_known)

variable {s t : Session} {id : CallId}

theorem SetsOutcome.namesNew (sets : s.SetsOutcome id t) : s.recording.NamesNew t.recording := by
  obtain ⟨noted, outcome, notes, -, rfl⟩ := sets
  exact notes.namesNew_of_known rfl

theorem Closes.namesNew (closes : s.Closes id t) : s.recording.NamesNew t.recording := by
  obtain ⟨before, rfl | sets, rfl⟩ := closes
  · exact namesNew_of_known rfl
  · exact sets.namesNew

end Session

namespace Recorder

open Recording (namesNew_of_known)

/-- No observation lets a handle stand for an object that was there. -/
theorem Step.namesNew {r r' : Recorder} (step : r.Step r') :
    r.session.recording.NamesNew r'.session.recording := by
  cases step with
  | noted notes => exact notes.namesNew
  | opened opens => exact opens.namesNew
  | failed traceback top sets => exact sets.namesNew
  | closed top closes => exact closes.namesNew
  | entered notes known => exact notes.namesNew
  | left top => exact namesNew_of_known rfl
  | mutated top => exact namesNew_of_known (Recording.known_pushEffect ..)
  | affected notes known => exact notes.namesNew_of_known (Recording.known_pushEffect ..)

/-- Generators that are made when a method is called are made with its arguments. -/
theorem makesWith_methodCalled (r : Recorder) (name : String) (receiver : Value)
    (args : NamedValues) (f : Frame) :
    r.session.MakesWith args (r.methodCalled name receiver args f).1.session := by
  unfold methodCalled
  split
  · exact Session.makesWith_of_makesNone (Recording.makesNone_of_objects rfl)
  · split
    · rw [session_opened]
      exact Session.makesWith_resume _ _ _ _ _ _
    · rw [session_opened]
      exact Session.makesWith_of_makesNone (Session.makesNone_callMethod _ _ _ _ _)

end Recorder

/-! ## Arguments out of a tuple -/

/-- Arguments that the second recording has and the first one has not: those of a method that was
called, or of a generator that was made. -/
inductive Recording.Gets (r s : Recording) : Arguments → Prop
  | method {c : Call} {receiver : ObjectId} (found : s.call? ⟨r.calls.size⟩ = some c)
      (kind : c.kind = .method receiver) : Gets r s c.input
  | generator {x : ObjectId} {o : Object} {activation : Activation} (found : s.object? x = some o)
      (made : o.kind.activation? = some activation)
      (unmade : ∀ o', r.object? x = some o' → o'.kind.activation? = none) :
      Gets r s activation.args

namespace Tracer

variable {t : Tracer Recorder} {f : Frame} {receiver tuple : Value} {name : String}

theorem makesWith_step_call (repacks : f.Repacks receiver name tuple) :
    t.observer.session.MakesWith
      ((name, Frame.repacked t.handles.take.2 tuple) :: f.args.keywords.toList)
      (t.step (.call f)).1.observer.session := by
  cases ignored : t.isIgnored f with
  | true =>
    rw [step, onCall, if_pos ignored]
    exact Session.makesWith_of_makesNone (Recording.makesNone_of_objects rfl)
  | false =>
    rw [observer_step_call ignored, report, repacks.role]
    exact Recorder.makesWith_methodCalled _ _ _ _ _

/-- What a frame is recorded with whose receiver comes out of a tuple: the new tuple, and the
keyword arguments. -/
theorem knows_of_gets (nests : t.observer.Nests) (repacks : f.Repacks receiver name tuple)
    {args : Arguments} (gets : t.recording.Gets (t.step (.call f)).1.recording args) :
    ∃ entries, args = .ofList entries ∧ List.Forall₂ (t.step (.call f)).1.recording.Knows
      ((name, Frame.repacked t.handles.take.2 tuple) :: f.args.keywords.toList) entries := by
  cases gets with
  | method found kind =>
    obtain ⟨-, method, entries, -, input, known⟩ := call?_step_call nests found kind
    rw [Frame.furtherArgument, repacks.plain, repacks.extra] at known
    exact ⟨entries, input, known⟩
  | generator found made unmade =>
    rcases makesWith_step_call repacks _ _ _ found made with ⟨o', there, made'⟩ | given
    · cases made'.symm.trans (unmade o' there)
    · exact given

/-- An exception that is delivered to a call is told as one value. -/
theorem told_of_delivery? {raised : Raised} {traceback : TracebackId} {d : Delivery}
    (delivered : t.delivery? (.raise raised traceback) = some d) :
    t.told (.raise raised traceback) = [(raised.toValue t.handles).2] := by
  simp only [delivery?] at delivered
  split at delivered
  · rename_i top below id rest frames stack
    split at delivered
    · rename_i passes
      obtain ⟨traced, delivers⟩ := Bool.and_eq_true_iff.1 passes
      exact told_raise frames traced delivers traceback
    · cases delivered
  · cases delivered

end Tracer

namespace Watch

variable {w : Watch} {past events : List Event} {e : Event} {v : Value}

/-! ## Handles that are known -/

/-- A run next to itself. A handle stands for the same value in both, unless it is one that the
tracer gives out past the limit. -/
def alone (w : Watch) (limit : Nat) : TwoRuns where
  project := w.project
  run := w.run
  other := w.run
  pairs a b := a = b ∧ (a.isBuilt = true → a.number.val ≤ limit)
  oneToOne := by
    rintro a b c d ⟨rfl, -⟩ ⟨rfl, -⟩
    exact Iff.rfl
  reported observed := ⟨rfl, fun built => absurd (built.symm.trans observed) Bool.false_ne_true.symm⟩

theorem tracersMatch_alone (w : Watch) (limit : Nat) :
    (w.alone limit).TracersMatch 0 limit w.start w.start where
  observer := ⟨(w.alone limit).sessionsMatch_start, rfl, rfl, rfl, rfl⟩
  settings := rfl
  ignored := rfl
  foreignDepth := rfl
  handles := ⟨rfl, fun _ _ le => ⟨rfl, fun _ => Nat.le_trans (Nat.mod_le ..) le⟩⟩

/-- A recording knows none of the handles that the tracer gives out later. -/
theorem number_le_of_lookup (reported : ∀ e ∈ events, e.IsReported) {h : Handle} {id : ObjectId}
    (found : (w.recording events).lookup h = some id) (built : h.isBuilt = true) :
    h.number.val ≤ (w.after events).handles.count := by
  obtain ⟨tracers, -⟩ := (w.tracersMatch_alone (w.after events).handles.count).run rfl reported
    (Nat.le_refl _)
  obtain ⟨front, rest, split, -⟩ := List.lookup_eq_some_iff.1 found
  have known : (h, id) ∈ (w.recording events).known := by
    rw [split]
    exact List.mem_append_right _ List.mem_cons_self
  obtain ⟨⟨-, near⟩, -⟩ := List.forall₂_same.1 tracers.observer.session.known (h, id) known
  exact near built

/-- The handle of a value that is built stands for nothing yet. -/
theorem lookup_of_mem_built (earlier : ∀ e ∈ past, e.IsReported) (reported : e.IsReported)
    (lasts : ((w.after past).step e).1.handles.count < Handle.capacity)
    (mem : v ∈ (w.after past).built e) : (w.recording past).lookup v.handle = none := by
  obtain ⟨n, handle, later, le⟩ := (Tracer.numbers_step reported (w.after past)).exists_built mem
  refine Option.eq_none_iff_forall_ne_some.2 fun id found => ?_
  have near := number_le_of_lookup earlier found (by rw [handle]; rfl)
  rw [handle, Handle.number_built (Nat.lt_of_le_of_lt le lasts)] at near
  exact Nat.not_le_of_lt later near

/-! ## One event -/

/-- An exception that is delivered to a call is a new object, and what the call ends with. -/
structure DeliversNew (w : Watch) (past : List Event) (e : Event) (d : Delivery) : Prop where
  new : ¬(w.recording past).HasObject d.object
  there : (w.recording (past ++ [e])).HasObject d.object
  ends : ∃ c, (w.recording (past ++ [e])).call? d.call = some c ∧ c.outcome = some d.outcome

/-- The recorder is told of a new value in the place of a tuple that the receiver came out of. Where it
is recorded as an argument, it is a new object. -/
structure TellsTail (w : Watch) (past : List Event) (f : Frame) (receiver : Value) (name : String)
    (tail : Value) : Prop where
  told : (w.after past).told (.call f) = receiver :: tail :: f.args.keywords.toList.map Prod.snd
  built : tail ∈ (w.after past).built (.call f)
  new : ∀ args, (w.recording past).Gets (w.recording (past ++ [.call f])) args →
    ∃ id rest, args = .ofList ((name, id) :: rest) ∧
      (w.recording (past ++ [.call f])).lookup tail.handle = some id ∧
      ¬(w.recording past).HasObject id

/-- What is built at an event is new. -/
structure BuildsNew (w : Watch) (past : List Event) (e : Event) : Prop where
  /-- Every value that the recorder is told of, or that is held by one, is held by the event or built.
  -/
  told : ∀ v ∈ ((w.after past).told e).flatMap Value.all,
    v ∈ e.allValues ∨ (w.after past).Builds e v
  built : ∀ v ∈ (w.after past).built e, (w.after past).Builds e v
  /-- A built value has a handle that stood for nothing, and stands for a new object if for any. -/
  new : ∀ v ∈ (w.after past).built e, (w.recording past).lookup v.handle = none ∧
    ∀ id, (w.recording (past ++ [e])).lookup v.handle = some id → ¬(w.recording past).HasObject id
  /-- Of an exception that the host reports in parts. -/
  exception : ∀ raised traceback d, e = .raise raised traceback → raised.isInParts = true →
    (w.after past).delivery? e = some d → w.DeliversNew past e d
  /-- Of a method whose receiver comes first in a tuple. The new tuple has the items after it. -/
  tail : ∀ f receiver name tuple, e = .call f → (w.after past).isIgnored f = false →
    f.Repacks receiver name tuple → ∃ items, tuple.items? = some (receiver :: items) ∧
      w.TellsTail past f receiver name
        (.sequence (builtHeader (w.after past).handles.take.2 "tuple") .tuple items)

section Event

variable (earlier : ∀ e ∈ past, e.IsReported)
  (lasts : ((w.after past).step e).1.handles.count < Handle.capacity)
include earlier lasts

theorem not_hasObject_of_mem_built (reported : e.IsReported) (mem : v ∈ (w.after past).built e)
    {id : ObjectId} (found : (w.recording (past ++ [e])).lookup v.handle = some id) :
    ¬(w.recording past).HasObject id := by
  rw [recording_concat] at found
  exact (Tracer.step_observer (w.nests_after past) e).namesNew.not_hasObject
    (lookup_of_mem_built earlier reported lasts mem) found

theorem deliversNew {raised : Raised} {traceback : TracebackId} {d : Delivery}
    (raises : e = .raise raised traceback) (reported : e.IsReported)
    (inParts : raised.isInParts = true) (delivered : (w.after past).delivery? e = some d) :
    w.DeliversNew past e d := by
  subst raises
  have nests := w.nests_after past
  have told := Tracer.told_of_delivery? delivered
  have built : (raised.toValue (w.after past).handles).2 ∈
      (w.after past).built (.raise raised traceback) := by
    refine Tracer.mem_built_iff.2 ⟨?_, (Tracer.Builds.exception inParts traceback).isBuilt⟩
    rw [told, List.flatMap_singleton]
    exact Value.mem_all_self _
  have unknown := lookup_of_mem_built earlier reported lasts built
  rcases Tracer.step_raise_observer nests raised traceback with
    ⟨id, rest, s, stack, notes, delivery, observer⟩ | ⟨silent, -⟩
  · cases delivery.symm.trans delivered
    obtain ⟨c, found⟩ := nests.hasCall_top stack
    have ended : (w.recording (past ++ [.raise raised traceback])).call? id = some
        (Recording.withOutcome (.raised ((w.after past).objectOf raised)) c) := by
      rw [recording_concat, Tracer.recording, observer, Session.record, Recording.call?_modifyCall,
        if_pos rfl, notes.call?, found]
      rfl
    obtain ⟨-, whole⟩ := (w.sound_recording _).calls ended
    obtain ⟨there, -⟩ := whole.outcome _ rfl
    exact ⟨Session.not_hasObject_serialize nests.sound unknown, there, _, ended, rfl⟩
  · rw [silent] at delivered
    cases delivered

theorem tellsTail {f : Frame} {receiver tuple : Value} {name : String} {items : List Value}
    (calls : e = .call f) (reported : e.IsReported) (heeded : (w.after past).isIgnored f = false)
    (repacks : f.Repacks receiver name tuple) (found : tuple.items? = some (receiver :: items)) :
    w.TellsTail past f receiver name
      (.sequence (builtHeader (w.after past).handles.take.2 "tuple") .tuple items) := by
  subst calls
  rw [show "tuple" = Shape.tuple.typeName from rfl, ← Frame.repacked_eq found]
  have told := Tracer.told_call heeded
  rw [repacks.role] at told
  have built : Frame.repacked (w.after past).handles.take.2 tuple ∈
      (w.after past).built (.call f) := by
    refine Tracer.mem_built_iff.2 ⟨?_, rfl⟩
    rw [told]
    exact List.mem_flatMap.2 ⟨_, List.mem_cons_of_mem _ List.mem_cons_self, Value.mem_all_self _⟩
  refine ⟨told, built, fun args gets => ?_⟩
  rw [recording_concat] at gets
  obtain ⟨entries, input, known⟩ := Tracer.knows_of_gets (w.nests_after past) repacks gets
  rw [← recording_concat] at known
  obtain _ | ⟨⟨same, there⟩, others⟩ := known
  rename_i entry rest
  obtain ⟨key, id⟩ := entry
  obtain rfl : key = name := same
  exact ⟨id, rest, input, there, not_hasObject_of_mem_built earlier lasts reported built there⟩

theorem buildsNew (reported : e.IsReported) : w.BuildsNew past e where
  told _ mem := Tracer.mem_told mem
  built _ mem := Tracer.builds_of_mem_built reported mem
  new _ mem := ⟨lookup_of_mem_built earlier reported lasts mem,
    fun _ found => not_hasObject_of_mem_built earlier lasts reported mem found⟩
  exception _ _ _ raises inParts delivered :=
    deliversNew earlier lasts raises reported inParts delivered
  tail _ _ _ _ calls heeded repacks :=
    repacks.exists_items.imp fun _ found =>
      ⟨found, tellsTail earlier lasts calls reported heeded repacks found⟩

end Event

/-! ## Streams -/

/-- The values that the tracer builds in a stream are told apart from all others. -/
structure BuildsApart (w : Watch) (events : List Event) : Prop where
  /-- No value of the host has the handle of one, whenever the host reports it. -/
  host : ∀ v ∈ w.start.builtBy events, ∀ e ∈ events, ∀ u ∈ e.allValues, v.handle ≠ u.handle
  /-- No two of them have the same handle. -/
  distinct : ((w.start.builtBy events).map Value.handle).Nodup
  /-- The tracer gives out no other handles. -/
  count : (w.after events).handles.count = (w.start.builtBy events).length
  new : ∀ past e future, events = past ++ e :: future → w.BuildsNew past e

/-- As many values are built as handles are handed out. -/
theorem length_builtBy (reported : ∀ e ∈ events, e.IsReported) :
    (w.start.builtBy events).length = (w.after events).handles.count := by
  have count := (Tracer.numbers_run reported w.start).count
  exact (count.trans (Nat.zero_add _)).symm

/-- Whatever the host reports, in its own range of handles, the values that the tracer builds are
told apart as long as the range of the engine lasts. -/
theorem buildsApart (w : Watch) (events : List Event) (reported : ∀ e ∈ events, e.IsReported)
    (lasts : (w.start.builtBy events).length < Handle.capacity) : w.BuildsApart events := by
  have numbers := Tracer.numbers_run reported w.start
  have count : (w.after events).handles.count = (w.start.builtBy events).length :=
    (length_builtBy reported).symm
  rw [← count] at lasts
  refine ⟨fun v mem e inside u given same => ?_, numbers.nodup lasts, count,
    fun past e future split => ?_⟩
  · obtain ⟨n, handle, -⟩ := numbers.exists_built mem
    have observed := (reported e inside).isBuilt_eq_false given
    rw [← same, handle] at observed
    cases observed
  · subst split
    obtain ⟨earlier, later⟩ := List.forall_mem_append.1 reported
    obtain ⟨here, -⟩ := List.forall_mem_cons.1 later
    have before : ((w.after past).step e).1.handles.count ≤
        (w.after (past ++ e :: future)).handles.count := by
      rw [after_append]
      exact TwoRuns.count_le_run _ future
    exact buildsNew earlier (Nat.lt_of_le_of_lt before lasts) here

/-! ## A method that takes any arguments -/

namespace Gathered

/-- A project with a function and a class that has a method. -/
def project : Project where
  root := "/p"
  functions := #[⟨"f", "m", [], false, []⟩]
  classes := #[⟨"Runner", "m", [⟨"run", ["*args"], false⟩], [], []⟩]

def watch : Watch := ⟨project, ⟨0⟩, .standard, .default, .empty, []⟩

def receiver : Value := .object ⟨.observed 1, "Runner", "m", [("run", ⟨20⟩)]⟩

def number : Value := .literal ⟨.observed 2, "int", "builtins", []⟩ (.int 5)

/-- The receiver comes first among the arguments of the method. -/
def arguments : Value :=
  .sequence ⟨.observed 3, "tuple", "builtins", []⟩ .tuple [receiver, number]

def method : Frame :=
  ⟨⟨⟨20⟩, "run", "/p/m.py", false, false⟩, ⟨[], some ("args", arguments), none⟩, none⟩

def function : Frame := ⟨⟨⟨10⟩, "f", "/p/m.py", false, false⟩, ⟨[], none, none⟩, none⟩

def raised : Raised := .message "ValueError" "late"

/-- The function handles an exception and calls the method. -/
def stream : List Event := [.call function, .raise raised ⟨1⟩, .call method]

theorem isReported : ∀ e ∈ stream, e.IsReported := by
  have ofReceiver : receiver.IsReported := .intro rfl fun _ mem => absurd mem List.not_mem_nil
  have ofNumber : number.IsReported := .intro rfl fun _ mem => absurd mem List.not_mem_nil
  have ofArguments : arguments.IsReported :=
    .intro rfl (List.forall_mem_cons.2 ⟨ofReceiver, List.forall_mem_singleton.2 ofNumber⟩)
  have all : ∀ v ∈ [arguments], v.IsReported := List.forall_mem_singleton.2 ofArguments
  exact fun e mem v held => all v (List.mem_flatMap.2 ⟨e, mem, held⟩)

theorem repacks : method.Repacks receiver "args" arguments := ⟨rfl, rfl, rfl⟩

/-- The message, the exception, and the tuple with the number alone. -/
theorem length_builtBy : (watch.start.builtBy stream).length = 3 := by
  have before : (watch.after [.call function, .raise raised ⟨1⟩]).handles.count = 2 := by
    decide +kernel
  have heeded : (watch.after [.call function, .raise raised ⟨1⟩]).isIgnored method = false := by
    decide +kernel
  rw [Watch.length_builtBy isReported]
  show ((watch.after [.call function, .raise raised ⟨1⟩]).step (.call method)).1.handles.count = 3
  rw [Tracer.handles_step_call heeded, repacks.role]
  exact congrArg (· + 1) before

theorem delivers :
    ((watch.after [.call function]).delivery? (.raise raised ⟨1⟩)).isSome = true := by
  decide +kernel

def caught : Tracer Recorder := watch.after [.call function, .raise raised ⟨1⟩]

/-- The tuple without the receiver. -/
def tail : NamedValues := [("args", .sequence (builtHeader (.built 3) "tuple") .tuple [number])]

def called : Recorder × Bool :=
  caught.observer.opened
    (caught.observer.session.callMethod ⟨⟨0⟩, 0⟩ receiver tail caught.observer.currentCall)

/-- The search for a method does not compute, so the call is taken by hand. -/
theorem recording_stream : watch.recording stream = called.1.session.recording := by
  have heeded : caught.isIgnored method = false := by decide +kernel
  have handles : caught.handles = ⟨2⟩ := by decide +kernel
  have role : method.role caught.handles = (⟨3⟩, .method receiver tail) := by
    rw [repacks.role, handles]
    rfl
  have resolved : caught.observer.resolveMethod "run" receiver = some ⟨⟨0⟩, 0⟩ :=
    Option.bind_eq_some_iff.2
      ⟨⟨0⟩, by decide +kernel, Project.findMethod_of_own (by decide +kernel)⟩
  have told : caught.observer.methodCalled "run" receiver tail method = called := by
    rw [Recorder.methodCalled, resolved]
    rfl
  rw [← told]
  show (caught.step (.call method)).1.observer.session.recording = _
  rw [Tracer.observer_step_call heeded, Tracer.report, role]
  rfl

/-- The tuple is recorded with the call. -/
theorem gets : ∃ args, (watch.recording [.call function, .raise raised ⟨1⟩]).Gets
    (watch.recording stream) args := by
  have size : (watch.recording [.call function, .raise raised ⟨1⟩]).calls.size = 1 := by
    decide +kernel
  have kind : (called.1.session.recording.call? ⟨1⟩).map Call.kind = some (.method ⟨2⟩) := by
    decide +kernel
  obtain ⟨c, found, kind⟩ := Option.map_eq_some_iff.1 kind
  rw [← recording_stream, ← size] at found
  exact ⟨c.input, .method found kind⟩

end Gathered

theorem buildsApart_gathered :
    (∀ e ∈ Gathered.stream, e.IsReported) ∧
    (Gathered.watch.start.builtBy Gathered.stream).length < Handle.capacity ∧
    ((Gathered.watch.after [.call Gathered.function]).delivery?
      (.raise Gathered.raised ⟨1⟩)).isSome = true ∧
    Gathered.method.Repacks Gathered.receiver "args" Gathered.arguments ∧
    (∃ args, (Gathered.watch.recording [.call Gathered.function, .raise Gathered.raised ⟨1⟩]).Gets
      (Gathered.watch.recording Gathered.stream) args) ∧
    Gathered.watch.BuildsApart Gathered.stream := by
  have lasts : (Gathered.watch.start.builtBy Gathered.stream).length < Handle.capacity := by
    rw [Gathered.length_builtBy]
    decide
  exact ⟨Gathered.isReported, lasts, Gathered.delivers, Gathered.repacks, Gathered.gets,
    buildsApart Gathered.watch Gathered.stream Gathered.isReported lasts⟩

end Watch

end Reenact
