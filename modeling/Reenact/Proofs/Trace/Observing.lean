import Reenact.Proofs.Recording.Calling
import Reenact.Trace.Recorder

/-!
# What one observation does to a recorder

A recorder is told of nine kinds of observations. `Recorder.Step` lists what any of them can do to the
recording and to the stack, guards included: values are noted, a call is opened, fails or is closed,
foreign code is entered or left, and a side effect is added to the innermost call. Every invariant of
recorders is a statement about these steps.

A call is answered with `true` exactly when it is opened (`Recorder.Answers`): a call that is declined
may have noted values, and leaves the stack as it is.
-/

namespace Reenact

namespace Session

/-- The outcome of a call is set, after the value it ended with was noted. -/
def SetsOutcome (s : Session) (id : CallId) (t : Session) : Prop :=
  ∃ (noted : Session) (outcome : Outcome), s.Notes noted ∧
    noted.recording.HasObject outcome.object ∧
    t = noted.record (·.modifyCall id (Recording.withOutcome outcome))

/-- A call ends at the next tick, after its outcome was set if it returned a value that counts. -/
def Closes (s : Session) (id : CallId) (t : Session) : Prop :=
  ∃ before : Session, (before = s ∨ s.SetsOutcome id before) ∧
    t = before.record (·.endCall id)

end Session

namespace Recorder

/-- What a foreign call may be about to change is part of the recording. -/
def HasPending (rec : Recording) (mutation : Option PendingMutation) : Prop :=
  ∀ m, mutation = some m → ∀ id ∈ m.receiver :: m.args, rec.HasObject id

/-- The effects of one observation. -/
inductive Step (r : Recorder) : Recorder → Prop
  | noted {s : Session} (notes : r.session.Notes s) : Step r { r with session := s }
  /-- A call is opened from the innermost call. -/
  | opened {s : Session} {id : CallId} (opens : r.session.Opens r.currentCall id s) :
      Step r { r with session := s, stack := .call id :: r.stack }
  /-- An exception passes through the innermost call. -/
  | failed {s : Session} {id : CallId} {rest : List Running} (traceback : Option TracebackId)
      (top : r.stack = .call id :: rest) (sets : r.session.SetsOutcome id s) :
      Step r { r with session := s, lastTraceback := traceback }
  | closed {s : Session} {id : CallId} {rest : List Running} (top : r.stack = .call id :: rest)
      (closes : r.session.Closes id s) : Step r { r with session := s, stack := rest }
  | entered {s : Session} {mutation : Option PendingMutation} (notes : r.session.Notes s)
      (known : HasPending s.recording mutation) :
      Step r { r with session := s, stack := .foreign mutation :: r.stack }
  | left {mutation : Option PendingMutation} {rest : List Running}
      (top : r.stack = .foreign mutation :: rest) : Step r { r with stack := rest }
  /-- Foreign code is left that changed a container. -/
  | mutated {m : PendingMutation} {rest : List Running}
      (top : r.stack = .foreign (some m) :: rest) :
      Step r { r with
        session := (r.session.addEffect (.mutation m.op m.receiver m.args) (innermost rest)).1
        stack := rest }
  /-- A side effect is seen, after its values were noted. -/
  | affected {s : Session} {change : Change} (notes : r.session.Notes s)
      (known : ∀ id ∈ change.referenced, s.recording.HasObject id) :
      Step r { r with session := (s.addEffect change r.currentCall).1 }

/-- A call is opened and followed, or declined. -/
inductive Answers (r : Recorder) : Recorder × Bool → Prop
  | followed {s : Session} {id : CallId} (opens : r.session.Opens r.currentCall id s) :
      Answers r ({ r with session := s, stack := .call id :: r.stack }, true)
  | declined {s : Session} (notes : r.session.Notes s) : Answers r ({ r with session := s }, false)

theorem Answers.step {r : Recorder} {result : Recorder × Bool} (h : r.Answers result) :
    r.Step result.1 := by
  cases h with
  | followed opens => exact .opened opens
  | declined notes => exact .noted notes

variable {r : Recorder}

/-! ## Calls -/

theorem opened_answers {result : Session × Except Fault CallId}
    (h : r.session.OpensOrNotes r.currentCall result) : r.Answers (r.opened result) := by
  obtain ⟨s, answer⟩ := result
  rcases h with ⟨id, rfl, opens⟩ | ⟨fault, rfl, notes⟩
  · exact .followed opens
  · exact .declined notes

theorem methodCalled_answers (sound : r.session.recording.Sound) (name : String) (receiver : Value)
    (args : NamedValues) (f : Frame) : r.Answers (r.methodCalled name receiver args f) := by
  unfold methodCalled
  split
  · exact .declined (.refl _)
  · rename_i method found
    split
    · exact opened_answers (Session.resume_opensOrNotes _ _ _ _ _ sound)
    · unfold resolveMethod at found
      obtain ⟨cls, -, found⟩ := Option.bind_eq_some_iff.1 found
      obtain ⟨m, known⟩ := Project.method?_of_findMethod found
      exact opened_answers (Session.callMethod_opensOrNotes known _ _ _ sound)

theorem functionCalled_answers (sound : r.session.recording.Sound) (name : String)
    (args : NamedValues) (f : Frame) : r.Answers (r.functionCalled name args f) := by
  unfold functionCalled
  split
  · exact .declined (.refl _)
  · split
    · exact opened_answers (Session.resume_opensOrNotes _ _ _ _ _ sound)
    · exact .followed (Session.callFunction_opens _ _ _ sound)

/-! ## Returns and exceptions -/

/-- Setting the outcome of a call of the recording is not refused. -/
theorem attempt_setOutcome {s : Session} {id : CallId} (known : s.recording.HasCall id)
    (outcome : Outcome) : attempt s (fun rec => rec.setOutcome id outcome) =
      s.record (·.modifyCall id (Recording.withOutcome outcome)) := by
  obtain ⟨c, found⟩ := known
  simp only [attempt, Recording.setOutcome, Recording.findCall, found]
  rfl

/-- Ending a call of the recording is not refused. -/
theorem attempt_complete {s : Session} {id : CallId} (known : s.recording.HasCall id) :
    attempt s (fun rec => rec.complete id) = s.record (·.endCall id) := by
  obtain ⟨c, found⟩ := known
  simp only [attempt, Recording.complete, Recording.findCall, found]
  rfl

/-- Noting a value and setting it as the outcome of a call. -/
theorem setsOutcome_serialize {s : Session} {id : CallId} (sound : s.recording.Sound)
    (known : s.recording.HasCall id) (v : Value) (wrap : ObjectId → Outcome)
    (object : ∀ x, (wrap x).object = x) :
    s.SetsOutcome id (attempt (s.serialize v).1 fun rec =>
      rec.setOutcome id (wrap (s.serialize v).2)) := by
  obtain ⟨notes, there⟩ := Session.serialize_notes v sound
  refine ⟨(s.serialize v).1, wrap (s.serialize v).2, notes, ?_, ?_⟩
  · rw [object]
    exact there
  · exact attempt_setOutcome (known.mono notes.grows) _

theorem closeCall_closes {s : Session} {id : CallId} (sound : s.recording.Sound)
    (known : s.recording.HasCall id) (value : Value) (isHandled : Bool) :
    s.Closes id (closeCall s id value isHandled) := by
  unfold closeCall
  dsimp only
  split
  · have sets := setsOutcome_serialize sound known value .returned fun _ => rfl
    refine ⟨_, .inr sets, attempt_complete ?_⟩
    obtain ⟨noted, outcome, notes, -, eq⟩ := sets
    rw [eq, Recording.hasCall_iff, Session.record, Recording.size_calls_modifyCall,
      ← Recording.hasCall_iff]
    exact known.mono notes.grows
  · exact ⟨s, .inl rfl, attempt_complete known⟩

/-- A call that ends keeps its outcome. -/
theorem call?_endCall_self {s : Session} {id : CallId} {c : Call}
    (found : s.recording.call? id = some c) :
    ∃ d done, (s.record (·.endCall id)).recording.call? id = some d ∧
      d.completedAt = some done ∧ d.outcome = c.outcome := by
  refine ⟨Recording.withEnd s.recording.nextMoment c, s.recording.nextMoment, ?_, rfl, rfl⟩
  rw [Session.record, Recording.call?_endCall, if_pos rfl, found]
  rfl

/-- A call that is closed has returned the value, unless an exception was delivered to it and is not
handled. -/
theorem call?_closeCall {s : Session} {id : CallId} {c : Call} (sound : s.recording.Sound)
    (found : s.recording.call? id = some c) (value : Value) (isHandled : Bool) :
    ∃ d done, (closeCall s id value isHandled).recording.call? id = some d ∧
      d.completedAt = some done ∧
      d.outcome = if c.hasRaised = false ∨ isHandled = true then some (.returned (s.serialize value).2)
        else c.outcome := by
  have known : s.recording.HasCall id := .of_call? found
  unfold closeCall
  dsimp only
  rw [found, Option.map_some, Option.getD_some]
  by_cases counts : c.hasRaised = false ∨ isHandled = true
  · obtain ⟨notes, -⟩ := Session.serialize_notes value sound
    have known' := known.mono notes.grows
    have set : ((s.serialize value).1.record (·.modifyCall id
        (Recording.withOutcome (.returned (s.serialize value).2)))).recording.call? id =
        some (Recording.withOutcome (.returned (s.serialize value).2) c) := by
      rw [Session.record, Recording.call?_modifyCall, if_pos rfl, notes.call?, found]
      rfl
    rw [if_pos counts, if_pos (by simpa using counts), attempt_setOutcome known',
      attempt_complete (.of_call? set)]
    exact call?_endCall_self set
  · rw [if_neg counts, if_neg (by simpa using counts), attempt_complete known]
    exact call?_endCall_self found

theorem returned_step (sound : r.session.recording.Sound)
    (known : ∀ id rest, r.stack = .call id :: rest → r.session.recording.HasCall id)
    (value : Value) (handled : Option TracebackId) : r.Step (r.returned value handled) := by
  unfold returned
  split
  · exact .noted (.refl _)
  · rename_i top
    exact .left top
  · rename_i id rest top
    exact .closed top (closeCall_closes sound (known id rest top) value _)

theorem raised_step (sound : r.session.recording.Sound)
    (known : ∀ id rest, r.stack = .call id :: rest → r.session.recording.HasCall id)
    (exception : Value) (traceback : TracebackId) : r.Step (r.raised exception traceback) := by
  unfold raised
  split
  · rename_i id rest top
    exact .failed _ top (setsOutcome_serialize sound (known id rest top) exception .raised
      fun _ => rfl)
  · exact .noted (.refl _)

/-! ## Foreign code -/

/-- Foreign code that is entered is put on the stack, with what it may be about to change. -/
theorem foreignCalled_enters (sound : r.session.recording.Sound) (call : Foreign) :
    ∃ (s : Session) (mutation : Option PendingMutation), r.session.Notes s ∧
      HasPending s.recording mutation ∧
      r.foreignCalled call = { r with session := s, stack := .foreign mutation :: r.stack } := by
  unfold foreignCalled
  split
  · refine ⟨_, _, .refl _, ?_, rfl⟩
    rintro m ⟨⟩
  · rename_i op receiver _
    obtain ⟨first, known⟩ := Session.serialize_notes receiver sound
    obtain ⟨second, there⟩ := Session.serializeAll_notes (call.args ++ call.keywords.map Prod.snd)
      (first.sound sound)
    refine ⟨_, _, first.trans second, ?_, rfl⟩
    rintro m ⟨rfl⟩ id mem
    rcases List.mem_cons.1 mem with rfl | mem
    · exact known.mono second.grows
    · exact there id mem

theorem foreignCalled_step (sound : r.session.recording.Sound) (call : Foreign) :
    r.Step (r.foreignCalled call) := by
  obtain ⟨s, mutation, notes, known, eq⟩ := foreignCalled_enters sound call
  rw [eq]
  exact .entered notes known

theorem foreignReturned_step (value : Option Value) : r.Step (r.foreignReturned value) := by
  unfold foreignReturned
  split
  · rename_i mutation rest top
    dsimp only
    split
    · exact .mutated top
    · exact .left top
  · exact .noted (.refl _)

/-! ## Names and attributes -/

theorem globalRead_step (sound : r.session.recording.Sound) (module name : String) (value : Value) :
    r.Step (r.globalRead module name value) := by
  unfold globalRead
  split
  · obtain ⟨notes, there⟩ := Session.serialize_notes value sound
    refine .affected notes fun id mem => ?_
    obtain rfl := List.mem_singleton.1 mem
    exact there
  · exact .noted (.refl _)

theorem globalRebind_step (sound : r.session.recording.Sound) (module name : String)
    (value : Value) : r.Step (r.globalRebind module name value) := by
  obtain ⟨notes, there⟩ := Session.serialize_notes value sound
  refine .affected notes fun id mem => ?_
  obtain rfl := List.mem_singleton.1 mem
  exact there

theorem attributeRebind_step (sound : r.session.recording.Sound) (target : Value) (name : String)
    (value : Value) : r.Step (r.attributeRebind target name value) := by
  unfold attributeRebind
  split
  · exact .noted (.refl _)
  · obtain ⟨first, known⟩ := Session.serialize_notes target sound
    obtain ⟨second, there⟩ := Session.serialize_notes value (first.sound sound)
    refine .affected (first.trans second) fun id mem => ?_
    rcases List.mem_cons.1 mem with rfl | mem
    · exact known.mono second.grows
    · obtain rfl := List.mem_singleton.1 mem
      exact there

end Recorder

end Reenact
