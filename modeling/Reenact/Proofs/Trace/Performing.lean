import Reenact.Proofs.Recording.CrossReference
import Reenact.Proofs.Recording.Linking
import Reenact.Proofs.Recording.Reachable
import Reenact.Proofs.Trace.Watch

/-!
# Watching as operations

Whatever a tracer is told, what becomes of its session are operations of the session, and what they
call is defined by the project, since the recorder looks it up there (`Tracer.leadsTo_run`). So
everything that operations keep holds of what a watch records, whatever the stream of events.

**The law** (`Watch.leadsTo_after`): the session of a watch is one that operations on what the
project defines lead to from a session that has recorded nothing.
-/

namespace Reenact

namespace Session

variable {s t u : Session}

theorem unlinked_performAll (s : Session) (ops : List Operation) :
    (s.performAll ops).project.unlinked = s.project.unlinked :=
  performAll_induction (P := fun t => t.project.unlinked = s.project.unlinked) rfl
    fun op _ t same => (unlinked_perform t op).trans same

/-- The second session came from the first by operations on what the project defines. -/
def LeadsTo (s t : Session) : Prop :=
  ∃ ops : List Operation, (∀ op ∈ ops, op.IsDefinedIn s.project) ∧ t = s.performAll ops

theorem LeadsTo.refl (s : Session) : s.LeadsTo s := ⟨[], nofun, rfl⟩

theorem LeadsTo.perform (s : Session) (op : Operation) (defined : op.IsDefinedIn s.project) :
    s.LeadsTo (s.perform op) :=
  ⟨[op], fun _ mem => List.mem_singleton.1 mem ▸ defined, rfl⟩

theorem LeadsTo.trans (first : s.LeadsTo t) (second : t.LeadsTo u) : s.LeadsTo u := by
  obtain ⟨ops, defined, rfl⟩ := first
  obtain ⟨more, later, rfl⟩ := second
  refine ⟨ops ++ more, fun op mem => ?_, List.foldl_append.symm⟩
  rcases List.mem_append.1 mem with mem | mem
  · exact defined op mem
  · exact (later op mem).congr (unlinked_performAll s ops)

/-- What every operation on what the project defines keeps is kept on the way. -/
theorem LeadsTo.keeps {P : Session → Prop} (h : s.LeadsTo t) (start : P s)
    (step : ∀ (u : Session) (op : Operation), op.IsDefinedIn u.project → P u → P (u.perform op)) :
    P t := by
  obtain ⟨ops, defined, rfl⟩ := h
  have all : P (s.performAll ops) ∧ (s.performAll ops).project.unlinked = s.project.unlinked :=
    performAll_induction (P := fun u => P u ∧ u.project.unlinked = s.project.unlinked)
      ⟨start, rfl⟩ fun op mem u ⟨holds, same⟩ =>
        ⟨step u op ((defined op mem).congr same.symm) holds, (unlinked_perform u op).trans same⟩
  exact all.1

theorem LeadsTo.keepsBooks (h : s.LeadsTo t) (books : KeepsBooks s) : KeepsBooks t :=
  h.keeps books fun _ _ defined books => books.perform defined

theorem LeadsTo.accounts (h : s.LeadsTo t) : s.Accounts t :=
  h.keeps (P := s.Accounts) (.refl s) fun _ _ defined done => done.trans (perform_accounts defined)

theorem leadsTo_serialize (s : Session) (v : Value) : s.LeadsTo (s.serialize v).1 :=
  .perform s (.serialize v) trivial

theorem leadsTo_serializeAll (s : Session) (values : List Value) :
    s.LeadsTo (s.serializeAll values).1 := by
  induction values generalizing s with
  | nil => exact .refl s
  | cons v rest ih => exact (leadsTo_serialize s v).trans (ih _)

theorem leadsTo_addEffect (s : Session) (change : Change) (owner : Option CallId) :
    s.LeadsTo (s.addEffect change owner).1 :=
  .perform s (.addEffect change owner) trivial

theorem leadsTo_setOutcome (s : Session) (id : CallId) (outcome : Outcome) :
    s.LeadsTo (Recorder.attempt s fun r => r.setOutcome id outcome) :=
  .perform s (.setOutcome id outcome) trivial

theorem leadsTo_complete (s : Session) (id : CallId) :
    s.LeadsTo (Recorder.attempt s fun r => r.complete id) :=
  .perform s (.complete id) trivial

end Session

namespace Recorder

variable (r : Recorder)

/-! ## Observations -/

theorem session_opened (result : Session × Except Fault CallId) :
    (r.opened result).1.session = result.1 := by
  obtain ⟨s, _ | _⟩ := result <;> rfl

theorem leadsTo_methodCalled (name : String) (receiver : Value) (args : NamedValues) (f : Frame) :
    r.session.LeadsTo (r.methodCalled name receiver args f).1.session := by
  unfold methodCalled
  split
  · exact .refl _
  · rename_i method resolved
    unfold resolveMethod at resolved
    obtain ⟨cls, -, found⟩ := Option.bind_eq_some_iff.1 resolved
    have defined := Project.method?_of_findMethod found
    split
    · rename_i generator _
      rw [session_opened]
      exact .perform _ (.resume generator (.method method) args (some receiver) r.currentCall)
        defined
    · rw [session_opened]
      exact .perform _ (.callMethod method receiver args r.currentCall) defined

theorem leadsTo_functionCalled (name : String) (args : NamedValues) (f : Frame) :
    r.session.LeadsTo (r.functionCalled name args f).1.session := by
  unfold functionCalled
  split
  · exact .refl _
  · rename_i function resolved
    unfold resolveFunction at resolved
    obtain ⟨module, -, found⟩ := Option.bind_eq_some_iff.1 resolved
    have defined := Project.function?_of_findFunction found
    split
    · rename_i generator _
      rw [session_opened]
      exact .perform _ (.resume generator (.function function) args none r.currentCall) defined
    · exact .perform _ (.callFunction function args r.currentCall) defined

theorem leadsTo_closeCall (s : Session) (id : CallId) (value : Value) (isHandled : Bool) :
    s.LeadsTo (closeCall s id value isHandled) := by
  unfold closeCall
  dsimp only
  refine Session.LeadsTo.trans ?_ (Session.leadsTo_complete _ id)
  split
  · exact (Session.leadsTo_serialize s value).trans (Session.leadsTo_setOutcome ..)
  · exact .refl s

theorem leadsTo_returned (value : Value) (handled : Option TracebackId) :
    r.session.LeadsTo (r.returned value handled).session := by
  unfold returned
  split
  · exact .refl _
  · exact .refl _
  · exact leadsTo_closeCall ..

theorem leadsTo_raised (exception : Value) (traceback : TracebackId) :
    r.session.LeadsTo (r.raised exception traceback).session := by
  unfold raised
  split
  · exact (Session.leadsTo_serialize _ exception).trans (Session.leadsTo_setOutcome ..)
  · exact .refl _

theorem leadsTo_foreignCalled (call : Foreign) :
    r.session.LeadsTo (r.foreignCalled call).session := by
  unfold foreignCalled
  split
  · exact .refl _
  · exact (Session.leadsTo_serialize ..).trans (Session.leadsTo_serializeAll ..)

theorem leadsTo_foreignReturned (value : Option Value) :
    r.session.LeadsTo (r.foreignReturned value).session := by
  unfold foreignReturned
  split
  · dsimp only
    split
    · exact Session.leadsTo_addEffect ..
    · exact .refl _
  · exact .refl _

theorem leadsTo_globalRead (module name : String) (value : Value) :
    r.session.LeadsTo (r.globalRead module name value).session := by
  unfold globalRead
  split
  · exact (Session.leadsTo_serialize _ value).trans (Session.leadsTo_addEffect ..)
  · exact .refl _

theorem leadsTo_globalRebind (module name : String) (value : Value) :
    r.session.LeadsTo (r.globalRebind module name value).session :=
  (Session.leadsTo_serialize _ value).trans (Session.leadsTo_addEffect ..)

theorem leadsTo_attributeRebind (target : Value) (name : String) (value : Value) :
    r.session.LeadsTo (r.attributeRebind target name value).session := by
  unfold attributeRebind
  split
  · exact .refl _
  · exact ((Session.leadsTo_serialize _ target).trans (Session.leadsTo_serialize _ value)).trans
      (Session.leadsTo_addEffect ..)

end Recorder

namespace Tracer

/-! ## Events -/

theorem leadsTo_step (t : Tracer Recorder) (e : Event) :
    t.observer.session.LeadsTo (t.step e).1.observer.session := by
  cases e with
  | call frame =>
    simp only [step, onCall]
    split
    · exact .refl _
    · have told : t.observer.session.LeadsTo (t.report frame).1.observer.session := by
        unfold report
        dsimp only
        split
        · exact t.observer.leadsTo_methodCalled ..
        · exact t.observer.leadsTo_functionCalled ..
      split <;> exact told
  | ret value handled =>
    simp only [step, onReturn]
    split
    · exact .refl _
    · split
      · exact t.observer.leadsTo_returned value handled
      · exact .refl _
  | raise raised traceback =>
    simp only [step, onRaise]
    split
    · exact .refl _
    · split
      · exact .refl _
      · split
        · exact .refl _
        · split
          · exact .refl _
          · exact t.observer.leadsTo_raised _ traceback
  | foreignCall call => exact t.observer.leadsTo_foreignCalled call
  | foreignReturn value =>
    simp only [step]
    split
    · exact .refl _
    · exact t.observer.leadsTo_foreignReturned value
  | globalRead module name value => exact t.observer.leadsTo_globalRead module name value
  | globalRebind module name value => exact t.observer.leadsTo_globalRebind module name value
  | attributeRebind target name value =>
    exact t.observer.leadsTo_attributeRebind target name value
  | moduleLoaded module codes => exact .refl _

theorem leadsTo_run (t : Tracer Recorder) (events : List Event) :
    t.observer.session.LeadsTo (t.run events).observer.session := by
  induction events generalizing t with
  | nil => exact .refl _
  | cons e rest ih => exact (leadsTo_step t e).trans (ih _)

end Tracer

namespace Watch

/-- The session after a stream of events. -/
def session (w : Watch) (events : List Event) : Session := (w.after events).observer.session

/-- Operations on what the project defines lead to the session after a stream of events. -/
theorem leadsTo_after (w : Watch) (events : List Event) :
    (Session.start w.project w.run).LeadsTo (w.session events) :=
  Tracer.leadsTo_run w.start events

/-- After every stream of events the two sides of each cross reference agree. -/
theorem keepsBooks_session (w : Watch) (events : List Event) :
    Session.KeepsBooks (w.session events) :=
  (w.leadsTo_after events).keepsBooks (Session.keepsBooks_start ..)

/-- What a watch records is reachable, before it ends and afterwards. -/
theorem Records.isReachable {w : Watch} {events : List Event} {r : Recording}
    (h : w.Records events r) : r.IsReachable := by
  have reached : (w.recording events).IsReachable := by
    obtain ⟨ops, -, same⟩ := w.leadsTo_after events
    show (w.session events).recording.IsReachable
    rw [same]
    exact Recording.isReachable_performAll ..
  obtain ⟨isExhausted, rfl | rfl⟩ := h
  · exact reached
  · exact reached.perform w.project (.finish isExhausted)

end Watch

end Reenact
