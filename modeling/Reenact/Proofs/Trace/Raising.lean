import Reenact.Proofs.Trace.Continuing
import Reenact.Proofs.Trace.Delivery

/-!
# What the recorder makes of exceptions

While a call runs, nothing but an exception that is delivered to it changes its outcome, and nothing
but a delivered exception changes the traceback that the recorder remembers. So after a stream the
outcome of a call that still runs is that of the exception delivered to it last (`outcome_run`), while
the traceback is that of the exception delivered last to any call (`lastTraceback_run`): the recorder
remembers one for all calls.
-/

namespace Reenact

/-! ## What changes no outcome -/

namespace Session

variable {s t u : Session} {id : CallId}

/-- Every call that still runs has the outcome that it had. -/
def KeepsOutcomes (s t : Session) : Prop :=
  ∀ id c d, s.recording.call? id = some c → t.recording.call? id = some d → d.completedAt = none →
    d.outcome = c.outcome

theorem Notes.keepsOutcomes_trans (notes : s.Notes t) (keeps : t.KeepsOutcomes u) :
    s.KeepsOutcomes u := by
  intro id c d found
  exact keeps id c d ((notes.call? id).trans found)

theorem KeepsOutcomes.refl (s : Session) : s.KeepsOutcomes s := by
  intro id c d found found' _
  rw [found] at found'
  rw [Option.some.inj found']

theorem Notes.keepsOutcomes (notes : s.Notes t) : s.KeepsOutcomes t :=
  notes.keepsOutcomes_trans (.refl t)

theorem Opens.keepsOutcomes {caller : Option CallId} (opens : s.Opens caller id t) :
    s.KeepsOutcomes t := by
  obtain ⟨-, before, kind, definition, input, notes, -, after⟩ := opens
  refine notes.keepsOutcomes_trans fun x c d found found' _ => ?_
  have lt : x.index < before.recording.calls.size := Recording.hasCall_iff.1 (.of_call? found)
  rw [after.call?, Recording.call?_pushCall, if_neg (Nat.ne_of_lt lt), found, Option.map_some] at found'
  rw [← Option.some.inj found']
  split <;> rfl

theorem keepsOutcomes_addEffect (s : Session) (change : Change) (owner : Option CallId) :
    s.KeepsOutcomes (s.addEffect change owner).1 := by
  intro x c d found found' _
  have found' : (s.recording.pushEffect change owner).1.call? x = some d := found'
  rw [Recording.call?_pushEffect, found, Option.map_some] at found'
  rw [← Option.some.inj found']
  split <;> rfl

theorem Closes.keepsOutcomes (closes : s.Closes id t) : s.KeepsOutcomes t := by
  obtain ⟨before, set, rfl⟩ := closes
  intro x c d found found' running
  rw [record, Recording.call?_endCall] at found'
  split at found'
  · -- the call that is closed does not run any more
    obtain ⟨d', -, rfl⟩ := Option.map_eq_some_iff.1 found'
    cases running
  · rename_i other
    rcases set with rfl | ⟨noted, outcome, notes, -, rfl⟩
    · rw [found] at found'
      rw [Option.some.inj found']
    · rw [record, Recording.call?_modifyCall, if_neg other, notes.call?, found] at found'
      rw [Option.some.inj found']

end Session

namespace Recorder

variable {r : Recorder}

/-- Nothing was made of an exception: running calls have the outcomes that they had, and the traceback
remembered is the same. -/
structure Unraised (r r' : Recorder) : Prop where
  outcomes : r.session.KeepsOutcomes r'.session
  lastTraceback : r'.lastTraceback = r.lastTraceback

theorem Unraised.refl (r : Recorder) : r.Unraised r := ⟨.refl _, rfl⟩

theorem unraised_noted {s : Session} (notes : r.session.Notes s) {stack : List Running} :
    r.Unraised { r with session := s, stack := stack } :=
  ⟨notes.keepsOutcomes, rfl⟩

theorem unraised_affected {s : Session} (notes : r.session.Notes s) (change : Change) :
    r.Unraised (({ r with session := s } : Recorder).addEffect change) :=
  ⟨notes.keepsOutcomes_trans (Session.keepsOutcomes_addEffect _ _ _), rfl⟩

theorem unraised_returned (nests : r.Nests) (value : Value) (handled : Option TracebackId) :
    r.Unraised (r.returned value handled) := by
  unfold returned
  split
  · exact .refl r
  · exact unraised_noted (.refl _)
  · rename_i id rest top
    exact ⟨(closeCall_closes nests.sound (nests.hasCall_top top) value _).keepsOutcomes, rfl⟩

theorem unraised_foreignReturned (r : Recorder) (result : Option Value) :
    r.Unraised (r.foreignReturned result) := by
  unfold foreignReturned
  split
  · dsimp only
    split
    · exact ⟨Session.keepsOutcomes_addEffect _ _ _, rfl⟩
    · exact unraised_noted (.refl _)
  · exact .refl r

theorem unraised_globalRead (nests : r.Nests) (module name : String) (value : Value) :
    r.Unraised (r.globalRead module name value) := by
  unfold globalRead
  split
  · obtain ⟨notes, -⟩ := Session.serialize_notes value nests.sound
    exact unraised_affected notes _
  · exact .refl r

theorem unraised_attributeRebind (nests : r.Nests) (target : Value) (name : String) (value : Value) :
    r.Unraised (r.attributeRebind target name value) := by
  unfold attributeRebind
  split
  · exact .refl r
  · obtain ⟨first, -⟩ := Session.serialize_notes target nests.sound
    obtain ⟨second, -⟩ := Session.serialize_notes value (first.sound nests.sound)
    exact unraised_affected (first.trans second) _

end Recorder

namespace Tracer

variable {t : Tracer Recorder}

/-- The recorder makes nothing of an event that is no exception. -/
theorem unraised_step (nests : t.observer.Nests) {e : Event} (quiet : e.isRaise = false) :
    t.observer.Unraised (t.step e).1.observer := by
  cases e with
  | raise => cases quiet
  | call f =>
    rcases step_call nests t.hasShape_self f with ⟨s, id, -, opens, told, -⟩ | ⟨s, -, notes, told, -⟩
    · rw [told]
      exact ⟨opens.keepsOutcomes, rfl⟩
    · rw [told]
      exact Recorder.unraised_noted notes
  | ret value handled =>
    simp only [step, onReturn]
    split
    · exact .refl _
    · split
      · exact Recorder.unraised_returned nests value handled
      · exact .refl _
  | foreignCall call =>
    obtain ⟨s, mutation, notes, -, told⟩ := Recorder.foreignCalled_enters nests.sound call
    show t.observer.Unraised (t.observer.foreignCalled call)
    rw [told]
    exact Recorder.unraised_noted notes
  | foreignReturn result =>
    simp only [step]
    split
    · exact .refl _
    · exact Recorder.unraised_foreignReturned t.observer result
  | globalRead module name value => exact Recorder.unraised_globalRead nests module name value
  | globalRebind module name value =>
    obtain ⟨notes, -⟩ := Session.serialize_notes value nests.sound
    exact Recorder.unraised_affected notes _
  | attributeRebind target name value =>
    exact Recorder.unraised_attributeRebind nests target name value
  | moduleLoaded module codes => exact .refl _

/-- The recorder notes an exception as the outcome of the call it is delivered to and remembers its
traceback. -/
theorem step_raise_observer (nests : t.observer.Nests) (raised : Raised) (traceback : TracebackId) :
    (∃ id rest s, t.observer.stack = .call id :: rest ∧ t.observer.session.Notes s ∧
      t.delivery? (.raise raised traceback) = some ⟨id, t.objectOf raised, traceback⟩ ∧
      (t.step (.raise raised traceback)).1.observer = { t.observer with
        session := s.record
          (·.modifyCall id (Recording.withOutcome (.raised (t.objectOf raised))))
        lastTraceback := some traceback }) ∨
    (t.delivery? (.raise raised traceback) = none ∧
      (t.step (.raise raised traceback)).1.observer = t.observer) := by
  rcases step_raise t raised traceback with
    ⟨top, below, frames, traced, delivers, -, told⟩ | ⟨silent, same⟩
  · rw [told]
    have passes : (top.isTraced && t.settings.delivers top.lastException raised) = true := by
      rw [traced, delivers]
      rfl
    cases stack : t.observer.stack with
    | nil =>
      refine .inr ⟨by simp only [delivery?, frames, stack], ?_⟩
      simp only [Recorder.raised, stack]
    | cons running rest =>
      cases running with
      | foreign mutation =>
        refine .inr ⟨by simp only [delivery?, frames, stack], ?_⟩
        simp only [Recorder.raised, stack]
      | call id =>
        obtain ⟨notes, -⟩ := Session.serialize_notes (raised.toValue t.handles).2 nests.sound
        have known := (nests.hasCall_top stack).mono notes.grows
        refine .inl ⟨id, rest, _, rfl, notes, by simp only [delivery?, frames, stack, passes, if_true],
          ?_⟩
        simp only [Recorder.raised, stack, Recorder.attempt_setOutcome known]
        rfl
  · rw [same]
    refine .inr ⟨?_, rfl⟩
    simp only [delivery?]
    split
    · rename_i top below id rest frames stack
      cases traced : top.isTraced with
      | false => rfl
      | true =>
        rw [silent top below frames traced]
        rfl
    · rfl

/-- The traceback remembered is that of the exception delivered last. -/
theorem lastTraceback_run (nests : t.observer.Nests) (events : List Event) :
    (t.run events).observer.lastTraceback =
      ((t.delivered events).getLast?.map Delivery.traceback).or t.observer.lastTraceback := by
  induction events generalizing t with
  | nil => rfl
  | cons e rest ih =>
    have first : (t.step e).1.observer.lastTraceback =
        ((t.delivery? e).map Delivery.traceback).or t.observer.lastTraceback := by
      by_cases quiet : e.isRaise = false
      · rw [delivery?_of_not_raise quiet, (unraised_step nests quiet).lastTraceback]
        rfl
      · cases e with
        | raise raised traceback =>
          rcases step_raise_observer nests raised traceback with
            ⟨id, below, s, -, -, delivery, told⟩ | ⟨silent, told⟩
          · rw [delivery, told]
            rfl
          · rw [silent, told]
            rfl
        | _ => exact absurd rfl quiet
    rw [run_cons, ih (nests_step nests e), first, delivered, List.getLast?_append]
    cases (t.step e).1.delivered rest |>.getLast? with
    | some d => rfl
    | none => cases t.delivery? e <;> rfl

/-- A call that still runs after an event ends with the exception that the event delivers to it, if
there is one, and as before otherwise. -/
theorem outcome_step (nests : t.observer.Nests) (e : Event) {id : CallId} {c d : Call}
    (found : t.recording.call? id = some c) (found' : (t.step e).1.recording.call? id = some d)
    (running : d.completedAt = none) :
    d.outcome = (((t.delivery? e).filter (·.call == id)).map Delivery.outcome).or c.outcome := by
  by_cases quiet : e.isRaise = false
  · rw [delivery?_of_not_raise quiet,
      (unraised_step nests quiet).outcomes id c d found found' running]
    rfl
  · cases e with
    | raise raised traceback =>
      rcases step_raise_observer nests raised traceback with
        ⟨top, below, s, -, notes, delivery, told⟩ | ⟨silent, told⟩
      · rw [recording, told, Session.record, Recording.call?_modifyCall] at found'
        rw [delivery, Option.filter_some]
        by_cases same : id = top
        · subst same
          rw [if_pos rfl, notes.call?] at found'
          obtain ⟨c', -, rfl⟩ := Option.map_eq_some_iff.1 found'
          rw [if_pos (beq_self_eq_true _)]
          rfl
        · rw [if_neg same, notes.call?] at found'
          rw [if_neg (by simpa using Ne.symm same), ← Option.some.inj (found.symm.trans found')]
          rfl
      · rw [recording, told] at found'
        rw [silent, ← Option.some.inj (found.symm.trans found')]
        rfl
    | _ => exact absurd rfl quiet

/-- A call that still runs after a stream ends with the exception that was delivered to it last, if
there is one, and as before otherwise. -/
theorem outcome_run (nests : t.observer.Nests) (events : List Event) {id : CallId} {c d : Call}
    (found : t.recording.call? id = some c) (found' : (t.run events).recording.call? id = some d)
    (running : d.completedAt = none) :
    d.outcome =
      ((deliveredTo id (t.delivered events)).getLast?.map Delivery.outcome).or c.outcome := by
  induction events generalizing t c with
  | nil =>
    rw [Option.some.inj (found.symm.trans found')]
    rfl
  | cons e rest ih =>
    have next := nests_step nests e
    obtain ⟨c', middle, -⟩ := (nests.continues (step_observer nests e)).calls found
    -- a call that runs at the end has been running all along
    have running' : c'.completedAt = none := by
      by_contra ended
      have still := (continues_run next rest).call?_of_ended middle ended
      exact ended (Option.some.inj (found'.symm.trans still) ▸ running)
    rw [ih next middle found', outcome_step nests e found middle running', delivered, deliveredTo,
      deliveredTo, List.filter_append, List.getLast?_append]
    cases (((t.step e).1.delivered rest).filter (·.call == id)).getLast? with
    | some d => rfl
    | none =>
      cases t.delivery? e with
      | none => rfl
      | some first =>
        rw [Option.toList_some, Option.filter_some, List.filter_singleton]
        cases first.call == id <;> rfl

/-- The return of a frame that is followed closes its call. -/
theorem recording_step_ret {followed : List Bool} {depth : Nat} {stack : List Running} {id : CallId}
    (h : t.HasShape (true :: followed) depth (.call id :: stack)) (value : Value)
    (handled : Option TracebackId) : (t.step (.ret value handled)).1.recording =
      (Recorder.closeCall t.observer.session id value (t.observer.hasHandled handled)).recording := by
  obtain ⟨head, below, eq, isTraced, -⟩ := List.map_eq_cons_iff.1 h.frames
  have told : (t.step (.ret value handled)).1.observer = t.observer.returned value handled := by
    simp only [step, onReturn, eq, isTraced, if_true]
    rfl
  rw [recording, told, Recorder.returned, h.stack]

end Tracer

end Reenact
