import Reenact.Proofs.Recording.Methods
import Reenact.Proofs.Trace.Continuing
import Reenact.Proofs.Trace.Outcome
import Reenact.Proofs.Trace.Performing
import Reenact.Proofs.Trace.Roles

/-!
# Frames of methods

The receiver of a method is the first plain argument of its frame, or the first further one where there
is no plain one. In the second case the further arguments are recorded as a new tuple without it
(`Frame.furtherArgument`).

**The law** (`Records.exists_captures`): when a frame is recorded as a call of a method, all its
arguments after the receiver are those of the call, and still are in every later recording.
-/

namespace Reenact

/-! ## Frames of methods -/

namespace Frame

/-- The further positional arguments of a method: those of the frame, or a new tuple without the
receiver. -/
def furtherArgument (f : Frame) (source : HandleSource) : Option (String × Value) :=
  match f.args.named, f.args.extra with
  | _ :: _, extra => extra
  | [], some (name, tuple) => some (name, repacked source.take.2 tuple)
  | [], none => none

theorem positionalRest_eq (f : Frame) (source : HandleSource) :
    (f.positionalRest source).2 = f.args.named.tail ++ (f.furtherArgument source).toList := by
  unfold positionalRest furtherArgument
  cases f.args.named with
  | cons => rfl
  | nil =>
    cases f.args.extra with
    | none => rfl
    | some => rfl

end Frame

namespace Recorder

variable {r : Recorder}

/-- A function is not recorded as a call of a method. -/
theorem kind_of_functionCalled (sound : r.session.recording.Sound) {name : String}
    {args : NamedValues} {f : Frame} {c : Call}
    (found : (r.functionCalled name args f).1.session.recording.call?
      ⟨r.session.recording.calls.size⟩ = some c) (x : ObjectId) : c.kind ≠ .method x := by
  unfold functionCalled at found
  split at found
  · exact (Recording.not_hasCall_next _ ⟨c, found⟩).elim
  · split at found
    · rw [session_opened] at found
      obtain ⟨y, kind⟩ := Session.kind_of_resume sound found
      rw [kind]
      exact nofun
    · obtain ⟨notes, -⟩ := Session.serializeArguments_notes args sound
      have pushed : c.kind = .function := by
        have found : (((r.session.serializeArguments args).1.recording.pushCall _ _ _ _).1.call?
          ⟨r.session.recording.calls.size⟩) = some c := found
        rw [Recording.call?_pushCall, notes.sameCalls.calls, if_pos rfl] at found
        cases found
        rfl
      rw [pushed]
      exact nofun

/-- A method is recorded with its arguments. -/
theorem call?_methodCalled (sound : r.session.recording.Sound) {name : String} {receiver : Value}
    {args : NamedValues} {f : Frame} {c : Call} {x : ObjectId}
    (found : (r.methodCalled name receiver args f).1.session.recording.call?
      ⟨r.session.recording.calls.size⟩ = some c) (kind : c.kind = .method x) :
    ∃ method entries, c.definition = .method method ∧ c.input = .ofList entries ∧
      List.Forall₂ (r.methodCalled name receiver args f).1.session.recording.Knows args entries := by
  unfold methodCalled at found ⊢
  split at found
  · exact (Recording.not_hasCall_next _ ⟨c, found⟩).elim
  · rename_i method resolved
    split at found
    · rw [session_opened] at found
      obtain ⟨y, other⟩ := Session.kind_of_resume sound found
      rw [other] at kind
      cases kind
    · rw [session_opened] at found ⊢
      obtain ⟨entries, definition, input, known⟩ := Session.call?_callMethod sound found
      exact ⟨method, entries, definition, input, known⟩

end Recorder

/-- A frame that is recorded as a call of a method has its receiver among its arguments, and the call
has the others. -/
theorem Tracer.call?_step_call {t : Tracer Recorder} (nests : t.observer.Nests) {f : Frame} {c : Call}
    {x : ObjectId}
    (found : (t.step (.call f)).1.recording.call? ⟨t.recording.calls.size⟩ = some c)
    (kind : c.kind = .method x) :
    (f.args.named = [] → f.args.extra.isSome) ∧
    ∃ method entries, c.definition = .method method ∧ c.input = .ofList entries ∧
      List.Forall₂ (t.step (.call f)).1.recording.Knows
        (f.args.named.tail ++ (f.furtherArgument t.handles).toList ++ f.args.keywords.toList)
        entries := by
  by_cases ignored : t.isIgnored f = true
  · have same : (t.step (.call f)).1.recording = t.recording := by
      rw [step, onCall, if_pos ignored]
      rfl
    rw [same] at found
    exact (Recording.not_hasCall_next _ ⟨c, found⟩).elim
  · have told : (t.step (.call f)).1.recording = (t.report f).1.recording :=
      congrArg (·.session.recording) (observer_step_call (Bool.eq_false_iff.2 ignored))
    rw [told] at found ⊢
    unfold report Frame.role Frame.methodCall? at found ⊢
    cases method : f.receiver? with
    | none =>
      rw [method] at found
      exact (Recorder.kind_of_functionCalled nests.sound found x kind).elim
    | some receiver =>
      rw [method] at found
      refine ⟨fun none => ?_, ?_⟩
      · obtain ⟨candidate, -⟩ := Option.filter_eq_some_iff.1 method
        unfold Frame.candidate? at candidate
        rw [none] at candidate
        cases extra : f.args.extra with
        | none =>
          rw [extra] at candidate
          cases candidate
        | some _ => rfl
      · have recorded := Recorder.call?_methodCalled nests.sound found kind
        rw [← Frame.positionalRest_eq]
        exact recorded

/-! ## Recorded frames -/

/-- What is related to a list in two parts has two parts. -/
theorem exists_append_of_forall₂ {α β : Type} {R : α → β → Prop} {l m : List α} {out : List β}
    (h : List.Forall₂ R (l ++ m) out) :
    ∃ a b, out = a ++ b ∧ List.Forall₂ R l a ∧ List.Forall₂ R m b :=
  ⟨out.take l.length, out.drop l.length, (List.take_append_drop ..).symm,
    (List.forall₂_take_append _ _ _ h.flip).flip, (List.forall₂_drop_append _ _ _ h.flip).flip⟩

theorem exists_toList_of_forall₂ {α β : Type} {R : α → β → Prop} {x? : Option α} {out : List β}
    (h : List.Forall₂ R x?.toList out) : ∃ y? : Option β, out = y?.toList := by
  cases x? with
  | none =>
    cases h
    exact ⟨none, rfl⟩
  | some x =>
    obtain _ | ⟨first, others⟩ := h
    cases others
    exact ⟨some _, rfl⟩

namespace Watch

variable {w : Watch} {past future : List Event} {r : Recording}

/-- A call that was recorded is still there, with its definition and its arguments. -/
theorem Records.exists_call (recorded : w.Records (past ++ future) r) {id : CallId} {c : Call}
    (found : (w.recording past).call? id = some c) :
    ∃ d, r.call? id = some d ∧ d.kind = c.kind ∧ d.definition = c.definition ∧ d.input = c.input := by
  obtain ⟨d, later, continues⟩ := (w.continues_append past future).calls found
  have alone := recorded.alone id
  rw [later] at alone
  obtain ⟨e, there, same⟩ := Option.map_eq_some_iff.1 alone
  have kind : e.alone.kind = d.alone.kind := congrArg Call.kind same
  have definition : e.alone.definition = d.alone.definition := congrArg Call.definition same
  have input : e.alone.input = d.alone.input := congrArg Call.input same
  refine ⟨e, there, kind.trans ?_, definition.trans ?_, input.trans ?_⟩ <;> rw [continues.head] <;> rfl

theorem Records.keepsBooks {events : List Event} (recorded : w.Records events r) :
    ∃ s : Session, s.recording = r ∧ s.KeepsBooks := by
  obtain ⟨isExhausted, rfl | rfl⟩ := recorded
  · exact ⟨w.session events, rfl, w.keepsBooks_session events⟩
  · exact ⟨(w.session events).finish isExhausted, rfl, (w.keepsBooks_session events).finish isExhausted⟩

/-- An instance is made by a call of a method on it. -/
theorem Records.kind_of_initCall {events : List Event} (recorded : w.Records events r) {x : ObjectId}
    {o : Object} {cls : ClassId} {init : CallId} {uses : List Use} (there : r.object? x = some o)
    (kind : o.kind = .user cls (some init) uses) {c : Call} (found : r.call? init = some c) :
    c.kind = .method x := by
  obtain ⟨s, rfl, books⟩ := recorded.keepsBooks
  have made := (books.instances there kind).made
  have isMethod := (Recording.mem_callsOf.1 (List.mem_of_find?_eq_some made.symm)).2
  rw [found] at isMethod
  exact Option.some.inj isMethod

/-- What the arguments of a method were recorded as when its frame was entered: the plain ones after the
receiver, the further ones after it, and the keyword arguments. -/
structure Captures (r : Recording) (source : HandleSource) (f : Frame)
    (named : List (String × ObjectId)) (extra keywords : Option (String × ObjectId)) : Prop where
  named : List.Forall₂ r.Knows f.args.named.tail named
  extra : List.Forall₂ r.Knows (f.furtherArgument source).toList extra.toList
  keywords : List.Forall₂ r.Knows f.args.keywords.toList keywords.toList

/-- One more event is one more step. -/
theorem recording_concat (w : Watch) (past : List Event) (e : Event) :
    w.recording (past ++ [e]) = ((w.after past).step e).1.recording := by
  rw [recording, after_append]
  rfl

/-- A constructor call has the arguments of its frame. -/
theorem Records.exists_captures {before after : List Event} {f : Frame}
    (recorded : w.Records (before ++ .call f :: after) r)
    (captured : (w.recording (before ++ [.call f])).HasCall ⟨(w.recording before).calls.size⟩)
    {c : Call} (found : r.call? ⟨(w.recording before).calls.size⟩ = some c) {x : ObjectId}
    (kind : c.kind = .method x) :
    (f.args.named = [] → f.args.extra.isSome) ∧ ∃ named extra keywords,
      c.input = .ofList (named ++ extra.toList ++ keywords.toList) ∧
      Captures (w.recording (before ++ [.call f])) (w.after before).handles f named extra keywords := by
  obtain ⟨d, opened⟩ := captured
  have split : before ++ .call f :: after = (before ++ [.call f]) ++ after := by simp
  rw [split] at recorded
  obtain ⟨c', there, sameKind, -, sameInput⟩ := recorded.exists_call opened
  cases found.symm.trans there
  rw [recording_concat] at opened ⊢
  obtain ⟨receiver, method, entries, -, input, known⟩ :=
    Tracer.call?_step_call (w.nests_after before) opened (sameKind.symm.trans kind)
  obtain ⟨front, last, rfl, known, keywords⟩ := exists_append_of_forall₂ known
  obtain ⟨named, middle, rfl, plain, extra⟩ := exists_append_of_forall₂ known
  obtain ⟨extra?, rfl⟩ := exists_toList_of_forall₂ extra
  obtain ⟨keywords?, rfl⟩ := exists_toList_of_forall₂ keywords
  exact ⟨receiver, named, extra?, keywords?, sameInput.trans input, plain, extra, keywords⟩

end Watch

end Reenact
