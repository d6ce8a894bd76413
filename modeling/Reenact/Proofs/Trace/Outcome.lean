import Reenact.Proofs.Trace.BracketTree
import Reenact.Proofs.Trace.Raising

/-!
# How calls end

Each followed frame of a stream is recorded as a call, and what should become of that call can be told
from the frame itself: which exceptions were delivered to it, what it returns and which exception it
handles then (`Passage.EndsByItself`). The recorder, however, takes an exception to be handled only if
it is the one that it has heard of last, from whatever call.

**The law** (`endsByItself_iff`): every call has the outcome `Passage.outcome`, which is the one that
its own frame asks for unless the frame handles its exception after an exception of another call was
heard. A call that ends so although its exception was handled is in `not_endsByItself`.
-/

namespace Reenact

namespace Passage

variable (p : Passage) (w : Watch) (id : CallId)

/-- The tracer inside the frame, where nothing has happened yet. -/
def entered : Tracer Recorder := ((w.after p.before).step (.call p.frame)).1

/-- The tracer inside the frame, where all has happened but its return. -/
def leaving : Tracer Recorder := (p.entered w).run p.inside.events

/-- The call that the frame is recorded as, if it is followed. -/
def call? : Option CallId :=
  if ((w.after p.before).step (.call p.frame)).2.descend then
    some ⟨(w.recording p.before).calls.size⟩
  else none

/-- What the returned value is recorded as. -/
def output : ObjectId := ((p.leaving w).observer.session.serialize p.value).2

/-- The exceptions delivered inside the frame of a call, at any depth. -/
def heard : List Delivery := p.inside.deliveries (p.entered w) (some id) none

/-- The exceptions delivered to the call of the frame itself. -/
def own : List Delivery := deliveredTo id (p.heard w id)

/-- How the call of the frame ends. An exception that was delivered to it is handled when the frame
handles the one that was heard last, whichever call that was delivered to. -/
def outcome : Outcome :=
  match (p.own w id).getLast? with
  | none => .returned (p.output w)
  | some d =>
    if p.handled = (p.heard w id).getLast?.map Delivery.traceback then .returned (p.output w)
    else d.outcome

/-- The call ends by what was delivered to it and what its frame handles. -/
structure EndsByItself (outcome : Option Outcome) : Prop where
  undelivered : p.own w id = [] → outcome = some (.returned (p.output w))
  unhandled : ∀ d, (p.own w id).getLast? = some d → p.handled = none → outcome = some d.outcome
  handled : ∀ d, (p.own w id).getLast? = some d → p.handled = some d.traceback →
    outcome = some (.returned (p.output w))

/-- If the frame handles the exception that was delivered to its call last, no exception from elsewhere
was heard after it. -/
def IsUndisturbed : Prop :=
  ∀ d e, (p.own w id).getLast? = some d → (p.heard w id).getLast? = some e →
    p.handled = some d.traceback → e.traceback = d.traceback

variable {p w id}

/-- Whatever was delivered to the call was heard. -/
theorem exists_heard {d : Delivery} (last : (p.own w id).getLast? = some d) :
    ∃ e, (p.heard w id).getLast? = some e := by
  have mem : d ∈ p.heard w id := (List.mem_filter.1 (List.mem_of_getLast? last)).1
  exact ⟨_, List.getLast?_eq_some_getLast (List.ne_nil_of_mem mem)⟩

/-- A call ends by itself unless it is disturbed. -/
theorem endsByItself_outcome_iff :
    p.EndsByItself w id (some (p.outcome w id)) ↔ p.IsUndisturbed w id := by
  constructor
  · intro ends d e own heard handled
    have returned := Option.some.inj (ends.handled d own handled)
    rw [outcome, own, heard] at returned
    dsimp only at returned
    split at returned
    · rename_i same
      rw [handled] at same
      exact (Option.some.inj same).symm
    · cases returned
  · intro undisturbed
    constructor
    · intro none
      rw [outcome, none]
      rfl
    · intro d own handled
      obtain ⟨e, heard⟩ := exists_heard own
      rw [outcome, own, heard, handled]
      rfl
    · intro d own handled
      obtain ⟨e, heard⟩ := exists_heard own
      rw [outcome, own, heard, handled, Option.map_some, undisturbed d e own heard handled]
      exact congrArg some (if_pos rfl)

/-- The calls of the frames of a stream are those of its tree of calls. -/
theorem calls_passages (b : Bracketed) (w : Watch) (before : List Event) (n : Nat) :
    (b.passages before).filterMap (·.call? w) = (b.forest (w.after before) n).preorder := by
  induction b generalizing before n with
  | done => rfl
  | plain e plain rest ih =>
    rw [Bracketed.passages, ih _ (n + 1), w.after_append]
    rfl
  | foreign call inside result rest inside_ih rest_ih =>
    rw [Bracketed.passages, List.filterMap_append, inside_ih _ (n + 1),
      rest_ih _ (n + 1 + inside.events.length + 1), ← Forest.preorder_append]
    simp only [w.after_append]
    rfl
  | frame f inside value handled rest inside_ih rest_ih =>
    rw [Bracketed.passages, List.filterMap_cons, List.filterMap_append, inside_ih _ (n + 1),
      rest_ih _ (n + 1 + inside.events.length + 1), call?, Bracketed.forest]
    simp only [w.after_append]
    by_cases followed : ((w.after before).step (.call f)).2.descend = true
    · rw [if_pos followed, if_pos followed]
      rfl
    · rw [if_neg followed, if_neg followed, Forest.preorder_append]
      rfl

/-- A frame that is followed is entered with its call on top of both stacks and without outcome. -/
theorem entered_of_call? (followed : p.call? w = some id) :
    (∃ below depth stack,
      (p.entered w).HasShape (true :: below) depth (.call id :: stack)) ∧
    (∃ c, (p.entered w).recording.call? id = some c ∧ c.outcome = none) ∧
    (p.entered w).IsAt (some .frame) (some id) none := by
  have nests := w.nests_after p.before
  have isAt := Tracer.isAt_step_call nests p.frame
  have descend : (if ((w.after p.before).step (.call p.frame)).2.descend then
      some ⟨(w.after p.before).recording.calls.size⟩ else none) = some id := followed
  rw [descend] at isAt
  rcases Tracer.step_call nests (w.after p.before).hasShape_self p.frame with
    ⟨s, new, follows, opens, told, shape⟩ | ⟨s, declined, -⟩
  · obtain ⟨c, found, unset, -⟩ := opens.call?
    obtain ⟨rfl, -⟩ := opens
    rw [follows, if_pos rfl] at descend
    obtain rfl := Option.some.inj descend
    refine ⟨⟨_, _, _, shape⟩, ⟨c, ?_, unset⟩, isAt⟩
    rw [entered, Tracer.recording, told]
    exact found
  · rw [declined, if_neg Bool.false_ne_true] at descend
    cases descend

/-- When its return comes, the call of a frame has the outcome of the exception that was delivered to it
last, and the traceback remembered is that of the exception heard last. -/
theorem leaving_of_call? (followed : p.call? w = some id)
    (inFrames : p.inside.raisesInFrames (some .frame) = true) :
    (∃ below depth stack,
      (p.leaving w).HasShape (true :: below) depth (.call id :: stack)) ∧
    (∃ c, (p.leaving w).recording.call? id = some c ∧
      c.outcome = (p.own w id).getLast?.map Delivery.outcome) ∧
    ∀ e, (p.heard w id).getLast? = some e →
      (p.leaving w).observer.lastTraceback = some e.traceback := by
  obtain ⟨⟨below, depth, stack, shape⟩, ⟨c, found, unset⟩, isAt⟩ := entered_of_call? followed
  have nests : (p.entered w).observer.Nests := Tracer.nests_step (w.nests_after p.before) _
  have heard : p.heard w id = (p.entered w).delivered p.inside.events :=
    Tracer.deliveries_eq_delivered p.inside nests isAt inFrames
  have shape := Tracer.hasShape_run p.inside nests shape
  obtain ⟨d, found', running⟩ := (Tracer.nests_run nests p.inside.events).areOpen.running
    (by rw [shape.stack]; exact List.mem_cons_self)
  refine ⟨⟨_, _, _, shape⟩, ⟨d, found', ?_⟩, fun e last => ?_⟩
  · rw [Tracer.outcome_run nests p.inside.events found found' running, unset, Option.or_none, own,
      heard]
  · rw [leaving, Tracer.lastTraceback_run nests, ← heard, last]
    rfl

/-- When its return has come, the call of a frame has the outcome of the frame. -/
theorem left_of_call? (followed : p.call? w = some id)
    (inFrames : p.inside.raisesInFrames (some .frame) = true) :
    ∃ c done, ((p.leaving w).step (.ret p.value p.handled)).1.recording.call? id = some c ∧
      c.completedAt = some done ∧ c.outcome = some (p.outcome w id) := by
  obtain ⟨⟨below, depth, stack, shape⟩, ⟨c, found, last⟩, lastTraceback⟩ :=
    leaving_of_call? followed inFrames
  have nests : (p.leaving w).observer.Nests :=
    Tracer.nests_run (Tracer.nests_step (w.nests_after p.before) _) _
  obtain ⟨d, done, found', ended, ends⟩ := Recorder.call?_closeCall nests.sound found p.value
    ((p.leaving w).observer.hasHandled p.handled)
  refine ⟨d, done, by rw [Tracer.recording_step_ret shape]; exact found', ended, ?_⟩
  rw [ends, outcome, Call.hasRaised, Call.exception]
  cases own : (p.own w id).getLast? with
  | none =>
    rw [own] at last
    rw [last]
    exact if_pos (.inl rfl)
  | some e =>
    obtain ⟨e', heard⟩ := exists_heard own
    rw [own] at last
    rw [last, heard, Recorder.hasHandled, lastTraceback e' heard]
    by_cases same : p.handled = some e'.traceback
    · rw [same, beq_self_eq_true]
      exact (if_pos (.inr rfl)).trans (congrArg some (if_pos rfl).symm)
    · have unhandled : (p.handled.isSome && p.handled == some e'.traceback) = false := by
        rw [beq_eq_false_iff_ne.2 same, Bool.and_false]
      rw [unhandled]
      exact (if_neg (by rintro (⟨⟨⟩⟩ | ⟨⟨⟩⟩))).trans (congrArg some (if_neg same).symm)

/-- Every call of a frame of a stream is recorded with the outcome of the frame. -/
theorem call?_of_mem_passages {b : Bracketed} (inFrames : b.raisesInFrames none = true)
    (mem : p ∈ b.passages []) (followed : p.call? w = some id) :
    ∃ c, (w.recording b.events).call? id = some c ∧ c.outcome = some (p.outcome w id) := by
  obtain ⟨c, done, found, ended, ends⟩ :=
    left_of_call? followed (Bracketed.raisesInFrames_of_mem_passages mem inFrames)
  obtain ⟨after, whole⟩ := Bracketed.exists_after_of_mem_passages mem
  have nests : (p.leaving w).observer.Nests :=
    Tracer.nests_run (Tracer.nests_step (w.nests_after p.before) _) _
  have goes : w.after b.events =
      ((p.leaving w).step (.ret p.value p.handled)).1.run after := by
    rw [← List.nil_append b.events, whole, w.after_append, Tracer.run_cons, Tracer.run_append]
    rfl
  refine ⟨c, ?_, ends⟩
  rw [Watch.recording, goes]
  exact (Tracer.continues_run (Tracer.nests_step nests _) after).call?_of_ended found
    (by rw [ended]; exact Option.some_ne_none _)

/-- The calls that are recorded of a stream are those of its frames. -/
theorem hasCall_iff (b : Bracketed) (w : Watch) (id : CallId) :
    (w.recording b.events).HasCall id ↔ ∃ p ∈ b.passages [], p.call? w = some id := by
  have adds := Tracer.adds_run b (w.nests_after []) 0
  have new : ¬(w.recording []).HasCall id := by
    rintro ⟨c, found⟩
    cases found
  rw [← List.mem_filterMap, calls_passages b w [] 0, adds.mem_iff]
  exact (and_iff_left new).symm

end Passage

namespace Watch

variable {w : Watch} {events : List Event} {r : Recording}

/-- Calls are recorded alike before and after the end of a recording, subcalls apart. -/
theorem Records.alone (h : w.Records events r) (id : CallId) :
    (r.call? id).map Call.alone = ((w.recording events).call? id).map Call.alone := by
  obtain ⟨isExhausted, rfl | rfl⟩ := h
  · rfl
  · exact Recording.alone_finish _ isExhausted id

theorem Records.hasCall_iff (h : w.Records events r) (id : CallId) :
    r.HasCall id ↔ (w.recording events).HasCall id := by
  have same := congrArg Option.isSome (h.alone id)
  rw [Option.isSome_map, Option.isSome_map] at same
  rw [Recording.HasCall, Recording.HasCall, ← Option.isSome_iff_exists, ← Option.isSome_iff_exists,
    same]

theorem Records.outcome (h : w.Records events r) {id : CallId} {c : Call}
    (found : (w.recording events).call? id = some c) :
    ∃ d, r.call? id = some d ∧ d.outcome = c.outcome := by
  have same := h.alone id
  rw [found] at same
  obtain ⟨d, found', same⟩ := Option.map_eq_some_iff.1 same
  have outcome : d.alone.outcome = c.alone.outcome := congrArg Call.outcome same
  exact ⟨d, found', outcome⟩

/-! ## A second exception -/

namespace Masked

/-- A project with two functions without parameters. -/
def project : Project where
  root := "/p"
  functions := #[⟨"f", "m", [], false, []⟩, ⟨"g", "m", [], false, []⟩]
  classes := #[]

/-- A watch of the project with nothing patched. -/
def watch : Watch := ⟨project, ⟨0⟩, .standard, .default, .empty, []⟩

def null : Value := .literal ⟨.observed 3, "NoneType", "builtins", []⟩ .none

/-- A frame of a function without arguments. -/
def frame (name : String) (code : Nat) : Frame :=
  ⟨⟨⟨code⟩, name, "/p/m.py", false, false⟩, ⟨[], none, none⟩, none⟩

/-- An exception. -/
def raised (typeName : String) (handle : Nat) : Raised :=
  .value (.exception ⟨.observed handle, typeName, "builtins", []⟩ [] true)

/-- The second function raises an exception and handles it. -/
def inner : Bracketed :=
  .plain (.raise (raised "ValueError" 2) ⟨2⟩) rfl .done

/-- The first function raises an exception and handles it, and calls the second one meanwhile. -/
def inside : Bracketed :=
  .plain (.raise (raised "KeyError" 1) ⟨1⟩) rfl (.frame (frame "g" 11) inner null (some ⟨2⟩) .done)

def stream : Bracketed := .frame (frame "f" 10) inside null (some ⟨1⟩) .done

/-- The frame of the first function. -/
def outer : Passage := ⟨[], frame "f" 10, inside, null, some ⟨1⟩⟩

/-- What was recorded of it. -/
def recording : Recording := (watch.recording stream.events).finish fun _ => false

theorem inFrames : stream.raisesInFrames none = true := by decide

theorem records : watch.Records stream.events recording := ⟨fun _ => false, .inr rfl⟩

theorem call_outer : outer.call? watch = some ⟨0⟩ := by decide +kernel

theorem own_outer : outer.own watch ⟨0⟩ = [⟨⟨0⟩, ⟨0⟩, ⟨1⟩⟩] := by decide +kernel

/-- The call of the first function is recorded to have raised. -/
theorem outcome_outer : (recording.call? ⟨0⟩).map Call.outcome = some (some (.raised ⟨0⟩)) := by
  decide +kernel

end Masked

/-- In a stream whose exceptions all pass through frames, the calls recorded are those of the followed
frames. Each ends by what was delivered to it and what its frame handles, exactly when no exception of
another call was heard after one that the frame handles. -/
theorem endsByItself_iff (w : Watch) (b : Bracketed) (inFrames : b.raisesInFrames none = true)
    (r : Recording) (recorded : w.Records b.events r) :
    (∀ id, r.HasCall id ↔ ∃ p ∈ b.passages [], p.call? w = some id) ∧
    ∀ p ∈ b.passages [], ∀ id, p.call? w = some id →
      ∃ c, r.call? id = some c ∧ c.outcome = some (p.outcome w id) ∧
        (p.EndsByItself w id c.outcome ↔ p.IsUndisturbed w id) := by
  constructor
  · intro id
    rw [recorded.hasCall_iff, Passage.hasCall_iff]
  · intro p mem id followed
    obtain ⟨c, found, ends⟩ := Passage.call?_of_mem_passages inFrames mem followed
    obtain ⟨d, found', same⟩ := recorded.outcome found
    refine ⟨d, found', same.trans ends, ?_⟩
    rw [same, ends]
    exact Passage.endsByItself_outcome_iff

theorem endsByItself_iff_masked : Masked.stream.raisesInFrames none = true ∧
    Masked.watch.Records Masked.stream.events Masked.recording ∧
    (∀ id, Masked.recording.HasCall id ↔
      ∃ p ∈ Masked.stream.passages [], p.call? Masked.watch = some id) ∧
    ∀ p ∈ Masked.stream.passages [], ∀ id, p.call? Masked.watch = some id →
      ∃ c, Masked.recording.call? id = some c ∧ c.outcome = some (p.outcome Masked.watch id) ∧
        (p.EndsByItself Masked.watch id c.outcome ↔ p.IsUndisturbed Masked.watch id) :=
  ⟨Masked.inFrames, Masked.records, endsByItself_iff Masked.watch Masked.stream Masked.inFrames
    Masked.recording Masked.records⟩

/-- Not every call ends by itself: an exception that is raised and handled in a nested call makes the
call around it forget that it has handled its own. -/
theorem not_endsByItself : ¬∀ (w : Watch) (b : Bracketed), b.raisesInFrames none = true →
    ∀ r, w.Records b.events r → ∀ p ∈ b.passages [], ∀ id ∈ r.captured, p.call? w = some id →
      ∀ c, r.call? id = some c → p.EndsByItself w id c.outcome := by
  intro byItself
  obtain ⟨c, found, raised⟩ := Option.map_eq_some_iff.1 Masked.outcome_outer
  have captured : ⟨0⟩ ∈ Masked.recording.captured := by decide +kernel
  have ends := byItself Masked.watch Masked.stream Masked.inFrames Masked.recording Masked.records
    Masked.outer List.mem_cons_self ⟨0⟩ captured Masked.call_outer c found
  have last : (Masked.outer.own Masked.watch ⟨0⟩).getLast? = some ⟨⟨0⟩, ⟨0⟩, ⟨1⟩⟩ := by
    rw [Masked.own_outer]
    rfl
  have returned := ends.handled _ last rfl
  rw [raised] at returned
  cases returned

end Watch

end Reenact
