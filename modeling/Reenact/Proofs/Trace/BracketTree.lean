import Reenact.Proofs.Recording.Forest
import Reenact.Proofs.Trace.Shape

/-!
# The tree of calls

What a well-bracketed stream should be recorded as can be told from its brackets and from which calls
were answered with "follow": the followed frames, nested as they were in the stream, each owning the
side effects that were seen directly inside it. `Bracketed.forest` and `Bracketed.effects` say so by
recursion on the stream, without any stack.

**The law** (`mirrors_bracketed`): that is what the recorder leaves behind. Its stack of calls and
foreign calls and the tracer's stack of frames compute the tree of brackets: through frames that are
passed over, calls that are declined, foreign code that calls back, and exceptions on the way.
-/

namespace Reenact

/-! ## What a stream should be recorded as -/

namespace Bracketed

/-- The side effects that are seen outside all followed frames of the stream. -/
def effects (t : Tracer Recorder) : Bracketed → List EffectId
  | done => []
  | plain e _ rest =>
    let after := (t.step e).1
    t.recording.effectsSince after.recording ++ rest.effects after
  | foreign call inside result rest =>
    let entered := (t.step (.foreignCall call)).1
    let before := entered.run inside.events
    let left := (before.step (.foreignReturn result)).1
    t.recording.effectsSince entered.recording ++ inside.effects entered ++
      before.recording.effectsSince left.recording ++ rest.effects left
  | frame f inside value handled rest =>
    let entered := (t.step (.call f)).1
    let before := entered.run inside.events
    let left := (before.step (.ret value handled)).1
    t.recording.effectsSince entered.recording ++
      (if (t.step (.call f)).2.descend then []
        else inside.effects entered ++ before.recording.effectsSince left.recording) ++
      rest.effects left

/-- The followed frames of a stream whose first event is the event number `n`. Each gets the number of
the next call when it is entered. -/
def forest (t : Tracer Recorder) (n : Nat) : Bracketed → Forest
  | done => .nil
  | plain e _ rest => rest.forest (t.step e).1 (n + 1)
  | foreign call inside result rest =>
    let entered := (t.step (.foreignCall call)).1
    let left := ((entered.run inside.events).step (.foreignReturn result)).1
    (inside.forest entered (n + 1)).append (rest.forest left (n + 1 + inside.events.length + 1))
  | frame f inside value handled rest =>
    let entered := (t.step (.call f)).1
    let before := entered.run inside.events
    let left := (before.step (.ret value handled)).1
    let others := rest.forest left (n + 1 + inside.events.length + 1)
    if (t.step (.call f)).2.descend then
      .node ⟨t.recording.calls.size⟩ n (n + 1 + inside.events.length)
        (inside.effects entered ++ before.recording.effectsSince left.recording)
        (inside.forest entered (n + 1)) others
    else (inside.forest entered (n + 1)).append others

end Bracketed

namespace Tracer

/-- The positions of the calls that are answered with "follow", in a stream whose first event is the
event number `n`. -/
def followedCalls (t : Tracer Recorder) (n : Nat) : List Event → List Nat
  | [] => []
  | .call f :: rest =>
    if (t.step (.call f)).2.descend then n :: followedCalls (t.step (.call f)).1 (n + 1) rest
    else followedCalls (t.step (.call f)).1 (n + 1) rest
  | e :: rest => followedCalls (t.step e).1 (n + 1) rest

theorem followedCalls_append (t : Tracer Recorder) (n : Nat) (first second : List Event) :
    t.followedCalls n (first ++ second) =
      t.followedCalls n first ++ (t.run first).followedCalls (n + first.length) second := by
  induction first generalizing t n with
  | nil => rfl
  | cons e rest ih =>
    cases e with
    | call f =>
      simp only [List.cons_append, followedCalls, ih, run_cons, List.length_cons]
      rw [Nat.add_right_comm n 1, Nat.add_assoc n]
      split <;> rfl
    | _ =>
      simp only [List.cons_append, followedCalls, ih, run_cons, List.length_cons]
      rw [Nat.add_right_comm n 1, Nat.add_assoc n]

end Tracer

/-- The calls of the forest were entered at the calls of the stream that were answered with
"follow". -/
theorem Bracketed.entrances_forest (b : Bracketed) (t : Tracer Recorder) (n : Nat) :
    (b.forest t n).entrances = t.followedCalls n b.events := by
  induction b generalizing t n with
  | done => rfl
  | plain e plain rest ih =>
    cases e with
    | call | ret | foreignCall | foreignReturn => cases plain
    | raise | globalRead | globalRebind | attributeRebind | moduleLoaded => exact ih ..
  | foreign call inside result rest inside_ih rest_ih =>
    simp only [forest, events, Forest.entrances_append, Tracer.followedCalls,
      Tracer.followedCalls_append, inside_ih, rest_ih]
  | frame f inside value handled rest inside_ih rest_ih =>
    simp only [forest, events, Tracer.followedCalls, Tracer.followedCalls_append]
    split
    · simp only [Forest.entrances, inside_ih, rest_ih]
    · simp only [Forest.entrances_append, inside_ih, rest_ih]

/-! ## What a stream adds -/

namespace Recorder

variable {r r' : Recorder}

/-- Setting an outcome adds neither calls nor side effects. -/
theorem adds_setsOutcome {s t : Session} {id : CallId} (sets : s.SetsOutcome id t)
    (known : s.recording.HasCall id) : s.recording.Adds t.recording (some id) .nil [] ∧
      t.recording.effects = s.recording.effects := by
  obtain ⟨before, outcome, notes, -, rfl⟩ := sets
  have adds := Recording.adds_modifyCall before.recording id
    (show ∀ c, (Recording.withOutcome outcome c).caller = c.caller from fun _ => rfl)
    (fun _ => rfl) fun _ => rfl
  exact ⟨(notes.adds (some id)).append adds fun _ eq => Option.some.inj eq ▸ known,
    notes.sameCalls.effects⟩

/-- Ending a call adds neither calls nor side effects. -/
theorem adds_closes {s t : Session} {id : CallId} (closes : s.Closes id t)
    (known : s.recording.HasCall id) : s.recording.Adds t.recording (some id) .nil [] ∧
      t.recording.effects = s.recording.effects := by
  obtain ⟨before, rfl | sets, rfl⟩ := closes
  · exact ⟨Recording.adds_endCall _ id, rfl⟩
  · obtain ⟨adds, same⟩ := adds_setsOutcome sets known
    exact ⟨adds.append (Recording.adds_endCall _ id) fun _ eq => Option.some.inj eq ▸ known, same⟩

/-- An observation that opens no call adds no call, and its side effects to the innermost call. -/
theorem Nests.adds (nests : r.Nests) (step : r.Step r')
    (quiet : ∀ id, r'.stack ≠ .call id :: r.stack) :
    r.session.recording.Adds r'.session.recording r.currentCall .nil
      (r.session.recording.effectsSince r'.session.recording) := by
  have known : ∀ id, r.currentCall = some id → r.session.recording.HasCall id :=
    nests.hasCall_current
  have current {id : CallId} {rest : List Running} (top : r.stack = .call id :: rest) :
      r.currentCall = some id := by rw [currentCall, top]; rfl
  cases step with
  | noted notes => exact (notes.adds _).since notes.sameCalls.effects
  | opened opens => exact absurd rfl (quiet _)
  | failed traceback top sets =>
    rw [current top]
    obtain ⟨adds, same⟩ := adds_setsOutcome sets (known _ (current top))
    exact adds.since same
  | closed top closes =>
    rw [current top]
    obtain ⟨adds, same⟩ := adds_closes closes (known _ (current top))
    exact adds.since same
  | entered notes _ => exact (notes.adds _).since notes.sameCalls.effects
  | left top => exact ((Session.Notes.refl r.session).adds _).since rfl
  | @mutated m rest top =>
    have current : Recorder.innermost rest = r.currentCall := by rw [currentCall, top]; rfl
    rw [← current] at known ⊢
    rw [Session.addEffect, Recording.effectsSince_pushEffect]
    exact Recording.adds_pushEffect _ known
  | @affected s change notes _ =>
    have known' : ∀ id, r.currentCall = some id → s.recording.HasCall id :=
      fun id current => (known id current).mono notes.grows
    have new : r.session.recording.effectsSince (s.addEffect change r.currentCall).1.recording =
        [⟨s.recording.effects.size⟩] := by
      rw [← Recording.effectsSince_pushEffect s.recording change r.currentCall,
        Recording.effectsSince, ← notes.sameCalls.effects]
      rfl
    rw [new]
    exact (notes.adds _).append (Recording.adds_pushEffect change known') known

/-- A call that is opened is added under the innermost call. -/
theorem Nests.adds_opens (nests : r.Nests) {id : CallId} {s : Session}
    (opens : r.session.Opens r.currentCall id s) (entered left : Nat) :
    r.session.recording.Adds s.recording r.currentCall
      (.node ⟨r.session.recording.calls.size⟩ entered left [] .nil .nil) [] ∧
      id = ⟨r.session.recording.calls.size⟩ ∧
      s.recording.effects = r.session.recording.effects := by
  obtain ⟨rfl, before, kind, definition, input, notes, -, after⟩ := opens
  have known : ∀ id, r.currentCall = some id → r.session.recording.HasCall id :=
    nests.hasCall_current
  have known' : ∀ id, r.currentCall = some id → before.recording.HasCall id :=
    fun id current => (known id current).mono notes.grows
  have pushed := Recording.adds_pushCall kind definition input known' entered left
  refine ⟨?_, rfl, ?_⟩
  · rw [← notes.sameCalls.calls]
    exact ((notes.adds _).append pushed known).append (after.adds _) known
  · rw [after.sameCalls.effects, Recording.effects_pushCall, notes.sameCalls.effects]

end Recorder

namespace Tracer

variable {t : Tracer Recorder}

/-- The innermost call is the innermost one on the stack. -/
theorem HasShape.currentCall {followed : List Bool} {depth : Nat} {stack : List Running}
    (h : t.HasShape followed depth stack) :
    t.observer.currentCall = Recorder.innermost stack := by
  rw [Recorder.currentCall, h.stack]

/-- An event that puts no call on the stack of the recorder adds no call, and its side effects to the
innermost call. -/
theorem adds_step (nests : t.observer.Nests) (e : Event)
    (quiet : ∀ id, (t.step e).1.observer.stack ≠ .call id :: t.observer.stack) :
    t.recording.Adds (t.step e).1.recording t.observer.currentCall .nil
      (t.recording.effectsSince (t.step e).1.recording) :=
  nests.adds (step_observer nests e) quiet

/-- An event after which no more is running than before puts no call on the stack. -/
theorem adds_step_of_le (nests : t.observer.Nests) (e : Event)
    (le : (t.step e).1.observer.stack.length ≤ t.observer.stack.length) :
    t.recording.Adds (t.step e).1.recording t.observer.currentCall .nil
      (t.recording.effectsSince (t.step e).1.recording) := by
  apply adds_step nests
  intro id eq
  rw [eq, List.length_cons] at le
  omega

/-- A followed frame adds one call, with what is added between its call and its end. -/
theorem adds_followed (nests : t.observer.Nests) {e : Event} {s : Session} {id : CallId}
    (opens : t.observer.session.Opens t.observer.currentCall id s)
    (session : (t.step e).1.recording = s.recording) {last : Recording} {forest : Forest}
    {effects : List EffectId} (n left : Nat)
    (inner : (t.step e).1.recording.Adds last (some id) forest effects) :
    t.recording.Adds last t.observer.currentCall
      (.node ⟨t.recording.calls.size⟩ n left effects forest .nil) [] ∧
      t.recording.effectsSince (t.step e).1.recording = [] := by
  obtain ⟨first, rfl, same⟩ := nests.adds_opens opens n left
  rw [← session] at first same
  exact ⟨first.inside inner, Recording.effectsSince_eq_nil (congrArg Array.size same)⟩

/-- A well-bracketed stream adds its followed frames and its side effects to the innermost call. -/
theorem adds_run (b : Bracketed) (nests : t.observer.Nests) (n : Nat) :
    t.recording.Adds (t.run b.events).recording t.observer.currentCall (b.forest t n)
      (b.effects t) := by
  -- the shape before the stream is the shape at each return to the same level of brackets
  induction b generalizing t n with
  | done => exact (Session.Notes.refl t.observer.session).adds _
  | plain e plain rest ih =>
    have shape := hasShape_plain t.hasShape_self plain
    have first := adds_step_of_le nests e (Nat.le_of_eq (congrArg List.length shape.stack))
    have others := ih (nests_step nests e) (n + 1)
    rw [shape.currentCall] at others
    exact first.append others nests.hasCall_current
  | foreign call inside result rest inside_ih rest_ih =>
    obtain ⟨mutation, entered⟩ := hasShape_foreignCall t.hasShape_self call
    have entered_nests := nests_step nests (.foreignCall call)
    have before := hasShape_run inside entered_nests entered
    have before_nests := nests_run entered_nests inside.events
    have left := hasShape_foreignReturn before result
    have first := adds_step nests (.foreignCall call) fun id eq => by
      rw [entered.stack] at eq
      cases eq
    have inner := inside_ih entered_nests (n + 1)
    have last := adds_step_of_le before_nests (.foreignReturn result) (by
      rw [left.stack, before.stack]
      exact Nat.le_succ _)
    have others := rest_ih (nests_step before_nests (.foreignReturn result))
      (n + 1 + inside.events.length + 1)
    rw [entered.currentCall] at inner
    rw [before.currentCall] at last
    rw [left.currentCall] at others
    rw [Bracketed.events, run_cons, run_append, run_cons]
    exact first.through inner last others nests.hasCall_current
  | frame f inside value handled rest inside_ih rest_ih =>
    have entered_nests := nests_step nests (.call f)
    have before_nests := nests_run entered_nests inside.events
    have inner := inside_ih entered_nests (n + 1)
    have others := rest_ih (nests_step before_nests (.ret value handled))
      (n + 1 + inside.events.length + 1)
    rw [Bracketed.events, run_cons, run_append, run_cons, Bracketed.forest, Bracketed.effects]
    rcases step_call nests t.hasShape_self f with
      ⟨s, id, followed, opens, observer, entered⟩ | ⟨s, declined, notes, observer, entered⟩
    · have session : (t.step (.call f)).1.recording = s.recording := by rw [recording, observer]
      have before := hasShape_run inside entered_nests entered
      have left := hasShape_ret_followed before value handled
      have last := adds_step_of_le before_nests (.ret value handled) (by
        rw [left.stack, before.stack]
        exact Nat.le_succ _)
      rw [entered.currentCall] at inner
      rw [before.currentCall] at last
      rw [left.currentCall] at others
      have opened : ∀ x, some id = some x → (t.step (.call f)).1.recording.HasCall x := by
        rintro x ⟨⟩
        exact entered_nests.hasCall_top entered.stack
      obtain ⟨here, silent⟩ := adds_followed nests opens session n (n + 1 + inside.events.length)
        (inner.append last opened)
      have all := here.append others nests.hasCall_current
      rw [Forest.append_nil] at all
      rw [followed, if_pos rfl, if_pos rfl, silent]
      exact all
    · have before := hasShape_run inside entered_nests entered
      obtain ⟨told, left⟩ := step_ret_passed before value handled
      have first := adds_step_of_le nests (.call f) (Nat.le_of_eq (congrArg List.length entered.stack))
      have last := adds_step_of_le before_nests (.ret value handled)
        (Nat.le_of_eq (by rw [told]))
      rw [entered.currentCall] at inner
      rw [before.currentCall] at last
      rw [left.currentCall] at others
      rw [declined, if_neg Bool.false_ne_true, if_neg Bool.false_ne_true, ← List.append_assoc]
      exact first.through inner last others nests.hasCall_current

end Tracer

/-! ## When calls start and end -/

/-- The fact comes about at the event number `n`, where `record k` is the recording after `k` events:
it is not there as long as at most `n` events have happened, and is there ever after. -/
def StampedAt (record : Nat → Recording) (f : Fact) (n : Nat) : Prop :=
  ∀ k, ((record k).momentOf f).isSome = true ↔ n < k

/-- Each call of the forest starts at the event at which it is entered, and ends at the one at which
it is left. -/
def Forest.IsTimed (record : Nat → Recording) : Forest → Prop
  | .nil => True
  | .node id entered left _ inside rest =>
    StampedAt record (.start id) entered ∧ StampedAt record (.completion id) left ∧
      inside.IsTimed record ∧ rest.IsTimed record

theorem Forest.isTimed_append {record : Nat → Recording} {f g : Forest} (first : f.IsTimed record)
    (second : g.IsTimed record) : (f.append g).IsTimed record := by
  induction f with
  | nil => exact second
  | node _ _ _ _ inside rest _ ih =>
    obtain ⟨start, done, inner, others⟩ := first
    exact ⟨start, done, inner, ih others⟩

/-- What is there once stays, so a fact comes about only once. -/
theorem stampedAt_of_step {record : Nat → Recording} {f : Fact} {n : Nat}
    (grows : ∀ k l, k ≤ l → (record k).Grows (record l))
    (before : (record n).momentOf f = none) (after : ((record (n + 1)).momentOf f).isSome = true) :
    StampedAt record f n := by
  intro k
  constructor
  · intro there
    by_contra early
    obtain ⟨m, stamped⟩ := Option.isSome_iff_exists.1 there
    rw [(grows k n (Nat.not_lt.1 early)).momentOf stamped] at before
    cases before
  · intro late
    obtain ⟨m, stamped⟩ := Option.isSome_iff_exists.1 after
    rw [(grows (n + 1) k late).momentOf stamped]
    rfl

namespace Tracer

variable {t : Tracer Recorder}

/-- The recordings from the number `n` on are those that the tracer makes of the events. -/
def Yields (t : Tracer Recorder) (events : List Event) (n : Nat) (record : Nat → Recording) :
    Prop :=
  ∀ k ≤ events.length, record (n + k) = (t.run (events.take k)).recording

variable {record : Nat → Recording} {n : Nat} {first second : List Event}

theorem Yields.left (h : t.Yields (first ++ second) n record) : t.Yields first n record := by
  intro k le
  rw [h k (by rw [List.length_append]; omega), List.take_append_of_le_length le]

theorem Yields.right (h : t.Yields (first ++ second) n record) :
    (t.run first).Yields second (n + first.length) record := by
  intro k le
  rw [Nat.add_assoc, h (first.length + k) (by rw [List.length_append]; omega),
    List.take_length_add_append, run_append]

theorem Yields.start (h : t.Yields first n record) : record n = t.recording :=
  h 0 (Nat.zero_le _)

theorem Yields.tail {e : Event} (h : t.Yields (e :: first) n record) :
    (t.step e).1.Yields first (n + 1) record := by
  have whole : t.Yields ([e] ++ first) n record := h
  exact whole.right

/-- The followed frames of a stream are called and completed at their own brackets. -/
theorem isTimed_run (b : Bracketed) (nests : t.observer.Nests)
    (yields : t.Yields b.events n record)
    (grows : ∀ k l, k ≤ l → (record k).Grows (record l)) : (b.forest t n).IsTimed record := by
  induction b generalizing t n with
  | done => trivial
  | plain e plain rest ih => exact ih (nests_step nests e) yields.tail
  | foreign call inside result rest inside_ih rest_ih =>
    have entered := nests_step nests (.foreignCall call)
    have before := nests_run entered inside.events
    exact Forest.isTimed_append (inside_ih entered yields.tail.left)
      (rest_ih (nests_step before _) yields.tail.right.tail)
  | frame f inside value handled rest inside_ih rest_ih =>
    have entered_nests := nests_step nests (.call f)
    have before_nests := nests_run entered_nests inside.events
    have left_nests := nests_step before_nests (.ret value handled)
    have inner := inside_ih entered_nests yields.tail.left
    have others := rest_ih left_nests yields.tail.right.tail
    rw [Bracketed.forest]
    rcases step_call nests t.hasShape_self f with
      ⟨s, id, followed, opens, observer, entered⟩ | ⟨s, declined, -⟩
    · obtain ⟨first, rfl, -⟩ := nests.adds_opens opens n (n + 1 + inside.events.length)
      have session : (t.step (.call f)).1.recording = s.recording := by rw [recording, observer]
      rw [← session] at first
      have before := hasShape_run inside entered_nests entered
      have left := hasShape_ret_followed before value handled
      have opened : (t.step (.call f)).1.recording.HasCall ⟨t.recording.calls.size⟩ :=
        first.hasCall_of_mem List.mem_cons_self
      rw [followed, if_pos rfl]
      refine ⟨stampedAt_of_step grows ?_ ?_, stampedAt_of_step grows ?_ ?_, inner, others⟩
      · rw [yields.start]
        exact Recording.momentOf_start_new _
      · rw [yields.tail.start]
        exact Recording.momentOf_start_of_hasCall opened
      · -- on the stack until its return, the call has not ended
        rw [yields.tail.right.start]
        obtain ⟨c, found, running⟩ := before_nests.areOpen.running
          (by rw [before.stack]; exact List.mem_cons_self)
        exact Recording.momentOf_completion_of_running found running
      · -- off the stack, it has
        rw [yields.tail.right.tail.start]
        have known : (((t.step (.call f)).1.run inside.events).step
            (.ret value handled)).1.recording.HasCall ⟨t.recording.calls.size⟩ :=
          (opened.mono (grows_run entered_nests inside.events)).mono
            (before_nests.grows (step_observer before_nests _))
        refine Recording.momentOf_completion_of_hasEnded (left_nests.ended _ known fun mem => ?_)
        rw [left.stack] at mem
        obtain ⟨d, found, -⟩ := nests.areOpen.running mem
        exact Nat.lt_irrefl _ (Recording.hasCall_iff.1 (.of_call? found))
    · rw [declined, if_neg Bool.false_ne_true]
      exact Forest.isTimed_append inner others

end Tracer

/-! ## The theorem -/

namespace Watch

/-- The followed frames of a stream. -/
def forest (w : Watch) (b : Bracketed) : Forest := b.forest w.start 0

/-- The recording of a stream is its tree of followed frames. -/
structure Mirrors (w : Watch) (b : Bracketed) : Prop where
  /-- The tracer has no frame entered. -/
  frames : (w.after b.events).depth = 0
  /-- The tracer counts no foreign call as running. -/
  foreignDepth : (w.after b.events).foreignDepth = 0
  /-- The recorder has nothing running. -/
  stack : (w.after b.events).observer.depth = 0
  /-- The frames of the tree are those whose calls were answered with "follow", in order. -/
  followed : (w.forest b).entrances = w.start.followedCalls 0 b.events
  /-- There is one call for each of them, numbered in the order of the stream. -/
  numbers : (w.forest b).preorder = (List.range (w.recording b.events).calls.size).map CallId.mk
  /-- Those are the calls captured. -/
  captured : (w.recording b.events).captured = (w.forest b).preorder
  /-- The calls without caller are those outside of all others. -/
  roots : (w.recording b.events).roots = (w.forest b).roots
  /-- Every other call was made from the innermost frame around it, which has its subcalls in the
  order of the stream, and owns the side effects seen directly inside it. -/
  calls : (w.recording b.events).Matches none (w.forest b)
  /-- The side effects outside of all calls are those seen outside of all followed frames. -/
  rootEffects : (w.recording b.events).rootEffects = b.effects w.start
  /-- Every side effect is among these or those of a call. -/
  effects : ∀ id, (w.recording b.events).HasEffect id ↔
    id ∈ b.effects w.start ++ (w.forest b).allEffects
  /-- The calls captured are met in order on the walk from the roots through subcalls. -/
  walk : (w.recording b.events).Walk (w.recording b.events).roots (w.recording b.events).captured
  /-- Each call starts at its own call event, and ends at the matching return and at no other
  event. -/
  timed : (w.forest b).IsTimed fun k => w.recording (b.events.take k)

/-- The two stack machines compute the tree of brackets of every well-bracketed stream. -/
theorem mirrors_bracketed (w : Watch) (b : Bracketed) : w.Mirrors b := by
  have nests : w.start.observer.Nests := Recorder.nests_start ..
  have shape : (w.after b.events).HasShape [] 0 [] := Tracer.hasShape_run b nests ⟨rfl, rfl, rfl⟩
  have adds := Tracer.adds_run b nests 0
  have captured : (w.recording b.events).captured = (w.forest b).preorder := adds.captured
  have roots : (w.recording b.events).roots = (w.forest b).roots := adds.roots
  exact
    { frames := by rw [Tracer.depth, ← List.length_map, shape.frames, List.length_nil]
      foreignDepth := shape.foreignDepth
      stack := by rw [Recorder.depth, shape.stack, List.length_nil]
      followed := Bracketed.entrances_forest b w.start 0
      numbers := by
        have size : (w.recording b.events).calls.size = 0 + (w.forest b).preorder.length := adds.size
        rw [size, Nat.zero_add, List.range_eq_range']
        exact adds.numbers
      captured := captured
      roots := roots
      calls := adds.trees
      rootEffects := adds.rootEffects
      effects := fun id => by
        rw [Recording.hasEffect_iff]
        exact (and_iff_right (Nat.zero_le _)).symm.trans (adds.counted id).symm
      walk := by
        rw [roots, captured]
        exact adds.trees.walk
      timed := Tracer.isTimed_run b nests
        (fun k _ => by rw [Nat.zero_add]; rfl) (w.grows_take b.events) }

end Watch

end Reenact
