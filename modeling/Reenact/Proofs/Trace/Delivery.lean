import Reenact.Proofs.Trace.Frames

/-!
# Exceptions in their frames

An exception that passes through a frame is delivered to the call of that frame, unless its type is
ignored or it is the one that was delivered to the frame last. Which exceptions are delivered, and to
which call, can be told from the brackets of a stream: `Bracketed.deliveries` follows the tree and knows
of no stack. The recorder is told of exceptions by the tracer, and attributes each one to whatever is
innermost on a stack of its own.

**The law** (`deliveries_eq_delivered`): where exceptions only pass through frames, the two stacks
deliver what the tree says.
-/

namespace Reenact

/-- An exception delivered to a call. -/
structure Delivery where
  call : CallId
  /-- What the exception was recorded as. -/
  object : ObjectId
  traceback : TracebackId
  deriving DecidableEq

/-- How a call ends that nothing happens to after the exception. -/
def Delivery.outcome (d : Delivery) : Outcome := .raised d.object

/-- The exceptions delivered to a call. -/
def deliveredTo (id : CallId) (all : List Delivery) : List Delivery := all.filter (·.call == id)

/-- What an exception is recorded as when it is delivered. -/
def Tracer.objectOf (t : Tracer Recorder) (raised : Raised) : ObjectId :=
  (t.observer.session.serialize (raised.toValue t.handles).2).2

namespace Bracketed

/-- The exceptions delivered in a stream, at any depth and in order. `target` is the call of the frame
around the stream, if that frame is followed, and `last` the exception delivered to it last. -/
def deliveries (t : Tracer Recorder) (target : Option CallId) (last : Option Handle) :
    Bracketed → List Delivery
  | done => []
  | plain (.raise raised traceback) _ rest =>
    let after := (t.step (.raise raised traceback)).1
    match target with
    | none => rest.deliveries after none last
    | some id =>
      if t.settings.delivers last raised then
        ⟨id, t.objectOf raised, traceback⟩ ::
          rest.deliveries after target ((Tracer.memory raised).or last)
      else rest.deliveries after target last
  | plain e _ rest => rest.deliveries (t.step e).1 target last
  | foreign call inside result rest =>
    let entered := (t.step (.foreignCall call)).1
    let left := ((entered.run inside.events).step (.foreignReturn result)).1
    inside.deliveries entered none none ++ rest.deliveries left target last
  | frame f inside value handled rest =>
    let entered := (t.step (.call f)).1
    let left := ((entered.run inside.events).step (.ret value handled)).1
    let inner := if (t.step (.call f)).2.descend then some ⟨t.recording.calls.size⟩ else none
    inside.deliveries entered inner none ++ rest.deliveries left target last

end Bracketed

namespace Tracer

/-! ## What the stacks deliver -/

/-- The exception that an event delivers, by the two stacks. -/
def delivery? (t : Tracer Recorder) : Event → Option Delivery
  | .raise raised traceback =>
    match t.frames, t.observer.stack with
    | top :: _, .call id :: _ =>
      if top.isTraced && t.settings.delivers top.lastException raised then
        some ⟨id, t.objectOf raised, traceback⟩
      else none
    | _, _ => none
  | _ => none

/-- The exceptions that a stream delivers, by the two stacks. -/
def delivered (t : Tracer Recorder) : List Event → List Delivery
  | [] => []
  | e :: rest => (t.delivery? e).toList ++ (t.step e).1.delivered rest

theorem delivered_append (t : Tracer Recorder) (first second : List Event) :
    t.delivered (first ++ second) = t.delivered first ++ (t.run first).delivered second := by
  induction first generalizing t with
  | nil => rfl
  | cons e rest ih => rw [List.cons_append, delivered, ih, delivered, run_cons, List.append_assoc]

/-- Only exceptions are delivered. -/
theorem delivery?_of_not_raise {e : Event} (quiet : e.isRaise = false) (t : Tracer Recorder) :
    t.delivery? e = none := by
  cases e <;> first | rfl | cases quiet

variable {t : Tracer Recorder}

/-- Nothing is delivered to a frame that is not followed. -/
theorem delivery?_of_untraced {top : OpenFrame} {below : List OpenFrame}
    (frames : t.frames = top :: below) (untraced : top.isTraced = false) (raised : Raised)
    (traceback : TracebackId) : t.delivery? (.raise raised traceback) = none := by
  simp only [delivery?, frames]
  split
  · rename_i eq _
    cases eq
    rw [untraced]
    rfl
  · rfl

/-! ## The tree and the stacks -/

/-- Where a stream stands: what is innermost around it and, if that is a frame that is followed, its
call and the exception that was delivered to it last. -/
inductive IsAt (t : Tracer Recorder) : Option Bracket → Option CallId → Option Handle → Prop
  | outside {innermost : Option Bracket} (other : innermost ≠ some .frame) : IsAt t innermost none none
  | passed {top : OpenFrame} {below : List OpenFrame} (frames : t.frames = top :: below)
      (untraced : top.isTraced = false) : IsAt t (some .frame) none none
  | followed {last : Option Handle} {below : List OpenFrame} {id : CallId} {rest : List Running}
      (frames : t.frames = ⟨true, last⟩ :: below) (stack : t.observer.stack = .call id :: rest) :
      IsAt t (some .frame) (some id) last

variable {innermost : Option Bracket} {target : Option CallId} {last : Option Handle}

theorem IsAt.congr {t' : Tracer Recorder} (h : t.IsAt innermost target last)
    (frames : t'.frames = t.frames) (stack : t'.observer.stack = t.observer.stack) :
    t'.IsAt innermost target last := by
  cases h with
  | outside other => exact .outside other
  | passed top untraced => exact .passed (frames.trans top) untraced
  | followed top call => exact .followed (frames.trans top) (stack.trans call)

/-- Where a stream stands that is inside a frame. -/
theorem isAt_step_call (nests : t.observer.Nests) (f : Frame) :
    (t.step (.call f)).1.IsAt (some .frame)
      (if (t.step (.call f)).2.descend then some ⟨t.recording.calls.size⟩ else none) none := by
  have frames := frames_step_call t f
  rcases step_call nests t.hasShape_self f with
    ⟨s, id, followed, opens, -, shape⟩ | ⟨s, declined, -⟩
  · obtain ⟨rfl, -⟩ := opens
    rw [followed] at frames
    rw [followed, if_pos rfl]
    exact .followed frames shape.stack
  · rw [declined] at frames
    rw [declined, if_neg Bool.false_ne_true]
    exact .passed frames rfl

/-- An event that is no exception delivers nothing and leaves a stream where it stands. -/
theorem deliveries_quiet {e : Event} (plain : e.isPlain = true) (quiet : e.isRaise = false)
    (isAt : t.IsAt innermost target last) : (t.step e).1.IsAt innermost target last ∧
      ∀ rest, (Bracketed.plain e plain rest).deliveries t target last =
        (t.delivery? e).toList ++ rest.deliveries (t.step e).1 target last := by
  have stack := (hasShape_plain t.hasShape_self plain).stack
  refine ⟨isAt.congr (frames_step_plain plain quiet) stack, fun rest => ?_⟩
  rw [delivery?_of_not_raise quiet]
  cases e with
  | raise => cases quiet
  | call | ret | foreignCall | foreignReturn => cases plain
  | globalRead | globalRebind | attributeRebind | moduleLoaded => rfl

/-- An exception that passes through a frame that is not followed is not delivered. -/
theorem deliveries_passed {top : OpenFrame} {below : List OpenFrame} (frames : t.frames = top :: below)
    (untraced : top.isTraced = false) (raised : Raised) (traceback : TracebackId) :
    (t.step (.raise raised traceback)).1.IsAt (some .frame) none none ∧
      ∀ rest, (Bracketed.plain (.raise raised traceback) rfl rest).deliveries t none none =
        (t.delivery? (.raise raised traceback)).toList ++
          rest.deliveries (t.step (.raise raised traceback)).1 none none := by
  have same : (t.step (.raise raised traceback)).1.frames = t.frames := by
    rcases step_raise t raised traceback with ⟨top', below', frames', traced, -⟩ | ⟨-, same⟩
    · rw [frames] at frames'
      cases frames'
      rw [untraced] at traced
      cases traced
    · rw [same]
  refine ⟨.passed (same.trans frames) untraced, fun rest => ?_⟩
  rw [delivery?_of_untraced frames untraced raised traceback]
  rfl

/-- An exception that passes through a frame that is followed is delivered to its call, unless it is
ignored or was delivered to it last. -/
theorem deliveries_followed {below : List OpenFrame} {id : CallId} {running : List Running}
    (frames : t.frames = ⟨true, last⟩ :: below) (top : t.observer.stack = .call id :: running)
    (raised : Raised) (traceback : TracebackId) :
    ∃ last', (t.step (.raise raised traceback)).1.IsAt (some .frame) (some id) last' ∧
      ∀ rest, (Bracketed.plain (.raise raised traceback) rfl rest).deliveries t (some id) last =
        (t.delivery? (.raise raised traceback)).toList ++
          rest.deliveries (t.step (.raise raised traceback)).1 (some id) last' := by
  have delivery : t.delivery? (.raise raised traceback) =
      if t.settings.delivers last raised then some ⟨id, t.objectOf raised, traceback⟩ else none := by
    simp only [delivery?, frames, top, Bool.true_and]
  have stack : (t.step (.raise raised traceback)).1.observer.stack = .call id :: running :=
    (hasShape_plain t.hasShape_self rfl).stack.trans top
  rcases step_raise t raised traceback with
    ⟨head, others, frames', -, delivers, after, -⟩ | ⟨silent, same⟩
  · rw [frames] at frames'
    cases frames'
    refine ⟨(memory raised).or last, .followed after stack, fun rest => ?_⟩
    rw [delivery, if_pos delivers]
    exact if_pos delivers
  · have silent : ¬t.settings.delivers last raised = true := by
      rw [silent _ below frames rfl]
      exact Bool.false_ne_true
    have after : (t.step (.raise raised traceback)).1.frames = ⟨true, last⟩ :: below := by
      rw [same, frames]
    refine ⟨last, .followed after stack, fun rest => ?_⟩
    rw [delivery, if_neg silent]
    exact if_neg silent

/-- An event that opens and closes nothing delivers what the tree says, if it is no exception outside of
frames. -/
theorem deliveries_plain {e : Event} (plain : e.isPlain = true)
    (isAt : t.IsAt innermost target last)
    (here : (!e.isRaise || innermost == some .frame) = true) :
    ∃ last', (t.step e).1.IsAt innermost target last' ∧
      ∀ rest, (Bracketed.plain e plain rest).deliveries t target last =
        (t.delivery? e).toList ++ rest.deliveries (t.step e).1 target last' := by
  by_cases quiet : e.isRaise = false
  · exact ⟨last, deliveries_quiet plain quiet isAt⟩
  · cases e with
    | raise raised traceback =>
      cases isAt with
      | outside other => simp [Event.isRaise, other] at here
      | passed frames untraced => exact ⟨none, deliveries_passed frames untraced raised traceback⟩
      | followed frames top => exact deliveries_followed frames top raised traceback
    | _ => exact absurd rfl quiet

/-- Where exceptions only pass through frames, the stacks deliver what the tree says. -/
theorem deliveries_eq_delivered (b : Bracketed) (nests : t.observer.Nests)
    (isAt : t.IsAt innermost target last) (inFrames : b.raisesInFrames innermost = true) :
    b.deliveries t target last = t.delivered b.events := by
  induction b generalizing t innermost target last with
  | done => rfl
  | plain e plain rest ih =>
    obtain ⟨here, later⟩ := Bool.and_eq_true_iff.1 inFrames
    obtain ⟨last', after, told⟩ := deliveries_plain plain isAt here
    rw [told, ih (nests_step nests e) after later]
    rfl
  | foreign call inside result rest inside_ih rest_ih =>
    obtain ⟨inner, later⟩ := Bool.and_eq_true_iff.1 inFrames
    have entered := nests_step nests (.foreignCall call)
    have before := nests_run entered inside.events
    have left := nests_step before (.foreignReturn result)
    obtain ⟨mutation, shape⟩ := hasShape_foreignCall t.hasShape_self call
    have closed := hasShape_foreignReturn (hasShape_run inside entered shape) result
    have frames : (((t.step (.foreignCall call)).1.run inside.events).step
        (.foreignReturn result)).1.frames = t.frames := by
      rw [frames_step_foreignReturn, frames_run_of_not_in_frame foreign_ne_frame inner]
      rfl
    have inner_eq := inside_ih entered (.outside foreign_ne_frame) inner
    have rest_eq := rest_ih left (isAt.congr frames closed.stack) later
    rw [Bracketed.events, delivered, delivered_append, delivered, delivery?_of_not_raise rfl,
      delivery?_of_not_raise rfl, ← inner_eq, ← rest_eq]
    rfl
  | frame f inside value handled rest inside_ih rest_ih =>
    obtain ⟨inner, later⟩ := Bool.and_eq_true_iff.1 inFrames
    have entered := nests_step nests (.call f)
    have before := nests_run entered inside.events
    have left := nests_step before (.ret value handled)
    have stack : (((t.step (.call f)).1.run inside.events).step
        (.ret value handled)).1.observer.stack = t.observer.stack := by
      have whole := hasShape_run (.frame f inside value handled .done) nests t.hasShape_self
      rw [Bracketed.events, run_cons, run_append] at whole
      exact whole.stack
    have inner_eq := inside_ih entered (isAt_step_call nests f) inner
    have rest_eq := rest_ih left (isAt.congr (frames_frame ..) stack) later
    rw [Bracketed.events, delivered, delivered_append, delivered, delivery?_of_not_raise rfl,
      delivery?_of_not_raise rfl, ← inner_eq, ← rest_eq]
    rfl

end Tracer

end Reenact
