import Reenact.Trace.Event

/-!
# Well-bracketed streams

A host that reports a program faithfully gives a stream in which calls and returns, and foreign calls
and foreign returns, are properly nested; every other event may come anywhere. `Bracketed` is such a
stream in the form of a tree: what happens inside a frame or a foreign call, and what comes after it.

**The law** (`isNested_iff`): the streams that a checker with a stack lets pass are those that are
read off a tree, so a statement about all trees is one about all well-bracketed streams.
-/

namespace Reenact

namespace Event

/-- Whether the event neither opens nor closes anything. -/
def isPlain : Event → Bool
  | .call _ | .ret .. | .foreignCall _ | .foreignReturn _ => false
  | .raise .. | .globalRead .. | .globalRebind .. | .attributeRebind .. | .moduleLoaded .. => true

end Event

/-- A stream of events in which everything that is opened is closed. -/
inductive Bracketed where
  /-- Nothing more happens. -/
  | done
  /-- An event that opens and closes nothing, and what comes after it. -/
  | plain (e : Event) (isPlain : e.isPlain = true) (rest : Bracketed)
  /-- A foreign call, what happens inside it, and what comes after its return. -/
  | foreign (call : Foreign) (inside : Bracketed) (result : Option Value) (rest : Bracketed)
  /-- A frame, what happens inside it, and what comes after its return. -/
  | frame (frame : Frame) (inside : Bracketed) (value : Value) (handled : Option TracebackId)
      (rest : Bracketed)

namespace Bracketed

def events : Bracketed → List Event
  | done => []
  | plain e _ rest => e :: rest.events
  | foreign call inside result rest =>
    .foreignCall call :: (inside.events ++ .foreignReturn result :: rest.events)
  | frame f inside value handled rest =>
    .call f :: (inside.events ++ .ret value handled :: rest.events)

end Bracketed

/-- A frame of a stream, with all that happened before it. -/
structure Passage where
  before : List Event
  frame : Frame
  /-- What happens inside the frame. -/
  inside : Bracketed
  /-- What it returns. -/
  value : Value
  handled : Option TracebackId

/-- The frames of a stream, outer ones first. `before` is what happened before the stream. -/
def Bracketed.passages (before : List Event) : Bracketed → List Passage
  | done => []
  | plain e _ rest => rest.passages (before ++ [e])
  | foreign call inside result rest =>
    let entered := before ++ [.foreignCall call]
    inside.passages entered ++ rest.passages (entered ++ inside.events ++ [.foreignReturn result])
  | frame f inside value handled rest =>
    let entered := before ++ [.call f]
    ⟨before, f, inside, value, handled⟩ ::
      (inside.passages entered ++ rest.passages (entered ++ inside.events ++ [.ret value handled]))

/-- A frame of a stream starts with its call and ends with its return. -/
theorem Bracketed.exists_after_of_mem_passages {b : Bracketed} {before : List Event} {p : Passage}
    (mem : p ∈ b.passages before) : ∃ after, before ++ b.events =
      p.before ++ .call p.frame :: (p.inside.events ++ .ret p.value p.handled :: after) := by
  induction b generalizing before with
  | done => cases mem
  | plain e plain rest ih =>
    obtain ⟨after, eq⟩ := ih mem
    exact ⟨after, by rw [← eq, events, List.append_assoc]; rfl⟩
  | foreign call inside result rest inside_ih rest_ih =>
    rcases List.mem_append.1 mem with mem | mem
    · obtain ⟨after, eq⟩ := inside_ih mem
      exact ⟨after ++ .foreignReturn result :: rest.events, by
        simpa [events] using congrArg (· ++ .foreignReturn result :: rest.events) eq⟩
    · obtain ⟨after, eq⟩ := rest_ih mem
      exact ⟨after, by simpa [events] using eq⟩
  | frame f inside value handled rest inside_ih rest_ih =>
    rcases List.mem_cons.1 mem with rfl | mem
    · exact ⟨rest.events, rfl⟩
    rcases List.mem_append.1 mem with mem | mem
    · obtain ⟨after, eq⟩ := inside_ih mem
      exact ⟨after ++ .ret value handled :: rest.events, by
        simpa [events] using congrArg (· ++ .ret value handled :: rest.events) eq⟩
    · obtain ⟨after, eq⟩ := rest_ih mem
      exact ⟨after, by simpa [events] using eq⟩

/-! ## The same streams, by a stack -/

/-- Something that is open. -/
inductive Bracket where
  | frame
  | foreign
  deriving DecidableEq, Repr

/-- Whether every event closes what was opened last, if it closes something, and all is closed at the
end. -/
def isNested : List Bracket → List Event → Bool
  | open_, [] => open_.isEmpty
  | open_, .call _ :: rest => isNested (.frame :: open_) rest
  | open_, .foreignCall _ :: rest => isNested (.foreign :: open_) rest
  | .frame :: outer, .ret .. :: rest => isNested outer rest
  | .foreign :: outer, .foreignReturn _ :: rest => isNested outer rest
  | _, .ret .. :: _ | _, .foreignReturn _ :: _ => false
  | open_, _ :: rest => isNested open_ rest

/-- An event that opens and closes nothing does not matter to the checker. -/
theorem isNested_plain {e : Event} (plain : e.isPlain = true) (open_ : List Bracket)
    (rest : List Event) : isNested open_ (e :: rest) = isNested open_ rest := by
  cases e with
  | call | ret | foreignCall | foreignReturn => cases plain
  | raise | globalRead | globalRebind | attributeRebind | moduleLoaded => simp only [isNested]

/-- A tree leaves what was open before it open. -/
theorem isNested_events (b : Bracketed) (open_ : List Bracket) (after : List Event) :
    isNested open_ (b.events ++ after) = isNested open_ after := by
  induction b generalizing open_ after with
  | done => rfl
  | plain e isPlain rest ih =>
    rw [Bracketed.events, List.cons_append, isNested_plain isPlain, ih]
  | foreign call inside result rest inside_ih rest_ih =>
    simp only [Bracketed.events, List.cons_append, List.append_assoc, isNested]
    rw [inside_ih, isNested, rest_ih]
  | frame f inside value handled rest inside_ih rest_ih =>
    simp only [Bracketed.events, List.cons_append, List.append_assoc, isNested]
    rw [inside_ih, isNested, rest_ih]

/-- The event closes the bracket. -/
def Bracket.IsClosedBy : Bracket → Event → Prop
  | .frame, .ret .. => True
  | .foreign, .foreignReturn _ => True
  | _, _ => False

/-- The stream starts with the tree. With nothing open that is all of it; otherwise what was opened
last is closed next, and the checker lets pass what comes then. -/
def StartsWith (b : Bracketed) (events : List Event) : List Bracket → Prop
  | [] => events = b.events
  | top :: outer => ∃ close after, events = b.events ++ close :: after ∧ top.IsClosedBy close ∧
      isNested outer after = true

theorem StartsWith.prepend {b b' : Bracketed} {front events : List Event} {open_ : List Bracket}
    (h : StartsWith b events open_) (eq : b'.events = front ++ b.events) :
    StartsWith b' (front ++ events) open_ := by
  cases open_ with
  | nil =>
    obtain rfl : events = b.events := h
    exact eq.symm
  | cons top outer =>
    obtain ⟨close, after, rfl, closes, passes⟩ := h
    refine ⟨close, after, ?_, closes, passes⟩
    rw [eq, List.append_assoc]

/-- Every stream that the checker lets pass starts with a tree. -/
theorem exists_startsWith {events : List Event} {open_ : List Bracket}
    (h : isNested open_ events = true) : ∃ b, StartsWith b events open_ := by
  -- behind what an event opens the stream is split twice: at its end, and at the end of what is
  -- around it, so the induction is on the length
  induction n : events.length using Nat.strongRecOn generalizing events open_ with
  | _ n ih =>
    subst n
    cases events with
    | nil =>
      obtain rfl := List.isEmpty_iff.1 h
      exact ⟨.done, rfl⟩
    | cons e rest =>
      have shorter : rest.length < (e :: rest).length := Nat.lt_succ_self _
      by_cases plain : e.isPlain = true
      · rw [isNested_plain plain] at h
        obtain ⟨b, starts⟩ := ih _ shorter h rfl
        have eq : (Bracketed.plain e plain b).events = [e] ++ b.events := rfl
        exact ⟨_, starts.prepend eq⟩
      cases e with
      | call f =>
        have opened : isNested (.frame :: open_) rest = true := h
        obtain ⟨inside, close, after, rfl, closes, passes⟩ := ih _ shorter opened rfl
        have shorter' : after.length < (Event.call f :: (inside.events ++ close :: after)).length := by
          simp only [List.length_cons, List.length_append]
          omega
        obtain ⟨rest, starts⟩ := ih _ shorter' passes rfl
        cases close with
        | ret value handled =>
          have eq : (Bracketed.frame f inside value handled rest).events =
              (.call f :: (inside.events ++ [.ret value handled])) ++ rest.events := by
            simp [Bracketed.events]
          exact ⟨_, by simpa using starts.prepend eq⟩
        | _ => cases closes
      | foreignCall call =>
        have opened : isNested (.foreign :: open_) rest = true := h
        obtain ⟨inside, close, after, rfl, closes, passes⟩ := ih _ shorter opened rfl
        have shorter' :
            after.length < (Event.foreignCall call :: (inside.events ++ close :: after)).length := by
          simp only [List.length_cons, List.length_append]
          omega
        obtain ⟨rest, starts⟩ := ih _ shorter' passes rfl
        cases close with
        | foreignReturn result =>
          have eq : (Bracketed.foreign call inside result rest).events =
              (.foreignCall call :: (inside.events ++ [.foreignReturn result])) ++ rest.events := by
            simp [Bracketed.events]
          exact ⟨_, by simpa using starts.prepend eq⟩
        | _ => cases closes
      | ret value handled =>
        cases open_ with
        | nil => cases h
        | cons top outer =>
          cases top with
          | frame => exact ⟨.done, _, rest, rfl, trivial, h⟩
          | foreign => cases h
      | foreignReturn result =>
        cases open_ with
        | nil => cases h
        | cons top outer =>
          cases top with
          | frame => cases h
          | foreign => exact ⟨.done, _, rest, rfl, trivial, h⟩
      | raise | globalRead | globalRebind | attributeRebind | moduleLoaded => exact absurd rfl plain

/-- The streams that the checker lets pass are those of trees. -/
theorem isNested_iff {events : List Event} :
    isNested [] events = true ↔ ∃ b : Bracketed, b.events = events := by
  constructor
  · intro h
    obtain ⟨b, eq⟩ := exists_startsWith h
    exact ⟨b, eq.symm⟩
  · rintro ⟨b, rfl⟩
    have := isNested_events b [] []
    rwa [List.append_nil] at this

end Reenact
