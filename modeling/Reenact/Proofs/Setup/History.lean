import Reenact.Proofs.Setup.Plan
import Reenact.Proofs.Trace.Bracket
import Reenact.Proofs.Trace.Watch

/-!
# The history that a setup repeats

A setup ought to bring every object of its working set to the state that it was in when the call under
test started. For that it has to repeat what changed the object before.

**The law** (`replays_history_iff`): of the side effects that changed an object of the working set
before the call started, the setup repeats those seen outside of all calls and those of the calls
inside the outermost call around the one under test, and no others. A change made by another outermost
call is left out, and the state of the object with it (`not_replays_history`).
-/

namespace Reenact

namespace Setup

variable {r : Recording} {id : CallId} {c : Call} {plan : Plan} {objects : List Object}
  {effects : List Effect}

/-- The side effect changed an object of the working set before the call started. -/
structure IsEarlierChange (r : Recording) (c : Call) (plan : Plan) (e : Effect) : Prop where
  recorded : r.effect? e.id = some e
  affects : ∃ o ∈ e.affected, .object o ∈ plan.closure
  before : e.moment.before c.moment = true

/-- The side effect happened outside of all calls, or inside the outermost call around `id`. -/
def IsInSight (r : Recording) (id : CallId) (e : EffectId) : Prop :=
  e ∈ r.rootEffects ∨ IsOwnedInside r (outermost r id) e

/-- What happened in a call happened after it started. -/
theorem not_before_of_isOwnedInside (h : r.Sound) (found : r.call? id = some c) {e : Effect}
    (recorded : r.effect? e.id = some e) (owned : IsOwnedInside r id e.id) :
    ¬e.moment.before c.moment := by
  obtain ⟨x, d, inside, there, mem⟩ := owned
  obtain ⟨e', recorded', later, -⟩ := (h.calls there).2.effects _ mem
  rw [recorded] at recorded'
  cases recorded'
  have := h.le_of_inside inside found there
  rw [Moment.before_iff] at later ⊢
  omega

/-- A side effect that a setup repeats, and that happened before the call under test, is in sight of
it. -/
theorem isInSight_of_mem_closure (h : r.Sound) (found : r.call? id = some c)
    (isPlan : IsPlanOf r [c] objects effects plan) {e : Effect}
    (recorded : r.effect? e.id = some e) (before : e.moment.before c.moment)
    (mem : .effect e.id ∈ plan.closure) : IsInSight r id e.id := by
  rw [isPlan.closure] at mem
  obtain ⟨f, included, -, same⟩ := effect_mem_orderedEntries.1 mem
  obtain ⟨d, subject, candidate⟩ := isPlan.candidate f included
  obtain rfl := List.mem_singleton.1 subject
  obtain rfl := (h.calls found).1
  have recorded' := candidate.1
  rw [same, recorded] at recorded'
  cases recorded'
  rcases candidate.2 with ⟨root, -⟩ | ⟨owned, -⟩ | owned
  · exact .inl root
  · exact .inr owned
  · exact absurd before (not_before_of_isOwnedInside h found recorded owned)

/-- A change of an object of the working set is repeated when it is in sight of the call. -/
theorem mem_closure_of_isInSight (h : r.Sound) (found : r.call? id = some c) {done : Moment}
    (ended : c.completedAt = some done) (isPlan : IsPlanOf r [c] objects effects plan) {e : Effect}
    (change : IsEarlierChange r c plan e) (sight : IsInSight r id e.id) :
    .effect e.id ∈ plan.closure := by
  obtain ⟨o, affected, there⟩ := change.affects
  rw [isPlan.closure] at there ⊢
  obtain ⟨object, listed, -, rfl⟩ := object_mem_orderedEntries.1 there
  have inTime : e.moment.before done := by
    have started := change.before
    have lasted := (h.calls found).2.ended done ended
    rw [Moment.before_iff] at started lasted ⊢
    exact Nat.lt_trans started lasted
  obtain rfl := (h.calls found).1
  have candidate : IsCandidate r c.id c e := by
    refine ⟨change.recorded, ?_⟩
    rcases sight with root | owned
    · refine .inl ⟨root, fun done' ended' => ?_⟩
      rw [ended] at ended'
      cases ended'
      exact inTime
    · exact .inr (.inl ⟨owned, change.before⟩)
  have included := isPlan.settled c (List.mem_singleton.2 rfl) e candidate object listed affected
  refine effect_mem_orderedEntries.2 ⟨e, included, ?_, rfl⟩
  show (horizon [c]).all e.moment.before = true
  rw [horizon, ended]
  exact inTime

/-- What a call starts from is in the closure of its plan. -/
theorem mem_closure_of_startsFrom (h : r.Sound) (found : r.call? id = some c) {done : Moment}
    (ended : c.completedAt = some done) (isPlan : IsPlanOf r [c] objects effects plan) {x : ObjectId}
    (mem : x ∈ c.startsFrom) : .object x ∈ plan.closure := by
  obtain ⟨o, listed, rfl⟩ := isPlan.starts c (List.mem_singleton.2 rfl) x mem
  obtain ⟨o', there, older⟩ := (h.calls found).2.starts o.id mem
  rw [isPlan.recorded.made o listed] at there
  cases there
  rw [isPlan.closure]
  refine object_mem_orderedEntries.2 ⟨o, listed, ?_, rfl⟩
  show (horizon [c]).all o.moment.before = true
  rw [horizon, ended]
  have lasted := (h.calls found).2.ended done ended
  show o.moment.before done = true
  rw [Moment.before_iff] at older lasted ⊢
  exact Nat.lt_trans older lasted

/-- In an outermost call without subcalls and side effects only what happened outside of all calls is
in sight. -/
theorem isInSight_iff_of_alone (found : r.call? id = some c) (outer : c.caller = none)
    (childless : c.subcalls = []) (effectless : c.effects = []) {e : EffectId} :
    IsInSight r id e ↔ e ∈ r.rootEffects := by
  have self : outermost r id = id := by
    rw [outermost]
    simp only [found, outer]
  rw [IsInSight, self]
  refine ⟨fun sight => sight.resolve_right ?_, .inl⟩
  rintro ⟨x, d, inside, there, mem⟩
  rcases Relation.ReflTransGen.cases_head inside with rfl | ⟨y, ⟨c', found', sub⟩, -⟩
  · rw [found] at there
    cases there
    rw [effectless] at mem
    cases mem
  · rw [found] at found'
    cases found'
    rw [childless] at sub
    cases sub

/-- The plan of one call. -/
theorem planForCall_sound (h : r.Sound) (found : r.call? id = some c) :
    ∃ plan objects effects, planForCall r id = .ok plan ∧ IsPlanOf r [c] objects effects plan := by
  obtain ⟨calls, plan, objects, effects, calls_eq, plan_eq, isPlan⟩ :=
    planForCalls_sound h (List.forall_mem_singleton.2 ⟨c, found⟩)
  have only : calls = [c] := by
    rw [List.mapM_cons, Recording.findCall_eq_ok.2 found] at calls_eq
    exact (Except.ok.inj calls_eq).symm
  exact ⟨plan, objects, effects, plan_eq, only ▸ isPlan⟩

end Setup

open Setup

namespace Watch

/-! ## A change in another outermost call -/

namespace Aside

/-- A project with two functions of one parameter. -/
def project : Project where
  root := "/p"
  functions := #[⟨"f", "m", ["x"], false, []⟩, ⟨"g", "m", ["x"], false, []⟩]
  classes := #[]

/-- A watch of the project with nothing patched. -/
def watch : Watch := ⟨project, ⟨0⟩, .standard, .default, .empty, []⟩

/-- An empty list. -/
def list : Value := .sequence ⟨.observed 1, "list", "builtins", []⟩ .list []

def null : Value := .literal ⟨.observed 2, "NoneType", "builtins", []⟩ .none

/-- A frame of a function that is given the list. -/
def frame (name : String) (code : Nat) : Frame :=
  ⟨⟨⟨code⟩, name, "/p/m.py", false, false⟩, ⟨[("x", list)], none, none⟩, none⟩

/-- The first function appends to the list, and the second one is given the list afterwards. -/
def stream : Bracketed :=
  .frame (frame "f" 10) (.foreign ⟨"append", some list, [null], [], []⟩ .done (some null) .done)
    null none (.frame (frame "g" 11) .done null none .done)

/-- What was recorded of it. -/
def recording : Recording := (watch.recording stream.events).finish fun _ => false

/-- The call of the second function. -/
def second : Call where
  id := ⟨1⟩
  kind := .function
  definition := .function ⟨1⟩
  input := .ofList [("x", ⟨0⟩)]
  outcome := some (.returned ⟨1⟩)
  effects := []
  caller := none
  subcalls := []
  moment := ⟨6⟩
  completedAt := some ⟨7⟩

/-- The append in the first call. -/
def append : Effect := .ofChange ⟨0⟩ ⟨4⟩ (.mutation .listAppend ⟨0⟩ [⟨1⟩])

theorem call_second : recording.call? ⟨1⟩ = some second := by decide +kernel

theorem effect_append : recording.effect? ⟨0⟩ = some append := by decide +kernel

theorem records : watch.Records stream.events recording := ⟨fun _ => false, .inr rfl⟩

/-- Both calls, the later one first. -/
theorem known : ∀ id ∈ [⟨1⟩, ⟨0⟩], recording.HasCall id := by
  have size : recording.calls.size = 2 := by decide +kernel
  simp only [Recording.hasCall_iff, size, List.mem_cons, List.not_mem_nil, or_false]
  rintro id (rfl | rfl)
  · exact Nat.one_lt_two
  · exact Nat.zero_lt_two

end Aside

/-- For every call that ended there is a plan, and the changes of its working set from before the call
that it repeats are those in sight of the call. -/
theorem replays_history_iff (w : Watch) (events : List Event) (r : Recording)
    (recorded : w.Records events r) (id : CallId) (c : Call) (done : Moment)
    (found : r.call? id = some c) (ended : c.completedAt = some done) :
    ∃ plan, planForCall r id = .ok plan ∧ ∀ e, IsEarlierChange r c plan e →
      (.effect e.id ∈ plan.closure ↔ IsInSight r id e.id) := by
  obtain ⟨plan, objects, effects, plan_eq, isPlan⟩ := planForCall_sound recorded.sound found
  exact ⟨plan, plan_eq, fun e change =>
    ⟨isInSight_of_mem_closure recorded.sound found isPlan change.recorded change.before,
      mem_closure_of_isInSight recorded.sound found ended isPlan change⟩⟩

theorem replays_history_iff_second : Aside.watch.Records Aside.stream.events Aside.recording ∧
    Aside.recording.call? ⟨1⟩ = some Aside.second ∧ Aside.second.completedAt = some ⟨7⟩ ∧
    ∃ plan, planForCall Aside.recording ⟨1⟩ = .ok plan ∧
      ∀ e, IsEarlierChange Aside.recording Aside.second plan e →
        (.effect e.id ∈ plan.closure ↔ IsInSight Aside.recording ⟨1⟩ e.id) :=
  ⟨Aside.records, Aside.call_second, rfl,
    replays_history_iff Aside.watch Aside.stream.events Aside.recording Aside.records ⟨1⟩ Aside.second
      ⟨7⟩ Aside.call_second rfl⟩

/-- Not every change of the working set from before the call is repeated: the append to the argument
in an earlier outermost call is not. -/
theorem not_replays_history : ¬∀ (w : Watch) (b : Bracketed) (r : Recording),
    w.Records b.events r → ∀ id c done plan, id ∈ r.captured → r.call? id = some c →
      c.completedAt = some done → planForCall r id = .ok plan →
        ∀ e, IsEarlierChange r c plan e → .effect e.id ∈ plan.closure := by
  intro replays
  have h : Aside.recording.Sound := Aside.records.sound
  obtain ⟨plan, objects, effects, plan_eq, isPlan⟩ := planForCall_sound h Aside.call_second
  have change : IsEarlierChange Aside.recording Aside.second plan Aside.append := by
    refine ⟨Aside.effect_append, ⟨⟨0⟩, by decide, ?_⟩, by decide⟩
    exact mem_closure_of_startsFrom h Aside.call_second rfl isPlan (by decide)
  have captured : ⟨1⟩ ∈ Aside.recording.captured := by decide +kernel
  have repeated := replays Aside.watch Aside.stream Aside.recording Aside.records ⟨1⟩ Aside.second ⟨7⟩
    plan captured Aside.call_second rfl plan_eq Aside.append change
  have sight := isInSight_of_mem_closure h Aside.call_second isPlan change.recorded change.before
    repeated
  rw [isInSight_iff_of_alone Aside.call_second rfl rfl rfl] at sight
  have rootless : Aside.recording.rootEffects = [] := by decide +kernel
  rw [rootless] at sight
  cases sight

end Watch

end Reenact
