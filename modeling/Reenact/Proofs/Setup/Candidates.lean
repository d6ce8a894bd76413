import Reenact.Proofs.Graph.Reach
import Reenact.Proofs.Refusal
import Reenact.Proofs.Recording.Soundness
import Reenact.Setup.Closure

/-!
# Candidate side effects

Which side effects a setup may repeat: those outside of all calls that were seen before the call under
test ended, those of calls around it, or before it in the same outermost call, that were seen before
it started, and those of the call itself and of the calls inside it. `mem_candidates` says so without
the walk that finds them.

The walk through earlier calls passes over subcalls that started after the call under test. On a
sound recording that loses nothing: a call inside such a subcall started later still, and so do its
side effects (`inside_of_early`).
-/

namespace Reenact

namespace Recording

variable {r : Recording}

/-- The second call is a subcall of the first. -/
def Subcall (r : Recording) (a b : CallId) : Prop := ∃ c, r.call? a = some c ∧ b ∈ c.subcalls

/-- The second call is the first one, or inside it at any depth. -/
def Inside (r : Recording) : CallId → CallId → Prop := Relation.ReflTransGen r.Subcall

/-- Calls inside a call did not start before it. -/
theorem Sound.le_of_inside (h : r.Sound) {a b : CallId} (inside : r.Inside a b) {c d : Call}
    (found : r.call? a = some c) (there : r.call? b = some d) : c.moment.tick ≤ d.moment.tick := by
  induction inside generalizing d with
  | refl =>
    rw [found] at there
    cases there
    exact Nat.le_refl _
  | tail _ edge ih =>
    obtain ⟨e, middle, sub⟩ := edge
    obtain ⟨d', there', -, later, -⟩ := (h.calls middle).2.subcalls _ sub
    rw [there] at there'
    cases there'
    exact Nat.le_trans (ih middle) (Nat.le_of_lt (Moment.before_iff.1 later))

/-- A call inside a call of the recording is part of it. -/
theorem Sound.hasCall_of_inside (h : r.Sound) {a b : CallId} (inside : r.Inside a b)
    (known : r.HasCall a) : r.HasCall b := by
  induction inside with
  | refl => exact known
  | tail _ edge _ =>
    obtain ⟨c, found, sub⟩ := edge
    obtain ⟨d, there, -⟩ := (h.calls found).2.subcalls _ sub
    exact ⟨d, there⟩

end Recording

namespace Setup

open Recording

variable {r : Recording}

/-! ## Walking through calls -/

/-- The second call is a subcall of the first that `keeps` lets pass. -/
def KeptSubcall (r : Recording) (keeps : Call → Bool) (a b : CallId) : Prop :=
  r.Subcall a b ∧ ∃ d, r.call? b = some d ∧ keeps d = true

/-- One step of the walk: the numbers of the subcalls that are let pass. -/
def nextCalls (r : Recording) (keeps : Call → Bool) (n : Nat) : Except Fault (List Nat) := do
  let c ← r.call ⟨n⟩
  let inner ← c.subcalls.mapM r.call
  return (inner.filter keeps).map fun c => c.id.index

/-- On a sound recording a step of the walk answers, and leads to the subcalls that are let pass. -/
theorem nextCalls_sound (h : r.Sound) (keeps : Call → Bool) {n : Nat} {c : Call}
    (found : r.call? ⟨n⟩ = some c) : ∃ successors, nextCalls r keeps n = .ok successors ∧
      ∀ m, m ∈ successors ↔ KeptSubcall r keeps ⟨n⟩ ⟨m⟩ := by
  obtain ⟨inner, all⟩ := mapM_answers (f := r.call) (l := c.subcalls) fun id mem => by
    obtain ⟨d, there, -⟩ := (h.calls found).2.subcalls id mem
    exact ⟨d, call_eq_ok.2 there⟩
  refine ⟨(inner.filter keeps).map fun c => c.id.index, ?_, fun m => ?_⟩
  · simp only [nextCalls, call_eq_ok.2 found, all, bind, Except.bind, pure, Except.pure]
  · constructor
    · intro mem
      obtain ⟨d, kept, rfl⟩ := List.mem_map.1 mem
      obtain ⟨inside, keep⟩ := List.mem_filter.1 kept
      obtain ⟨id, sub, there⟩ := mem_of_mapM_eq_ok all inside
      have there := call_eq_ok.1 there
      obtain rfl := (h.calls there).1
      exact ⟨⟨c, found, sub⟩, d, there, keep⟩
    · rintro ⟨⟨c', found', sub⟩, d, there, keep⟩
      rw [found] at found'
      cases found'
      obtain ⟨d', inside, there'⟩ := exists_of_mapM_eq_ok all sub
      have there' := call_eq_ok.1 there'
      rw [there] at there'
      cases there'
      refine List.mem_map.2 ⟨d, List.mem_filter.2 ⟨inside, keep⟩, ?_⟩
      rw [(h.calls there).1]

theorem leads_nextCalls (h : r.Sound) {keeps : Call → Bool} {n m : Nat} :
    Graph.Leads (nextCalls r keeps) n m ↔ KeptSubcall r keeps ⟨n⟩ ⟨m⟩ := by
  constructor
  · rintro ⟨successors, answer, mem⟩
    obtain ⟨c, found, -⟩ := bind_eq_ok.1 answer
    obtain ⟨successors', answer', leads⟩ := nextCalls_sound h keeps (call_eq_ok.1 found)
    rw [answer] at answer'
    cases answer'
    exact (leads m).1 mem
  · intro edge
    obtain ⟨c, found, -⟩ := edge.1
    obtain ⟨successors, answer, leads⟩ := nextCalls_sound h keeps found
    exact ⟨successors, answer, (leads m).2 edge⟩

/-- The calls reached from a call through subcalls that are let pass. -/
def IsMet (r : Recording) (keeps : Call → Bool) : CallId → CallId → Prop :=
  Relation.ReflTransGen (KeptSubcall r keeps)

theorem IsMet.inside {keeps : Call → Bool} {a b : CallId} (h : IsMet r keeps a b) : r.Inside a b :=
  Relation.ReflTransGen.mono (fun _ _ edge => edge.1) _ _ h

theorem reaches_nextCalls (h : r.Sound) {keeps : Call → Bool} {a b : CallId} :
    Relation.ReflTransGen (Graph.Leads (nextCalls r keeps)) a.index b.index ↔
      IsMet r keeps a b := by
  constructor
  · intro path
    exact path.lift CallId.mk fun n m edge => (leads_nextCalls h).1 edge
  · intro path
    exact path.lift CallId.index fun a b edge => (leads_nextCalls h).2 edge

/-- The walk answers on a sound recording, and meets exactly the calls that are reached through
subcalls that are let pass. -/
theorem callsFrom_sound (h : r.Sound) (keeps : Call → Bool) {id : CallId} (known : r.HasCall id) :
    ∃ calls, callsFrom r keeps id = .ok calls ∧
      ∀ d, d ∈ calls ↔ ∃ x, IsMet r keeps id x ∧ r.call? x = some d := by
  have step (n : Nat) (good : r.HasCall ⟨n⟩) : n < r.calls.size ∧
      ∃ successors, nextCalls r keeps n = .ok successors ∧ ∀ m ∈ successors, r.HasCall ⟨m⟩ := by
    obtain ⟨c, found⟩ := good
    obtain ⟨successors, answer, leads⟩ := nextCalls_sound h keeps found
    refine ⟨hasCall_iff.1 (.of_call? found), successors, answer, fun m mem => ?_⟩
    obtain ⟨-, d, there, -⟩ := (leads m).1 mem
    exact ⟨d, there⟩
  obtain ⟨met, walk⟩ : ∃ met,
      Graph.reach r.calls.size (nextCalls r keeps) missingCall [] [id.index] = .ok met :=
    Graph.exists_reach step fun n mem => List.mem_singleton.1 mem ▸ known
  have mem_met (x : CallId) : x.index ∈ met ↔ IsMet r keeps id x := by
    rw [Graph.mem_reach_nil walk, ← reaches_nextCalls h]
    simp only [List.mem_singleton, exists_eq_left]
  obtain ⟨calls, all⟩ := mapM_answers (f := fun n => r.call ⟨n⟩) (l := met) fun n mem => by
    obtain ⟨c, found⟩ := h.hasCall_of_inside ((mem_met ⟨n⟩).1 mem).inside known
    exact ⟨c, call_eq_ok.2 found⟩
  refine ⟨calls, bind_eq_ok.2 ⟨met, walk, all⟩, fun d => ?_⟩
  constructor
  · intro mem
    obtain ⟨n, visited, found⟩ := mem_of_mapM_eq_ok all mem
    exact ⟨⟨n⟩, (mem_met ⟨n⟩).1 visited, call_eq_ok.1 found⟩
  · rintro ⟨x, path, found⟩
    obtain ⟨d', mem, found'⟩ := exists_of_mapM_eq_ok all ((mem_met x).2 path)
    have found' : r.call? x = some d' := call_eq_ok.1 found'
    rw [found] at found'
    cases found'
    exact mem

/-- A call that started before `moment` is met on the walk that passes over later ones, if it is
inside the call where the walk starts. -/
theorem isMet_of_early (h : r.Sound) {a b : CallId} (inside : r.Inside a b) {d : Call}
    (found : r.call? b = some d) {moment : Moment} (early : d.moment.before moment) :
    IsMet r (fun c => c.moment.before moment) a b := by
  induction inside generalizing d with
  | refl => exact .refl
  | tail inside edge ih =>
    obtain ⟨c, middle, sub⟩ := edge
    obtain ⟨d', there, -, later, -⟩ := (h.calls middle).2.subcalls _ sub
    rw [found] at there
    cases there
    have earlier : c.moment.before moment := by
      rw [Moment.before_iff] at later early ⊢
      exact Nat.lt_trans later early
    exact .tail (ih middle earlier) ⟨⟨c, middle, sub⟩, d, found, early⟩

/-! ## The side effects of calls -/

/-- The side effects of calls that are met on a walk. -/
theorem effectsOf_sound (h : r.Sound) {calls : List Call}
    (known : ∀ d ∈ calls, ∃ x, r.call? x = some d) :
    ∃ effects, (calls.flatMap Call.effects).mapM r.effect = .ok effects ∧
      ∀ e, e ∈ effects ↔ ∃ d ∈ calls, e.id ∈ d.effects ∧ r.effect? e.id = some e := by
  obtain ⟨effects, all⟩ := mapM_answers (f := r.effect) (l := calls.flatMap Call.effects)
    fun id mem => by
      obtain ⟨d, inside, owned⟩ := List.mem_flatMap.1 mem
      obtain ⟨x, found⟩ := known d inside
      obtain ⟨e, there, -⟩ := (h.calls found).2.effects id owned
      exact ⟨e, effect_eq_ok.2 there⟩
  refine ⟨effects, all, fun e => ?_⟩
  constructor
  · intro mem
    obtain ⟨id, inside, found⟩ := mem_of_mapM_eq_ok all mem
    have found := effect_eq_ok.1 found
    obtain rfl := (h.effects found).1
    obtain ⟨d, call, owned⟩ := List.mem_flatMap.1 inside
    exact ⟨d, call, owned, found⟩
  · rintro ⟨d, call, owned, found⟩
    obtain ⟨e', mem, found'⟩ := exists_of_mapM_eq_ok all (List.mem_flatMap.2 ⟨d, call, owned⟩)
    have found' := effect_eq_ok.1 found'
    rw [found] at found'
    cases found'
    exact mem

/-- The side effect belongs to a call inside the given one. -/
def IsOwnedInside (r : Recording) (id : CallId) (e : EffectId) : Prop :=
  ∃ x d, r.Inside id x ∧ r.call? x = some d ∧ e ∈ d.effects

/-- The outermost call around a call of the recording is part of it. -/
theorem hasCall_outermost {id : CallId} (known : r.HasCall id) : r.HasCall (outermost r id) := by
  fun_induction outermost r id with
  | case1 => exact known
  | case2 => exact known
  | case3 id call found caller eq lt ih =>
    exact ih (hasCall_iff.2 (Nat.lt_trans lt (hasCall_iff.1 known)))
  | case4 => exact known

/-- The side effect may have shaped the world of the call `c`, whose number is `id`: it was seen
outside of all calls before the call ended, or before the call started and in a call inside the
outermost one around it, or in the call itself or one inside it. -/
def IsCandidate (r : Recording) (id : CallId) (c : Call) (e : Effect) : Prop :=
  r.effect? e.id = some e ∧
    ((e.id ∈ r.rootEffects ∧ ∀ done, c.completedAt = some done → e.moment.before done) ∨
      (IsOwnedInside r (outermost r id) e.id ∧ e.moment.before c.moment) ∨
      IsOwnedInside r id e.id)

/-- The side effects outside of all calls can be looked up. -/
theorem rootEffects_sound (h : r.Sound) : ∃ effects, r.rootEffects.mapM r.effect = .ok effects ∧
    ∀ e, e ∈ effects ↔ e.id ∈ r.rootEffects ∧ r.effect? e.id = some e := by
  obtain ⟨effects, all⟩ := mapM_answers (f := r.effect) (l := r.rootEffects) fun x mem => by
    obtain ⟨e, there⟩ := h.listed.rootEffects x mem
    exact ⟨e, effect_eq_ok.2 there⟩
  refine ⟨effects, all, fun e => ?_⟩
  constructor
  · intro mem
    obtain ⟨x, listed, there⟩ := mem_of_mapM_eq_ok all mem
    have there := effect_eq_ok.1 there
    obtain rfl := (h.effects there).1
    exact ⟨listed, there⟩
  · rintro ⟨listed, there⟩
    obtain ⟨e', mem, there'⟩ := exists_of_mapM_eq_ok all listed
    have there' := effect_eq_ok.1 there'
    rw [there] at there'
    cases there'
    exact mem

/-- The side effects before `moment` that the walk past earlier calls finds are all those before
`moment` of calls inside the one where it starts. -/
theorem earlierEffects_sound (h : r.Sound) {id : CallId} (known : r.HasCall id) (moment : Moment) :
    ∃ calls effects, callsFrom r (fun c => c.moment.before moment) id = .ok calls ∧
      (calls.flatMap Call.effects).mapM r.effect = .ok effects ∧
      ∀ e, (e ∈ effects ∧ e.moment.before moment) ↔
        r.effect? e.id = some e ∧ IsOwnedInside r id e.id ∧ e.moment.before moment := by
  obtain ⟨calls, walk, mem_calls⟩ := callsFrom_sound h (fun c => c.moment.before moment) known
  obtain ⟨effects, all, mem_effects⟩ :=
    effectsOf_sound h (fun d mem => ((mem_calls d).1 mem).imp fun _ met => met.2)
  refine ⟨calls, effects, walk, all, fun e => ?_⟩
  constructor
  · rintro ⟨mem, before⟩
    obtain ⟨d, call, owned, there⟩ := (mem_effects e).1 mem
    obtain ⟨x, met, found⟩ := (mem_calls d).1 call
    exact ⟨there, ⟨x, d, met.inside, found, owned⟩, before⟩
  · rintro ⟨there, ⟨x, d, inside, found, owned⟩, before⟩
    -- the call started before its side effect, so the walk has not passed over it
    obtain ⟨e', there', later, -⟩ := (h.calls found).2.effects _ owned
    rw [there] at there'
    cases there'
    have early : d.moment.before moment := by
      rw [Moment.before_iff] at later before ⊢
      exact Nat.lt_trans later before
    have call : d ∈ calls := (mem_calls d).2 ⟨x, isMet_of_early h inside found early, found⟩
    exact ⟨(mem_effects e).2 ⟨d, call, owned, there⟩, before⟩

/-- The walk past all calls inside one finds all side effects of these calls. -/
theorem ownEffects_sound (h : r.Sound) {id : CallId} (known : r.HasCall id) :
    ∃ calls effects, callsFrom r (fun _ => true) id = .ok calls ∧
      (calls.flatMap Call.effects).mapM r.effect = .ok effects ∧
      ∀ e, e ∈ effects ↔ r.effect? e.id = some e ∧ IsOwnedInside r id e.id := by
  obtain ⟨calls, walk, mem_calls⟩ := callsFrom_sound h (fun _ => true) known
  obtain ⟨effects, all, mem_effects⟩ :=
    effectsOf_sound h (fun d mem => ((mem_calls d).1 mem).imp fun _ met => met.2)
  refine ⟨calls, effects, walk, all, fun e => ?_⟩
  constructor
  · intro mem
    obtain ⟨d, call, owned, there⟩ := (mem_effects e).1 mem
    obtain ⟨x, met, found⟩ := (mem_calls d).1 call
    exact ⟨there, x, d, met.inside, found, owned⟩
  · rintro ⟨there, x, d, inside, found, owned⟩
    have met : IsMet r (fun _ => true) id x := by
      refine Relation.ReflTransGen.mono (fun a b edge => ?_) _ _ inside
      obtain ⟨c, found, sub⟩ := edge
      obtain ⟨d, there, -⟩ := (h.calls found).2.subcalls _ sub
      exact ⟨⟨c, found, sub⟩, d, there, rfl⟩
    exact (mem_effects e).2 ⟨d, (mem_calls d).2 ⟨x, met, found⟩, owned, there⟩

/-- On a sound recording the candidates of a call can be told, and are what `IsCandidate` says. -/
theorem candidates_sound (h : r.Sound) {id : CallId} {c : Call} (found : r.call? id = some c) :
    ∃ effects, candidates r c = .ok effects ∧ ∀ e, e ∈ effects ↔ IsCandidate r id c e := by
  have known : r.HasCall id := .of_call? found
  obtain ⟨outside, outside_eq, mem_outside⟩ := rootEffects_sound h
  obtain ⟨leading, earlier, leading_eq, earlier_eq, mem_earlier⟩ :=
    earlierEffects_sound h (hasCall_outermost known) c.moment
  obtain ⟨inner, own, inner_eq, own_eq, mem_own⟩ := ownEffects_sound h known
  obtain rfl : c.id = id := (h.calls found).1
  refine ⟨(outside.filter fun e => c.completedAt.all fun done => e.moment.before done) ++
    (earlier.filter fun e => e.moment.before c.moment) ++ own, ?_, fun e => ?_⟩
  · unfold candidates
    refine bind_eq_ok.2 ⟨outside, outside_eq, bind_eq_ok.2 ⟨leading, leading_eq, ?_⟩⟩
    refine bind_eq_ok.2 ⟨earlier, earlier_eq, bind_eq_ok.2 ⟨inner, inner_eq, ?_⟩⟩
    exact bind_eq_ok.2 ⟨own, own_eq, rfl⟩
  · have isBeforeEnd : (c.completedAt.all fun done => e.moment.before done) = true ↔
        ∀ done, c.completedAt = some done → e.moment.before done := by
      cases c.completedAt <;> simp
    simp only [List.mem_append, List.mem_filter, mem_outside, mem_earlier, mem_own, isBeforeEnd,
      IsCandidate]
    constructor
    · rintro ((⟨⟨listed, there⟩, before⟩ | ⟨there, owned, before⟩) | ⟨there, owned⟩)
      · exact ⟨there, .inl ⟨listed, before⟩⟩
      · exact ⟨there, .inr (.inl ⟨owned, before⟩)⟩
      · exact ⟨there, .inr (.inr owned)⟩
    · rintro ⟨there, ⟨listed, before⟩ | ⟨owned, before⟩ | owned⟩
      · exact .inl (.inl ⟨⟨listed, there⟩, before⟩)
      · exact .inl (.inr ⟨there, owned, before⟩)
      · exact .inr ⟨there, owned⟩

end Setup

end Reenact
