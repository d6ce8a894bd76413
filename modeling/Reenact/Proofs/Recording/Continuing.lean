import Reenact.Proofs.Recording.Noting

/-!
# Recordings that go on

A recording goes on while the program runs. `Recording.Continues` says of a later state of it what may
be different from an earlier one. Objects keep all but what instances and generators learn from calls.
A call gets side effects and subcalls behind those that it has, and an outcome and an end, and once it
has ended it never changes. Everything that is new was stamped later than all that there was.

**The law** (`Session.Notes.continues`, and one lemma for each change of a call): every change of a
recording goes on from it, if only calls that have not ended are changed. The stack of running calls
sees to that (`Reenact.Proofs.Trace.Continuing`).
-/

namespace Reenact

namespace ObjectKind.Becomes

variable {a b c : ObjectKind}

theorem trans (first : a.Becomes b) (second : b.Becomes c) : a.Becomes c := by
  cases first with
  | same => exact second
  | used kept =>
    cases second with
    | same => exact .used kept
    | used kept' =>
      refine .used fun made => ?_
      have still := kept made
      rw [kept' (still ▸ made), still]
  | resumed kept =>
    cases second with
    | same => exact .resumed kept
    | resumed kept' =>
      refine .resumed fun made => ?_
      have still := kept made
      rw [kept' (still ▸ made), still]

theorem parts (h : a.Becomes b) : b.parts = a.parts := by
  cases h <;> rfl

theorem isImmutable (h : a.Becomes b) : b.isImmutable = a.isImmutable := by
  cases h <;> rfl

end ObjectKind.Becomes

/-! ## Lists that get longer -/

/-- The later list is the earlier one and behind it what was not known before. -/
def Extends {α : Type} (known : α → Prop) (earlier later : List α) : Prop :=
  ∃ late, later = earlier ++ late ∧ ∀ a ∈ late, ¬known a

namespace Extends

variable {α : Type} {known known' : α → Prop} {l l' l'' : List α} {a : α}

theorem refl (known : α → Prop) (l : List α) : Extends known l l :=
  ⟨[], (List.append_nil l).symm, fun _ mem => (List.not_mem_nil mem).elim⟩

theorem trans (first : Extends known l l') (second : Extends known' l' l'')
    (mono : ∀ a, known a → known' a) : Extends known l l'' := by
  obtain ⟨late, rfl, fresh⟩ := first
  obtain ⟨later, rfl, fresh'⟩ := second
  refine ⟨late ++ later, List.append_assoc .., fun a mem => ?_⟩
  rcases List.mem_append.1 mem with mem | mem
  · exact fresh a mem
  · exact fun old => fresh' a mem (mono a old)

theorem concat (fresh : ¬known a) : Extends known l (l ++ [a]) := by
  refine ⟨[a], rfl, fun b mem => ?_⟩
  rw [List.mem_singleton.1 mem]
  exact fresh

theorem subset (h : Extends known l l') : l ⊆ l' := by
  obtain ⟨late, rfl, -⟩ := h
  exact List.subset_append_left _ _

/-- What was known before is in both lists or in none. -/
theorem mem_iff (h : Extends known l l') (old : known a) : a ∈ l' ↔ a ∈ l := by
  refine ⟨fun mem => ?_, fun mem => h.subset mem⟩
  obtain ⟨late, rfl, fresh⟩ := h
  exact (List.mem_append.1 mem).resolve_right fun mem => fresh a mem old

end Extends

namespace Recording

variable {r s t : Recording} {id : CallId} {c d : Call}

/-! ## Later states of calls and recordings -/

/-- A later state of a call. -/
structure CallContinues (r : Recording) (c d : Call) : Prop where
  head : d = { c with
    outcome := d.outcome, effects := d.effects, subcalls := d.subcalls,
    completedAt := d.completedAt }
  effects : Extends r.HasEffect c.effects d.effects
  subcalls : Extends r.HasCall c.subcalls d.subcalls
  ended : c.completedAt ≠ none → d = c

/-- A later state of a recording. -/
structure Continues (r s : Recording) : Prop where
  objects : ∀ {id o}, r.object? id = some o →
    ∃ kind, s.object? id = some { o with kind := kind } ∧ o.kind.Becomes kind
  calls : ∀ {id c}, r.call? id = some c → ∃ d, s.call? id = some d ∧ r.CallContinues c d
  effects : ∀ {id e}, r.effect? id = some e → s.effect? id = some e
  /-- What is new was stamped later than all that there was. -/
  newer : ∀ {f m}, s.momentOf f = some m → r.momentOf f = some m ∨ r.lastMoment.before m
  clock : r.lastMoment.tick ≤ s.lastMoment.tick
  captured : Extends r.HasCall r.captured s.captured
  rootEffects : Extends r.HasEffect r.rootEffects s.rootEffects

theorem CallContinues.kind (h : r.CallContinues c d) : d.kind = c.kind := by
  rw [h.head]

theorem CallContinues.input (h : r.CallContinues c d) : d.input = c.input := by
  rw [h.head]

theorem CallContinues.caller (h : r.CallContinues c d) : d.caller = c.caller := by
  rw [h.head]

theorem CallContinues.moment (h : r.CallContinues c d) : d.moment = c.moment := by
  rw [h.head]

theorem CallContinues.refl (r : Recording) (c : Call) : r.CallContinues c c :=
  ⟨rfl, .refl _ _, .refl _ _, fun _ => rfl⟩

theorem Continues.refl (r : Recording) : r.Continues r where
  objects {_ o} found := ⟨o.kind, found, .same _⟩
  calls {_ c} found := ⟨c, found, .refl r c⟩
  effects found := found
  newer stamped := .inl stamped
  clock := Nat.le_refl _
  captured := .refl _ _
  rootEffects := .refl _ _

/-- A recording that continues one has grown from it. -/
theorem Continues.grows (h : r.Continues s) : r.Grows s where
  objects found := by
    obtain ⟨kind, found', -⟩ := h.objects found
    exact ⟨_, found', rfl⟩
  calls found := by
    obtain ⟨d, found', same⟩ := h.calls found
    refine ⟨d, found', same.moment, same.caller, fun done ended => ?_⟩
    rw [same.ended (by rw [ended]; exact Option.some_ne_none _), ended]
  effects := h.effects

theorem CallContinues.trans (grows : r.Grows s) {e : Call} (first : r.CallContinues c d)
    (second : s.CallContinues d e) : r.CallContinues c e where
  head := by rw [second.head, first.head]
  effects := first.effects.trans second.effects fun _ => HasEffect.mono grows
  subcalls := first.subcalls.trans second.subcalls fun _ => HasCall.mono grows
  ended done := by
    obtain rfl := first.ended done
    exact second.ended done

theorem Continues.trans (first : r.Continues s) (second : s.Continues t) : r.Continues t where
  objects found := by
    obtain ⟨kind, found', becomes⟩ := first.objects found
    obtain ⟨kind', found'', becomes'⟩ := second.objects found'
    exact ⟨kind', found'', becomes.trans becomes'⟩
  calls found := by
    obtain ⟨d, found', same⟩ := first.calls found
    obtain ⟨e, found'', same'⟩ := second.calls found'
    exact ⟨e, found'', same.trans first.grows same'⟩
  effects found := second.effects (first.effects found)
  newer stamped := by
    rcases second.newer stamped with old | late
    · exact first.newer old
    · have := first.clock
      rw [Moment.before_iff] at late ⊢
      exact .inr (by omega)
  clock := Nat.le_trans first.clock second.clock
  captured := first.captured.trans second.captured fun _ => HasCall.mono first.grows
  rootEffects := first.rootEffects.trans second.rootEffects fun _ => HasEffect.mono first.grows

/-! ## What was there before -/

/-- A call that has ended never changes. -/
theorem Continues.call?_of_ended (h : r.Continues s) (found : r.call? id = some c)
    (ended : c.completedAt ≠ none) : s.call? id = some c := by
  obtain ⟨d, found', same⟩ := h.calls found
  rw [found', same.ended ended]

/-- What was stamped no later than the clock showed was there. -/
theorem Continues.momentOf_of_le (h : r.Continues s) {f : Fact} {m : Moment}
    (stamped : s.momentOf f = some m) (le : m.tick ≤ r.lastMoment.tick) :
    r.momentOf f = some m := by
  refine (h.newer stamped).resolve_right fun late => ?_
  rw [Moment.before_iff] at late
  omega

theorem Continues.effect?_of_le (h : r.Continues s) {id : EffectId} {e : Effect}
    (found : s.effect? id = some e) (le : e.moment.tick ≤ r.lastMoment.tick) :
    r.effect? id = some e := by
  have stamped : s.momentOf (.effect id) = some e.moment := by rw [momentOf, found]; rfl
  obtain ⟨e', there, -⟩ := Option.map_eq_some_iff.1 (h.momentOf_of_le stamped le)
  rw [there, ← h.effects there, found]

theorem Continues.call?_of_le (h : r.Continues s) (found : s.call? id = some d)
    (le : d.moment.tick ≤ r.lastMoment.tick) :
    ∃ c, r.call? id = some c ∧ r.CallContinues c d := by
  have stamped : s.momentOf (.start id) = some d.moment := by rw [momentOf, found]; rfl
  obtain ⟨c, there, -⟩ := Option.map_eq_some_iff.1 (h.momentOf_of_le stamped le)
  obtain ⟨d', found', same⟩ := h.calls there
  rw [found] at found'
  exact ⟨c, there, Option.some.inj found' ▸ same⟩

/-- One more fact is newer than all others. -/
theorem Stamps.newer {fact : Fact} (new : r.Stamps s fact) {f : Fact} {m : Moment}
    (stamped : s.momentOf f = some m) : r.momentOf f = some m ∨ r.lastMoment.before m := by
  rw [new.facts] at stamped
  split at stamped
  · rw [← Option.some.inj stamped, new.clock, Moment.before_iff]
    exact .inr (Nat.lt_succ_self _)
  · exact .inl stamped

theorem Stamps.clock_le {fact : Fact} (new : r.Stamps s fact) :
    r.lastMoment.tick ≤ s.lastMoment.tick := by
  rw [new.clock]
  exact Nat.le_succ _

theorem SameMoments.newer (same : r.SameMoments s) {f : Fact} {m : Moment}
    (stamped : s.momentOf f = some m) : r.momentOf f = some m ∨ r.lastMoment.before m :=
  .inl (same.facts f ▸ stamped)

/-! ## Each change goes on -/

theorem continues_pushObject (r : Recording) (v : Value) (kind : ObjectKind) :
    r.Continues (r.pushObject v kind).1 where
  objects {id o} found := by
    have lt : id.index < r.objects.size := hasObject_iff.1 (.of_object? found)
    exact ⟨o.kind, by rw [object?_pushObject, if_neg (Nat.ne_of_lt lt), found], .same _⟩
  calls {_ c} found := ⟨c, found, .refl r c⟩
  effects found := found
  newer := (stamps_pushObject ..).newer
  clock := (stamps_pushObject ..).clock_le
  captured := .refl _ _
  rootEffects := .refl _ _

theorem continues_modifyKind {x : ObjectId} {f : ObjectKind → ObjectKind}
    (becomes : ∀ o, r.object? x = some o → o.kind.Becomes (f o.kind)) :
    r.Continues (r.modifyKind x f) where
  objects {id o} found := by
    rw [object?_modifyKind]
    by_cases same : id = x
    · subst same
      exact ⟨f o.kind, by rw [if_pos rfl, found]; rfl, becomes o found⟩
    · exact ⟨o.kind, by rw [if_neg same, found], .same _⟩
  calls {_ c} found := ⟨c, found, .refl r c⟩
  effects found := found
  newer := (sameMoments_modifyKind ..).newer
  clock := Nat.le_refl _
  captured := .refl _ _
  rootEffects := .refl _ _

/-- A call that has not ended gets an outcome. -/
theorem continues_withOutcome (outcome : Outcome)
    (running : ∀ c, r.call? id = some c → c.completedAt = none) :
    r.Continues (r.modifyCall id (withOutcome outcome)) where
  objects {_ o} found := ⟨o.kind, found, .same _⟩
  calls {other c} found := by
    rw [call?_modifyCall]
    by_cases same : other = id
    · subst same
      exact ⟨withOutcome outcome c, by rw [if_pos rfl, found]; rfl, rfl, .refl _ _, .refl _ _,
        fun ended => absurd (running c found) ended⟩
    · exact ⟨c, by rw [if_neg same, found], .refl r c⟩
  effects found := found
  newer := (sameMoments_modifyCall r id (f := withOutcome outcome) (fun _ => rfl) fun _ => rfl).newer
  clock := Nat.le_refl _
  captured := .refl _ _
  rootEffects := .refl _ _

/-- A call that has not ended ends. -/
theorem continues_endCall (found : r.call? id = some c) (running : c.completedAt = none) :
    r.Continues (r.endCall id) where
  objects {_ o} there := ⟨o.kind, there, .same _⟩
  calls {other d} there := by
    rw [call?_endCall]
    by_cases same : other = id
    · subst same
      rw [found] at there
      cases there
      exact ⟨withEnd r.nextMoment c, by rw [if_pos rfl, found]; rfl, rfl, .refl _ _, .refl _ _,
        fun ended => absurd running ended⟩
    · exact ⟨d, by rw [if_neg same, there], .refl r d⟩
  effects there := there
  newer := (stamps_endCall found running).newer
  clock := (stamps_endCall found running).clock_le
  captured := .refl _ _
  rootEffects := .refl _ _

theorem not_hasCall_next (r : Recording) : ¬r.HasCall ⟨r.calls.size⟩ := by
  intro known
  exact Nat.lt_irrefl _ (hasCall_iff.1 known)

theorem not_hasEffect_next (r : Recording) : ¬r.HasEffect ⟨r.effects.size⟩ := by
  intro known
  exact Nat.lt_irrefl _ (hasEffect_iff.1 known)

/-- A call is made from one that has not ended. -/
theorem continues_pushCall (kind : CallKind) (definition : Definition) (input : Arguments)
    {caller : Option CallId}
    (running : ∀ id c, caller = some id → r.call? id = some c → c.completedAt = none) :
    r.Continues (r.pushCall kind definition input caller).1 where
  objects {id o} found := ⟨o.kind, by rw [object?, objects_pushCall]; exact found, .same _⟩
  calls {id c} found := by
    have lt : id.index < r.calls.size := hasCall_iff.1 (.of_call? found)
    rw [call?_pushCall, if_neg (Nat.ne_of_lt lt), found, Option.map_some]
    refine ⟨_, rfl, ?_⟩
    by_cases called : caller = some id
    · rw [if_pos called]
      exact ⟨rfl, .refl _ _, .concat r.not_hasCall_next,
        fun ended => absurd (running id c called found) ended⟩
    · rw [if_neg called]
      exact .refl r c
  effects found := by rwa [effect?, effects_pushCall]
  newer := (stamps_pushCall ..).newer
  clock := (stamps_pushCall ..).clock_le
  captured := by
    rw [captured_pushCall]
    exact .concat r.not_hasCall_next
  rootEffects := by
    rw [rootEffects_pushCall]
    exact .refl _ _

/-- A side effect is seen in a call that has not ended. -/
theorem continues_pushEffect (change : Change) {owner : Option CallId}
    (running : ∀ id c, owner = some id → r.call? id = some c → c.completedAt = none) :
    r.Continues (r.pushEffect change owner).1 where
  objects {id o} found := ⟨o.kind, by rw [object?, objects_pushEffect]; exact found, .same _⟩
  calls {id c} found := by
    rw [call?_pushEffect, found, Option.map_some]
    refine ⟨_, rfl, ?_⟩
    by_cases owned : owner = some id
    · rw [if_pos owned]
      exact ⟨rfl, .concat r.not_hasEffect_next, .refl _ _,
        fun ended => absurd (running id c owned found) ended⟩
    · rw [if_neg owned]
      exact .refl r c
  effects {id e} found := by
    have lt : id.index < r.effects.size := hasEffect_iff.1 (.of_effect? found)
    rw [effect?_pushEffect, if_neg (Nat.ne_of_lt lt), found]
  newer := (stamps_pushEffect ..).newer
  clock := (stamps_pushEffect ..).clock_le
  captured := by
    rw [captured_pushEffect]
    exact .refl _ _
  rootEffects := by
    rw [rootEffects_pushEffect]
    split
    · exact .concat r.not_hasEffect_next
    · exact .refl _ _

end Recording

/-- Noting values goes on from a recording. -/
theorem Session.Notes.continues {s t : Session} (h : s.Notes t) :
    s.recording.Continues t.recording := by
  induction h with
  | refl => exact .refl _
  | stray _ v ih => exact ih.trans (Recording.continues_pushObject ..)
  | @known t _ v kind fresh ih =>
    have pushed := ih.trans (Recording.continues_pushObject t.recording v kind)
    rcases pushKnown_recording t v kind with eq | eq <;> rw [eq] <;>
      exact ⟨pushed.objects, pushed.calls, pushed.effects, pushed.newer, pushed.clock,
        pushed.captured, pushed.rootEffects⟩
  | altered _ id keeps ih => exact ih.trans (Recording.continues_modifyKind keeps.becomes)
  | linked _ same ih => exact ih

end Reenact
