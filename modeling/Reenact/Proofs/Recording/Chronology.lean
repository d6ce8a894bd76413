import Reenact.Proofs.Recording.Lookup

/-!
# The moments of a recording

A recording stamps four kinds of facts: objects, starts of calls, ends of calls, and side effects.
`Recording.momentOf` reads all four off one function, so that one statement covers them:
`Chronological` says that no moment is later than the clock, that no two facts share a moment, and
that within each list a later number means a later moment.

Every primitive change either stamps one fact with the next tick of the clock (`Stamps`) or leaves all
moments alone (`SameMoments`), and nothing else ever happens to a moment.
-/

namespace Reenact

/-- Something that a recording stamps with a moment. -/
inductive Fact where
  | object (id : ObjectId)
  | start (id : CallId)
  | completion (id : CallId)
  /-- A side effect was seen. -/
  | effect (id : EffectId)
  deriving DecidableEq, Repr

/-- Both facts are in the same list, and the first has the smaller number. Calls end in any order,
so their ends are in no such order. -/
inductive Fact.Precedes : Fact → Fact → Prop where
  | object {a b : ObjectId} : a.index < b.index → Precedes (.object a) (.object b)
  | start {a b : CallId} : a.index < b.index → Precedes (.start a) (.start b)
  | effect {a b : EffectId} : a.index < b.index → Precedes (.effect a) (.effect b)

theorem Fact.Precedes.irrefl {f : Fact} : ¬f.Precedes f := by
  rintro (h | h | h) <;> exact Nat.lt_irrefl _ h

namespace Recording

/-- When a fact was stamped, if it was. -/
def momentOf (r : Recording) : Fact → Option Moment
  | .object id => (r.object? id).map Object.moment
  | .start id => (r.call? id).map Call.moment
  | .completion id => (r.call? id).bind Call.completedAt
  | .effect id => (r.effect? id).map Effect.moment

/-- The moments of a recording are in order. -/
structure Chronological (r : Recording) : Prop where
  /-- No moment is later than the clock. -/
  bounded : ∀ {f m}, r.momentOf f = some m → m.tick ≤ r.lastMoment.tick
  /-- No two facts share a moment. -/
  distinct : ∀ {f g m}, r.momentOf f = some m → r.momentOf g = some m → f = g
  /-- A later number means a later moment. -/
  ordered : ∀ {f g a b}, f.Precedes g → r.momentOf f = some a → r.momentOf g = some b →
    a.before b

theorem chronological_empty (id : RunId) : Chronological (empty id) := by
  have none (f : Fact) : (empty id).momentOf f = none := by
    cases f <;> simp [momentOf, object?, call?, effect?, empty]
  constructor
  · intro f m h
    simp [none] at h
  · intro f g m h
    simp [none] at h
  · intro f g a b _ h
    simp [none] at h

/-- The second recording has the moments of the first. -/
structure SameMoments (r s : Recording) : Prop where
  clock : s.lastMoment = r.lastMoment
  facts : ∀ f, s.momentOf f = r.momentOf f

/-- The second recording has the moments of the first, and one more fact at the next tick. -/
structure Stamps (r s : Recording) (fact : Fact) : Prop where
  clock : s.lastMoment = ⟨r.lastMoment.tick + 1⟩
  fresh : r.momentOf fact = none
  last : ∀ f, fact.Precedes f → r.momentOf f = none
  facts : ∀ f, s.momentOf f = if f = fact then some s.lastMoment else r.momentOf f

/-- Moments that stay as they are stay in order. -/
theorem Chronological.congr {r s : Recording} (h : r.Chronological) (same : r.SameMoments s) :
    s.Chronological := by
  constructor
  · intro f m stamped
    rw [same.clock]
    exact h.bounded (same.facts f ▸ stamped)
  · intro f g m first second
    exact h.distinct (same.facts f ▸ first) (same.facts g ▸ second)
  · intro f g a b front first second
    exact h.ordered front (same.facts f ▸ first) (same.facts g ▸ second)

/-- One more fact, stamped with the next tick, keeps all moments in order. -/
theorem Chronological.stamp {r s : Recording} {fact : Fact} (h : r.Chronological)
    (new : r.Stamps s fact) : s.Chronological := by
  obtain ⟨clock, -, last, facts⟩ := new
  have tick : s.lastMoment.tick = r.lastMoment.tick + 1 := by rw [clock]
  -- a fact of `s` is the new one, or was stamped before, at a tick that the clock has passed
  have split {f : Fact} {m : Moment} (stamped : s.momentOf f = some m) :
      (f = fact ∧ m = s.lastMoment) ∨
        (f ≠ fact ∧ r.momentOf f = some m ∧ m.tick < s.lastMoment.tick) := by
    rw [facts] at stamped
    by_cases same : f = fact
    · rw [if_pos same] at stamped
      exact .inl ⟨same, (Option.some.inj stamped).symm⟩
    · rw [if_neg same] at stamped
      have := h.bounded stamped
      exact .inr ⟨same, stamped, by omega⟩
  constructor
  · intro f m stamped
    rcases split stamped with ⟨-, rfl⟩ | ⟨-, -, earlier⟩
    · exact Nat.le_refl _
    · exact Nat.le_of_lt earlier
  · intro f g m first second
    rcases split first with ⟨rfl, now⟩ | ⟨-, before, earlier⟩ <;>
      rcases split second with ⟨rfl, now'⟩ | ⟨-, before', earlier'⟩
    · rfl
    · rw [now] at earlier'
      exact absurd earlier' (Nat.lt_irrefl _)
    · rw [now'] at earlier
      exact absurd earlier (Nat.lt_irrefl _)
    · exact h.distinct before before'
  · intro f g a b front first second
    rw [Moment.before_iff]
    rcases split first with ⟨rfl, now⟩ | ⟨-, before, earlier⟩ <;>
      rcases split second with ⟨rfl, now'⟩ | ⟨-, before', earlier'⟩
    · exact absurd front Fact.Precedes.irrefl
    · simp [last g front] at before'
    · rw [now']
      exact earlier
    · exact Moment.before_iff.1 (h.ordered front before before')

/-! ## The moments after each primitive change -/

/-- Nothing is numbered behind the newest object. -/
theorem momentOf_of_precedes_object {r : Recording} {f : Fact}
    (h : (Fact.object ⟨r.objects.size⟩).Precedes f) : r.momentOf f = none := by
  cases h with
  | object lt => simpa [momentOf, object?] using Nat.le_of_lt lt

/-- Nothing is numbered behind the newest call. -/
theorem momentOf_of_precedes_start {r : Recording} {f : Fact}
    (h : (Fact.start ⟨r.calls.size⟩).Precedes f) : r.momentOf f = none := by
  cases h with
  | start lt => simpa [momentOf, call?] using Nat.le_of_lt lt

/-- Nothing is numbered behind the newest side effect. -/
theorem momentOf_of_precedes_effect {r : Recording} {f : Fact}
    (h : (Fact.effect ⟨r.effects.size⟩).Precedes f) : r.momentOf f = none := by
  cases h with
  | effect lt => simpa [momentOf, effect?] using Nat.le_of_lt lt

theorem stamps_pushObject (r : Recording) (v : Value) (kind : ObjectKind) :
    r.Stamps (r.pushObject v kind).1 (.object ⟨r.objects.size⟩) where
  clock := lastMoment_pushObject ..
  fresh := by simp [momentOf, object?]
  last _ := momentOf_of_precedes_object
  facts f := by
    cases f with
    | object id =>
      simp only [momentOf, object?_pushObject, Fact.object.injEq]
      by_cases same : id.index = r.objects.size
      · have : id = ⟨r.objects.size⟩ := by cases id; simp_all
        simp only [if_pos same, if_pos this]
        rfl
      · have : ¬id = ⟨r.objects.size⟩ := by rintro rfl; exact same rfl
        simp only [if_neg same, if_neg this]
    | start id => rfl
    | completion id => rfl
    | effect id => rfl

theorem stamps_pushCall (r : Recording) (kind : CallKind) (definition : Definition)
    (input : Arguments) (caller : Option CallId) :
    r.Stamps (r.pushCall kind definition input caller).1 (.start ⟨r.calls.size⟩) where
  clock := lastMoment_pushCall ..
  fresh := by simp [momentOf, call?]
  last _ := momentOf_of_precedes_start
  facts f := by
    cases f with
    | object id => simp [momentOf, object?]
    | start id =>
      simp only [momentOf, call?_pushCall, Fact.start.injEq]
      by_cases same : id.index = r.calls.size
      · have : id = ⟨r.calls.size⟩ := by cases id; simp_all
        simp only [if_pos same, if_pos this, lastMoment_pushCall]
        rfl
      · have : ¬id = ⟨r.calls.size⟩ := by rintro rfl; exact same rfl
        simp only [if_neg same, if_neg this, Option.map_map]
        cases r.call? id with
        | none => rfl
        | some c =>
          simp only [Option.map_some, Function.comp_apply]
          split <;> rfl
    | completion id =>
      simp only [momentOf, call?_pushCall, reduceCtorEq, if_false]
      by_cases same : id.index = r.calls.size
      · have : r.call? id = none := by simp [call?, same]
        simp only [if_pos same, this]
        rfl
      · simp only [if_neg same]
        cases r.call? id with
        | none => rfl
        | some c =>
          simp only [Option.map_some, Option.bind_some]
          split <;> rfl
    | effect id => simp [momentOf, effect?]

theorem stamps_pushEffect (r : Recording) (change : Change) (owner : Option CallId) :
    r.Stamps (r.pushEffect change owner).1 (.effect ⟨r.effects.size⟩) where
  clock := lastMoment_pushEffect ..
  fresh := by simp [momentOf, effect?]
  last _ := momentOf_of_precedes_effect
  facts f := by
    cases f with
    | object id => simp [momentOf, object?]
    | start id =>
      simp only [momentOf, call?_pushEffect, reduceCtorEq, if_false]
      cases r.call? id with
      | none => rfl
      | some c =>
        simp only [Option.map_some]
        split <;> rfl
    | completion id =>
      simp only [momentOf, call?_pushEffect, reduceCtorEq, if_false]
      cases r.call? id with
      | none => rfl
      | some c =>
        simp only [Option.map_some, Option.bind_some]
        split <;> rfl
    | effect id =>
      simp only [momentOf, effect?_pushEffect, Fact.effect.injEq]
      by_cases same : id.index = r.effects.size
      · have : id = ⟨r.effects.size⟩ := by cases id; simp_all
        simp only [if_pos same, if_pos this, lastMoment_pushEffect]
        rfl
      · have : ¬id = ⟨r.effects.size⟩ := by rintro rfl; exact same rfl
        simp only [if_neg same, if_neg this]

/-- A change of what is particular to an object leaves the moments alone. -/
theorem sameMoments_modifyKind (r : Recording) (id : ObjectId) (f : ObjectKind → ObjectKind) :
    r.SameMoments (r.modifyKind id f) where
  clock := lastMoment_modifyKind ..
  facts fact := by
    cases fact with
    | object other =>
      simp only [momentOf, object?_modifyKind]
      split
      · rename_i same
        subst same
        cases r.object? other <;> rfl
      · rfl
    | start other => rfl
    | completion other => rfl
    | effect other => rfl

/-- A change of a call that keeps its moments leaves all moments alone. -/
theorem sameMoments_modifyCall (r : Recording) (id : CallId) {f : Call → Call}
    (start : ∀ c, (f c).moment = c.moment) (done : ∀ c, (f c).completedAt = c.completedAt) :
    r.SameMoments (r.modifyCall id f) where
  clock := lastMoment_modifyCall ..
  facts fact := by
    cases fact with
    | object other => rfl
    | start other =>
      simp only [momentOf, call?_modifyCall]
      split
      · rename_i same
        subst same
        cases r.call? other with
        | none => rfl
        | some c => simp only [Option.map_some, start]
      · rfl
    | completion other =>
      simp only [momentOf, call?_modifyCall]
      split
      · rename_i same
        subst same
        cases r.call? other with
        | none => rfl
        | some c => simp only [Option.map_some, Option.bind_some, done]
      · rfl
    | effect other => rfl

/-- A call that ended then. -/
def withEnd (m : Moment) (c : Call) : Call := { c with completedAt := some m }

/-- The moment that the clock hands out next. -/
abbrev nextMoment (r : Recording) : Moment := ⟨r.lastMoment.tick + 1⟩

/-- The recording after a call has ended at the next tick. -/
def endCall (r : Recording) (id : CallId) : Recording :=
  r.tick.modifyCall id (withEnd r.nextMoment)

theorem call?_endCall (r : Recording) (id other : CallId) : (r.endCall id).call? other =
    if other = id then (r.call? id).map (withEnd r.nextMoment) else r.call? other := by
  rw [endCall, call?_modifyCall, call?_tick, call?_tick]

@[simp] theorem size_calls_endCall (r : Recording) (id : CallId) :
    (r.endCall id).calls.size = r.calls.size := by
  rw [endCall, size_calls_modifyCall, tick]

/-- The end of a call that had not ended is one more fact. -/
theorem stamps_endCall {r : Recording} {id : CallId} {c : Call} (found : r.call? id = some c)
    (running : c.completedAt = none) : r.Stamps (r.endCall id) (.completion id) where
  clock := rfl
  fresh := by rw [momentOf, found]; exact running
  last := by rintro f ⟨⟩
  facts f := by
    cases f with
    | object other => rfl
    | start other =>
      simp only [momentOf, call?_endCall, reduceCtorEq, if_false]
      split
      · rename_i same
        subst same
        cases r.call? other <;> rfl
      · rfl
    | completion other =>
      simp only [momentOf, call?_endCall, Fact.completion.injEq]
      by_cases same : other = id
      · subst same
        simp only [if_true, found, Option.map_some, Option.bind_some]
        rfl
      · simp only [if_neg same]
    | effect other => rfl

end Recording

end Reenact
