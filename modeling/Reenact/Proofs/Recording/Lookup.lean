import Reenact.Recording.Finish

/-!
# What a recording holds after a change

Each primitive change of a recording adds at most one entry to one of its three lists and changes at
most one other entry. The lemmas here say, for each change, what every look-up answers afterwards
and which lists it leaves alone. Nothing later unfolds a primitive change again: the order of
moments (`Reenact.Proofs.Recording.Chronology`) and the soundness of references
(`Reenact.Proofs.Recording.Soundness`) are read off these equations.
-/

namespace Reenact

namespace Moment

/-- Strictly earlier is fewer ticks. -/
@[simp] theorem before_iff {a b : Moment} : a.before b = true ↔ a.tick < b.tick := by
  simp only [before, decide_eq_true_eq]

end Moment

attribute [ext] Recording

namespace Recording

/-! ## Membership -/

/-- The object is part of the recording. -/
def HasObject (r : Recording) (id : ObjectId) : Prop := ∃ o, r.object? id = some o

/-- The call is part of the recording. -/
def HasCall (r : Recording) (id : CallId) : Prop := ∃ c, r.call? id = some c

/-- The side effect is part of the recording. -/
def HasEffect (r : Recording) (id : EffectId) : Prop := ∃ e, r.effect? id = some e

theorem call_eq_ok {r : Recording} {id : CallId} {c : Call} :
    r.call id = .ok c ↔ r.call? id = some c := by
  unfold call
  cases r.call? id <;> simp

theorem object_eq_ok {r : Recording} {id : ObjectId} {o : Object} :
    r.object id = .ok o ↔ r.object? id = some o := by
  unfold object
  cases r.object? id <;> simp

theorem effect_eq_ok {r : Recording} {id : EffectId} {e : Effect} :
    r.effect id = .ok e ↔ r.effect? id = some e := by
  unfold effect
  cases r.effect? id <;> simp

theorem findCall_eq_ok {r : Recording} {id : CallId} {c : Call} :
    r.findCall id = .ok c ↔ r.call? id = some c := by
  unfold findCall
  cases r.call? id <;> simp

theorem findObject_eq_ok {r : Recording} {id : ObjectId} {o : Object} :
    r.findObject id = .ok o ↔ r.object? id = some o := by
  unfold findObject
  cases r.object? id <;> simp

/-- A recording holds the objects numbered below their count. -/
theorem hasObject_iff {r : Recording} {id : ObjectId} :
    r.HasObject id ↔ id.index < r.objects.size := by
  simp only [HasObject, object?, ← Option.isSome_iff_exists, isSome_getElem?]

/-- A recording holds the calls numbered below their count. -/
theorem hasCall_iff {r : Recording} {id : CallId} : r.HasCall id ↔ id.index < r.calls.size := by
  simp only [HasCall, call?, ← Option.isSome_iff_exists, isSome_getElem?]

/-- A recording holds the side effects numbered below their count. -/
theorem hasEffect_iff {r : Recording} {id : EffectId} :
    r.HasEffect id ↔ id.index < r.effects.size := by
  simp only [HasEffect, effect?, ← Option.isSome_iff_exists, isSome_getElem?]

theorem HasObject.of_object? {r : Recording} {id : ObjectId} {o : Object}
    (h : r.object? id = some o) : r.HasObject id := ⟨o, h⟩

theorem HasCall.of_call? {r : Recording} {id : CallId} {c : Call} (h : r.call? id = some c) :
    r.HasCall id := ⟨c, h⟩

theorem HasEffect.of_effect? {r : Recording} {id : EffectId} {e : Effect}
    (h : r.effect? id = some e) : r.HasEffect id := ⟨e, h⟩

/-- The clock alone changes no entry. -/
@[simp] theorem call?_tick (r : Recording) (id : CallId) : r.tick.call? id = r.call? id := rfl

/-! ## Adding an object -/

section PushObject

variable (r : Recording) (v : Value) (kind : ObjectKind)

/-- The object that is added for a value. -/
def newObject : Object where
  id := ⟨r.objects.size⟩
  moment := ⟨r.clock.last.tick + 1⟩
  word := v.word
  typeName := v.typeName
  module := v.module
  kind := kind

@[simp] theorem pushObject_id : (r.pushObject v kind).2 = ⟨r.objects.size⟩ := rfl

theorem object?_pushObject (id : ObjectId) : (r.pushObject v kind).1.object? id =
    if id.index = r.objects.size then some (r.newObject v kind) else r.object? id := by
  simp only [pushObject, object?, tick, Clock.advance, newObject, Array.getElem?_push]

@[simp] theorem size_objects_pushObject :
    (r.pushObject v kind).1.objects.size = r.objects.size + 1 := by
  simp only [pushObject, tick, Array.size_push]

@[simp] theorem calls_pushObject : (r.pushObject v kind).1.calls = r.calls := rfl
@[simp] theorem effects_pushObject : (r.pushObject v kind).1.effects = r.effects := rfl
@[simp] theorem captured_pushObject : (r.pushObject v kind).1.captured = r.captured := rfl
@[simp] theorem roots_pushObject : (r.pushObject v kind).1.roots = r.roots := rfl
@[simp] theorem rootEffects_pushObject :
    (r.pushObject v kind).1.rootEffects = r.rootEffects := rfl
@[simp] theorem known_pushObject : (r.pushObject v kind).1.known = r.known := rfl
@[simp] theorem generators_pushObject : (r.pushObject v kind).1.generators = r.generators := rfl
@[simp] theorem lastMoment_pushObject :
    (r.pushObject v kind).1.lastMoment = ⟨r.lastMoment.tick + 1⟩ := rfl

end PushObject

/-! ## Changing what is particular to an object -/

section ModifyKind

variable (r : Recording) (id : ObjectId) (f : ObjectKind → ObjectKind)

theorem object?_modifyKind (other : ObjectId) : (r.modifyKind id f).object? other =
    if other = id then (r.object? id).map fun o => { o with kind := f o.kind }
    else r.object? other := by
  simp only [modifyKind, object?, Array.getElem?_modify]
  by_cases same : other = id
  · subst same
    simp
  · have differ : ¬id.index = other.index := fun h => same (by cases id; cases other; simp_all)
    rw [if_neg differ, if_neg same]

@[simp] theorem size_objects_modifyKind :
    (r.modifyKind id f).objects.size = r.objects.size := by
  simp only [modifyKind, Array.size_modify]

@[simp] theorem calls_modifyKind : (r.modifyKind id f).calls = r.calls := rfl
@[simp] theorem effects_modifyKind : (r.modifyKind id f).effects = r.effects := rfl
@[simp] theorem captured_modifyKind : (r.modifyKind id f).captured = r.captured := rfl
@[simp] theorem roots_modifyKind : (r.modifyKind id f).roots = r.roots := rfl
@[simp] theorem rootEffects_modifyKind : (r.modifyKind id f).rootEffects = r.rootEffects := rfl
@[simp] theorem known_modifyKind : (r.modifyKind id f).known = r.known := rfl
@[simp] theorem generators_modifyKind : (r.modifyKind id f).generators = r.generators := rfl
@[simp] theorem lastMoment_modifyKind : (r.modifyKind id f).lastMoment = r.lastMoment := rfl

end ModifyKind

/-! ## Changing a call -/

section ModifyCall

variable (r : Recording) (id : CallId) (f : Call → Call)

theorem call?_modifyCall (other : CallId) : (r.modifyCall id f).call? other =
    if other = id then (r.call? id).map f else r.call? other := by
  simp only [modifyCall, call?, Array.getElem?_modify]
  by_cases same : other = id
  · subst same
    simp
  · have differ : ¬id.index = other.index := fun h => same (by cases id; cases other; simp_all)
    rw [if_neg differ, if_neg same]

@[simp] theorem size_calls_modifyCall : (r.modifyCall id f).calls.size = r.calls.size := by
  simp only [modifyCall, Array.size_modify]

@[simp] theorem objects_modifyCall : (r.modifyCall id f).objects = r.objects := rfl
@[simp] theorem effects_modifyCall : (r.modifyCall id f).effects = r.effects := rfl
@[simp] theorem captured_modifyCall : (r.modifyCall id f).captured = r.captured := rfl
@[simp] theorem roots_modifyCall : (r.modifyCall id f).roots = r.roots := rfl
@[simp] theorem rootEffects_modifyCall : (r.modifyCall id f).rootEffects = r.rootEffects := rfl
@[simp] theorem known_modifyCall : (r.modifyCall id f).known = r.known := rfl
@[simp] theorem generators_modifyCall : (r.modifyCall id f).generators = r.generators := rfl
@[simp] theorem lastMoment_modifyCall : (r.modifyCall id f).lastMoment = r.lastMoment := rfl

end ModifyCall

/-! ## Adding a call -/

section PushCall

variable (r : Recording) (kind : CallKind) (definition : Definition) (input : Arguments)
  (caller : Option CallId)

/-- The call that is added; a caller that is not part of the recording counts as none. -/
def newCall : Call where
  id := ⟨r.calls.size⟩
  kind := kind
  definition := definition
  input := input
  outcome := none
  effects := []
  caller := caller.filter fun c => decide (c.index < r.calls.size)
  subcalls := []
  moment := ⟨r.clock.last.tick + 1⟩
  completedAt := none

theorem caller_newCall_of_known {r : Recording} {id : CallId} (known : r.HasCall id) :
    (r.newCall kind definition input (some id)).caller = some id := by
  simp only [newCall, Option.filter_some, decide_eq_true (hasCall_iff.1 known), if_true]

/-- A call with one more subcall. -/
def withSubcall (id : CallId) (c : Call) : Call := { c with subcalls := c.subcalls ++ [id] }

@[simp] theorem pushCall_id : (r.pushCall kind definition input caller).2 = ⟨r.calls.size⟩ := by
  cases h : caller.filter fun c => decide (c.index < r.calls.size) <;> simp only [pushCall, h]

/-- The new call is behind all others, and the call it was made from has one more subcall. -/
theorem call?_pushCall (id : CallId) :
    (r.pushCall kind definition input caller).1.call? id =
      if id.index = r.calls.size then some (r.newCall kind definition input caller)
      else (r.call? id).map fun c =>
        if caller = some id then withSubcall ⟨r.calls.size⟩ c else c := by
  cases h : caller.filter fun c => decide (c.index < r.calls.size) with
  | none =>
    simp only [pushCall, h, newCall, tick, Clock.advance, call?, Array.getElem?_push]
    split
    · rfl
    · -- a caller that counts as none lies beyond the calls, where nothing is found
      cases found : r.calls[id.index]? with
      | none => rfl
      | some c =>
        have lt : id.index < r.calls.size := (Array.getElem?_eq_some_iff.1 found).1
        have differ : caller ≠ some id := by
          rintro rfl
          exact absurd h (by simp only [Option.filter_some, lt, decide_true, if_true]; simp)
        simp only [Option.map_some, if_neg differ]
  | some parent =>
    obtain ⟨rfl, valid⟩ := Option.filter_eq_some_iff.1 h
    simp only [decide_eq_true_eq] at valid
    simp only [pushCall, h, call?_modifyCall]
    simp only [newCall, h, withSubcall, tick, Clock.advance, call?, Array.getElem?_push]
    by_cases same : id = parent
    · subst same
      simp only [if_pos, Nat.ne_of_lt valid, if_false]
    · have differ : ¬some parent = some id := fun e => same (Option.some.inj e).symm
      simp only [if_neg same, if_neg differ]
      split
      · rfl
      · cases r.calls[id.index]? <;> rfl

@[simp] theorem size_calls_pushCall :
    (r.pushCall kind definition input caller).1.calls.size = r.calls.size + 1 := by
  cases h : caller.filter fun c => decide (c.index < r.calls.size) <;>
    simp only [pushCall, h, tick, size_calls_modifyCall, Array.size_push]

@[simp] theorem objects_pushCall :
    (r.pushCall kind definition input caller).1.objects = r.objects := by
  cases h : caller.filter fun c => decide (c.index < r.calls.size) <;>
    simp only [pushCall, h, tick, objects_modifyCall]

@[simp] theorem effects_pushCall :
    (r.pushCall kind definition input caller).1.effects = r.effects := by
  cases h : caller.filter fun c => decide (c.index < r.calls.size) <;>
    simp only [pushCall, h, tick, effects_modifyCall]

@[simp] theorem captured_pushCall :
    (r.pushCall kind definition input caller).1.captured = r.captured ++ [⟨r.calls.size⟩] := by
  cases h : caller.filter fun c => decide (c.index < r.calls.size) <;>
    simp only [pushCall, h, tick, captured_modifyCall]

/-- A call without caller is a root. -/
@[simp] theorem roots_pushCall : (r.pushCall kind definition input caller).1.roots =
    if (r.newCall kind definition input caller).caller = none then r.roots ++ [⟨r.calls.size⟩]
    else r.roots := by
  cases h : caller.filter fun c => decide (c.index < r.calls.size) <;>
    simp [pushCall, h, newCall, tick]

@[simp] theorem rootEffects_pushCall :
    (r.pushCall kind definition input caller).1.rootEffects = r.rootEffects := by
  cases h : caller.filter fun c => decide (c.index < r.calls.size) <;>
    simp only [pushCall, h, tick, rootEffects_modifyCall]

@[simp] theorem known_pushCall :
    (r.pushCall kind definition input caller).1.known = r.known := by
  cases h : caller.filter fun c => decide (c.index < r.calls.size) <;>
    simp only [pushCall, h, tick, known_modifyCall]

@[simp] theorem generators_pushCall :
    (r.pushCall kind definition input caller).1.generators = r.generators := by
  cases h : caller.filter fun c => decide (c.index < r.calls.size) <;>
    simp only [pushCall, h, tick, generators_modifyCall]

@[simp] theorem lastMoment_pushCall :
    (r.pushCall kind definition input caller).1.lastMoment = ⟨r.lastMoment.tick + 1⟩ := by
  cases h : caller.filter fun c => decide (c.index < r.calls.size) <;>
    simp only [pushCall, h, tick, lastMoment_modifyCall] <;> rfl

end PushCall

/-! ## Adding a side effect -/

section PushEffect

variable (r : Recording) (change : Change) (owner : Option CallId)

/-- The side effect that is added. -/
def newEffect : Effect := .ofChange ⟨r.effects.size⟩ ⟨r.clock.last.tick + 1⟩ change

/-- A call with one more side effect. -/
def withEffect (id : EffectId) (c : Call) : Call := { c with effects := c.effects ++ [id] }

/-- A side effect without an owner in the recording is outside of all calls. -/
theorem pushEffect_of_none {r : Recording} {change : Change} {owner : Option CallId}
    (h : (owner.filter fun c => decide (c.index < r.calls.size)) = none) :
    r.pushEffect change owner = ({ r.tick with
      effects := r.effects.push (r.newEffect change)
      rootEffects := r.rootEffects ++ [⟨r.effects.size⟩] }, ⟨r.effects.size⟩) := by
  unfold pushEffect tick
  dsimp only
  rw [h]
  rfl

/-- A side effect with an owner in the recording is added to it. -/
theorem pushEffect_of_some {r : Recording} {change : Change} {owner : Option CallId}
    {parent : CallId} (h : (owner.filter fun c => decide (c.index < r.calls.size)) = some parent) :
    r.pushEffect change owner =
      (({ r.tick with effects := r.effects.push (r.newEffect change) } : Recording).modifyCall
        parent (withEffect ⟨r.effects.size⟩), ⟨r.effects.size⟩) := by
  unfold pushEffect tick
  dsimp only
  rw [h]
  rfl

@[simp] theorem pushEffect_id : (r.pushEffect change owner).2 = ⟨r.effects.size⟩ := by
  cases h : owner.filter fun c => decide (c.index < r.calls.size) with
  | none => rw [pushEffect_of_none h]
  | some parent => rw [pushEffect_of_some h]

theorem effect?_pushEffect (id : EffectId) : (r.pushEffect change owner).1.effect? id =
    if id.index = r.effects.size then some (r.newEffect change) else r.effect? id := by
  cases h : owner.filter fun c => decide (c.index < r.calls.size) with
  | none => simp only [pushEffect_of_none h, effect?, Array.getElem?_push]
  | some parent =>
    simp only [pushEffect_of_some h, effect?, effects_modifyCall, Array.getElem?_push]

/-- The side effect belongs to its owner, and to no call when the owner is not part of the
recording. -/
theorem call?_pushEffect (id : CallId) : (r.pushEffect change owner).1.call? id =
    (r.call? id).map fun c => if owner = some id then withEffect ⟨r.effects.size⟩ c else c := by
  cases h : owner.filter fun c => decide (c.index < r.calls.size) with
  | none =>
    rw [pushEffect_of_none h]
    simp only [tick, call?]
    cases found : r.calls[id.index]? with
    | none => rfl
    | some c =>
      have lt : id.index < r.calls.size := (Array.getElem?_eq_some_iff.1 found).1
      have differ : owner ≠ some id := by
        rintro rfl
        exact absurd h (by simp only [Option.filter_some, lt, decide_true, if_true]; simp)
      simp only [Option.map_some, if_neg differ]
  | some parent =>
    obtain ⟨rfl, -⟩ := Option.filter_eq_some_iff.1 h
    rw [pushEffect_of_some h, call?_modifyCall]
    by_cases same : id = parent
    · subst same
      simp only [if_pos]
      rfl
    · have differ : ¬some parent = some id := fun e => same (Option.some.inj e).symm
      simp only [if_neg same, if_neg differ, Option.map_id']
      rfl

@[simp] theorem size_calls_pushEffect :
    (r.pushEffect change owner).1.calls.size = r.calls.size := by
  cases h : owner.filter fun c => decide (c.index < r.calls.size) with
  | none => rw [pushEffect_of_none h]; rfl
  | some parent => rw [pushEffect_of_some h, size_calls_modifyCall]; rfl

@[simp] theorem size_effects_pushEffect :
    (r.pushEffect change owner).1.effects.size = r.effects.size + 1 := by
  cases h : owner.filter fun c => decide (c.index < r.calls.size) with
  | none => rw [pushEffect_of_none h, Array.size_push]
  | some parent => rw [pushEffect_of_some h, effects_modifyCall, Array.size_push]

@[simp] theorem rootEffects_pushEffect : (r.pushEffect change owner).1.rootEffects =
    if (owner.filter fun c => decide (c.index < r.calls.size)) = none
    then r.rootEffects ++ [⟨r.effects.size⟩] else r.rootEffects := by
  cases h : owner.filter fun c => decide (c.index < r.calls.size) with
  | none => rw [pushEffect_of_none h, if_pos rfl]
  | some parent =>
    rw [pushEffect_of_some h, rootEffects_modifyCall, if_neg (Option.some_ne_none parent)]
    rfl

@[simp] theorem lastMoment_pushEffect :
    (r.pushEffect change owner).1.lastMoment = ⟨r.lastMoment.tick + 1⟩ := by
  cases h : owner.filter fun c => decide (c.index < r.calls.size) with
  | none => rw [pushEffect_of_none h]; rfl
  | some parent => rw [pushEffect_of_some h]; rfl

@[simp] theorem objects_pushEffect : (r.pushEffect change owner).1.objects = r.objects := by
  cases h : owner.filter fun c => decide (c.index < r.calls.size) with
  | none => rw [pushEffect_of_none h]; rfl
  | some parent => rw [pushEffect_of_some h]; rfl

@[simp] theorem captured_pushEffect : (r.pushEffect change owner).1.captured = r.captured := by
  cases h : owner.filter fun c => decide (c.index < r.calls.size) with
  | none => rw [pushEffect_of_none h]; rfl
  | some parent => rw [pushEffect_of_some h]; rfl

@[simp] theorem roots_pushEffect : (r.pushEffect change owner).1.roots = r.roots := by
  cases h : owner.filter fun c => decide (c.index < r.calls.size) with
  | none => rw [pushEffect_of_none h]; rfl
  | some parent => rw [pushEffect_of_some h]; rfl

@[simp] theorem known_pushEffect : (r.pushEffect change owner).1.known = r.known := by
  cases h : owner.filter fun c => decide (c.index < r.calls.size) with
  | none => rw [pushEffect_of_none h]; rfl
  | some parent => rw [pushEffect_of_some h]; rfl

@[simp] theorem generators_pushEffect : (r.pushEffect change owner).1.generators = r.generators := by
  cases h : owner.filter fun c => decide (c.index < r.calls.size) with
  | none => rw [pushEffect_of_none h]; rfl
  | some parent => rw [pushEffect_of_some h]; rfl

end PushEffect

end Recording

end Reenact
