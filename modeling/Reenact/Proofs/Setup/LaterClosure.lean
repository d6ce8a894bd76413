import Reenact.Proofs.Recording.Continuing
import Reenact.Proofs.Setup.Extent

/-!
# Closures of recordings that go on

When a recording goes on after a call has ended, the closure of the call is worked out from a later
state of everything that it was worked out from before. The call itself has not changed, and neither
have the side effects that may have shaped it, nor the parts of objects. But an instance may have got
its constructor call since, and a generator its activation.

**The law** (`Replans.closure_eq`): where this has happened to no object of the closure (`MakersStay`),
the closure is the same.
-/

namespace Reenact

namespace Recording

variable {r s : Recording} {a b : CallId} {c d : Call}

/-! ## Calls inside a call -/

/-- What is inside a call that has ended has ended no later. -/
theorem Sound.ended_of_inside (h : r.Sound) (inside : r.Inside a b) (found : r.call? a = some c)
    {done : Moment} (ended : c.completedAt = some done) :
    ∃ d left, r.call? b = some d ∧ d.completedAt = some left ∧ left.tick ≤ done.tick := by
  induction inside with
  | refl => exact ⟨c, done, found, ended, Nat.le_refl _⟩
  | tail _ edge ih =>
    obtain ⟨d, left, there, leaves, le⟩ := ih
    obtain ⟨d', there', sub⟩ := edge
    rw [there] at there'
    cases there'
    obtain ⟨e, below, -, -, stops⟩ := (h.calls there).2.subcalls _ sub
    obtain ⟨left', leaves', before⟩ := stops left leaves
    rw [Moment.before_iff] at before
    exact ⟨e, left', below, leaves', by omega⟩

namespace Continues

/-- What was inside a call stays inside it. -/
theorem inside (goes : r.Continues s) (h : r.Inside a b) : s.Inside a b := by
  refine Relation.ReflTransGen.mono (fun x y edge => ?_) _ _ h
  obtain ⟨c, found, sub⟩ := edge
  obtain ⟨d, found', same⟩ := goes.calls found
  exact ⟨d, found', same.subcalls.subset sub⟩

/-- What is inside a call and was there before was inside it before. -/
theorem inside_of_le (goes : r.Continues s) (later : s.Sound) (h : s.Inside a b)
    (found : s.call? b = some d) (le : d.moment.tick ≤ r.lastMoment.tick) : r.Inside a b := by
  induction h generalizing d with
  | refl => exact .refl
  | @tail x y _ edge ih =>
    obtain ⟨e, middle, sub⟩ := edge
    obtain ⟨d', found', -, after, -⟩ := (later.calls middle).2.subcalls _ sub
    rw [found] at found'
    cases found'
    rw [Moment.before_iff] at after
    have le' : e.moment.tick ≤ r.lastMoment.tick := by omega
    obtain ⟨c, middle', same⟩ := goes.call?_of_le middle le'
    obtain ⟨known, there, -⟩ := goes.call?_of_le found le
    exact .tail (ih middle le') ⟨c, middle', (same.subcalls.mem_iff (.of_call? there)).1 sub⟩

end Continues

end Recording

namespace Setup

open Recording

variable {r s : Recording} {id : CallId} {c : Call} {W : Set ObjectId} {I : Set EffectId}

/-! ## The side effects that may have shaped a call -/

/-- A side effect that was there before belonged to the calls that it belongs to now. -/
theorem isOwnedInside_iff_of_continues (past : r.Sound) (later : s.Sound) (goes : r.Continues s)
    {e : Effect} (found : r.effect? e.id = some e) :
    IsOwnedInside s id e.id ↔ IsOwnedInside r id e.id := by
  constructor
  · rintro ⟨x, d, inside, there, owned⟩
    obtain ⟨e', found', after, -⟩ := (later.calls there).2.effects _ owned
    rw [goes.effects found] at found'
    cases found'
    have stamped : r.momentOf (.effect e.id) = some e.moment := by rw [momentOf, found]; rfl
    have bounded := past.chronological.bounded stamped
    rw [Moment.before_iff] at after
    have le : d.moment.tick ≤ r.lastMoment.tick := by omega
    obtain ⟨d', there', same⟩ := goes.call?_of_le there le
    exact ⟨x, d', goes.inside_of_le later inside there le, there',
      (same.effects.mem_iff (.of_effect? found)).1 owned⟩
  · rintro ⟨x, d, inside, there, owned⟩
    obtain ⟨d', there', same⟩ := goes.calls there
    exact ⟨x, d', goes.inside inside, there', same.effects.subset owned⟩

/-- The outermost call around a call stays the same. -/
theorem outermost_eq_of_continues (past : r.Sound) (goes : r.Continues s) (known : r.HasCall id) :
    outermost s id = outermost r id := by
  fun_induction outermost r id with
  | case1 id missing =>
    obtain ⟨c, found⟩ := known
    rw [missing] at found
    cases found
  | case2 id c found outer =>
    obtain ⟨d, found', same⟩ := goes.calls found
    rw [outermost]
    simp only [found', same.caller, outer]
  | case3 id c found caller eq lt ih =>
    obtain ⟨d, found', same⟩ := goes.calls found
    rw [outermost]
    simp only [found', same.caller, eq, if_pos lt]
    exact ih (hasCall_iff.2 (Nat.lt_trans lt (hasCall_iff.1 known)))
  | case4 id c found caller eq notOlder =>
    obtain ⟨rfl, sound⟩ := past.calls found
    exact absurd (sound.caller caller eq) notOlder

/-- What may have shaped a call that has ended was seen before it ended. -/
theorem MayShape.before_end (h : r.Sound) (found : r.call? c.id = some c) {done : Moment}
    (ended : c.completedAt = some done) {e : Effect} (shapes : MayShape r c e) :
    e.moment.before done := by
  obtain ⟨recorded, ⟨-, before⟩ | ⟨top, -, -, before⟩ | ⟨x, d, inside, there, owned⟩⟩ := shapes
  · exact before done ended
  · have lasted := (h.calls found).2.ended done ended
    rw [Moment.before_iff] at before lasted ⊢
    omega
  · obtain ⟨d', left, there', leaves, le⟩ := h.ended_of_inside inside found ended
    rw [there] at there'
    cases there'
    obtain ⟨e', recorded', -, stops⟩ := (h.calls there).2.effects _ owned
    rw [recorded] at recorded'
    cases recorded'
    have before := stops left leaves
    rw [Moment.before_iff] at before ⊢
    omega

/-- What may have shaped a call that has ended stays the same. -/
theorem mayShape_iff_of_continues (past : r.Sound) (later : s.Sound) (goes : r.Continues s)
    (found : r.call? c.id = some c) {done : Moment} (ended : c.completedAt = some done) {e : Effect} :
    MayShape s c e ↔ MayShape r c e := by
  have found' : s.call? c.id = some c :=
    goes.call?_of_ended found (by rw [ended]; exact Option.some_ne_none _)
  have same (there : r.effect? e.id = some e) :
      IsCandidate s c.id c e ↔ IsCandidate r c.id c e := by
    simp only [IsCandidate, there, goes.effects there, true_and,
      isOwnedInside_iff_of_continues past later goes there,
      outermost_eq_of_continues past goes (.of_call? found),
      goes.rootEffects.mem_iff (.of_effect? there)]
  rw [mayShape_iff later (.of_call? found'), mayShape_iff past (.of_call? found)]
  constructor
  · intro candidate
    have shapes := (mayShape_iff later (.of_call? found')).2 candidate
    have before := shapes.before_end later found' ended
    have stamped : r.momentOf (.completion c.id) = some done := by
      rw [momentOf, found, Option.bind_some, ended]
    have bounded := past.chronological.bounded stamped
    rw [Moment.before_iff] at before
    exact (same (goes.effect?_of_le candidate.1 (by omega))).1 candidate
  · intro candidate
    exact (same candidate.1).2 candidate

/-! ## What a call ended with -/

/-- Objects keep their parts and their moments. -/
theorem exists_object_of_continues (goes : r.Continues s) {x : ObjectId} {o : Object}
    (found : r.object? x = some o) : ∃ o', s.object? x = some o' ∧ o'.id = o.id ∧
      o'.moment = o.moment ∧ o'.parts = o.parts ∧ o.kind.Becomes o'.kind := by
  obtain ⟨kind, found', becomes⟩ := goes.objects found
  exact ⟨_, found', rfl, rfl, becomes.parts, becomes⟩

theorem latePart_iff_of_continues (goes : r.Continues s) {m : Moment} {x y : ObjectId}
    (known : r.HasObject x) : LatePart s m x y ↔ LatePart r m x y := by
  obtain ⟨o, found⟩ := known
  obtain ⟨o', found', -, moment, parts, -⟩ := exists_object_of_continues goes found
  simp only [LatePart, found, found', Option.some.injEq, exists_eq_left', moment, parts]

/-- The parts that are met are the same, since parts of what was there were there. -/
theorem lateParts_iff_of_continues (past : r.Sound) (goes : r.Continues s) {m : Moment}
    {x y : ObjectId} (known : r.HasObject x) :
    (Relation.ReflTransGen (LatePart s m) x y ↔ Relation.ReflTransGen (LatePart r m) x y) ∧
      (Relation.ReflTransGen (LatePart r m) x y → r.HasObject y) := by
  have inside {y : ObjectId} (path : Relation.ReflTransGen (LatePart r m) x y) : r.HasObject y := by
    induction path with
    | refl => exact known
    | tail _ edge _ =>
      obtain ⟨o, found, -, part⟩ := edge
      exact ((past.objects found).2.parts _ part).hasObject
  refine ⟨⟨fun path => ?_, fun path => ?_⟩, inside⟩
  · induction path with
    | refl => exact .refl
    | tail _ edge ih => exact .tail ih ((latePart_iff_of_continues goes (inside ih)).1 edge)
  · induction path with
    | refl => exact .refl
    | tail path edge ih => exact .tail ih ((latePart_iff_of_continues goes (inside path)).2 edge)

/-- What was there before a call in what it ended with stays the same. -/
theorem isOldPart_iff_of_continues (past : r.Sound) (goes : r.Continues s)
    (found : r.call? c.id = some c) {x : ObjectId} : IsOldPart s c x ↔ IsOldPart r c x := by
  refine exists_congr fun outcome => and_congr_right fun ended => ?_
  have known := ((past.calls found).2.outcome outcome ended).1
  obtain ⟨same, inside⟩ := lateParts_iff_of_continues past goes (m := c.moment) (y := x) known
  rw [same]
  refine and_congr_right fun path => ?_
  obtain ⟨o, there⟩ := inside path
  obtain ⟨o', there', -, moment, -⟩ := exists_object_of_continues goes there
  simp only [HasOlder, there, there', Option.some.injEq, exists_eq_left', moment]

/-! ## Ingredients -/

/-- Objects are made again from the same things, apart from their parts. -/
structure MadeAlike (r s : Recording) (o o' : Object) : Prop where
  constructorInputs : constructorInputs s o' = constructorInputs r o
  activationArguments : activationArguments o' = activationArguments o
  activationOwner : activationOwner o' = activationOwner o

/-- An instance keeps its constructor call, with its arguments. -/
theorem constructorInputs_eq_of_continues (goes : r.Continues s) {o o' : Object} {cls cls' : ClassId}
    {init : CallId} {uses uses' : List Use} (kind : o.kind = .user cls (some init) uses)
    (kind' : o'.kind = .user cls' (some init) uses') (known : r.HasCall init) :
    constructorInputs s o' = constructorInputs r o := by
  obtain ⟨c, found⟩ := known
  obtain ⟨d, found', same⟩ := goes.calls found
  simp only [constructorInputs, constructorCall?, kind, kind', found, found', Option.toList_some,
    List.flatMap_singleton, same.input]

/-- An object with neither constructor call nor activation is made again from its parts alone. -/
theorem lateIngredients_eq_nil {o : Object} (call : constructorCall? r o = none)
    (activation : o.kind.activation? = none) : lateIngredients r o = [] := by
  rw [lateIngredients, constructorInputs, activationArguments, activationOwner, call, activation]
  rfl

/-- An object is made again from what it was made again from before, unless that was nothing but its
parts. -/
theorem madeAlike_or_of_continues (past : r.Sound) (goes : r.Continues s) {x : ObjectId}
    {o o' : Object} (found : r.object? x = some o) (becomes : o.kind.Becomes o'.kind) :
    lateIngredients r o = [] ∨ MadeAlike r s o o' := by
  have callRefs := (past.objects found).2.callRefs
  generalize kind : o.kind = before at becomes callRefs
  generalize kind' : o'.kind = after at becomes
  have constructed {cls : ClassId} {init : CallId} {uses uses' : List Use}
      (eq : before = .user cls (some init) uses) (eq' : after = .user cls (some init) uses') :
      MadeAlike r s o o' := by
    subst eq eq'
    have known := callRefs init (List.mem_append_left _ (Option.mem_toList.2 rfl))
    refine ⟨constructorInputs_eq_of_continues goes kind kind' known, ?_, ?_⟩
    · simp only [activationArguments, kind, kind', ObjectKind.activation?]
    · simp only [activationOwner, kind, kind', ObjectKind.activation?]
  cases becomes with
  | same =>
    cases before with
    | user cls init uses =>
      cases init with
      | none => exact .inl (lateIngredients_eq_nil (by rw [constructorCall?, kind]) (by rw [kind]; rfl))
      | some init => exact .inr (constructed rfl rfl)
    | immutable | sequence | map | exception | library | unknown | generator =>
      refine .inr ⟨?_, ?_, ?_⟩
      · simp only [constructorInputs, constructorCall?, kind, kind']
      · simp only [activationArguments, kind, kind']
      · simp only [activationOwner, kind, kind']
  | @used cls init init' uses uses' kept =>
    cases init with
    | none => exact .inl (lateIngredients_eq_nil (by rw [constructorCall?, kind]) (by rw [kind]; rfl))
    | some init =>
      obtain rfl := kept (Option.some_ne_none _)
      exact .inr (constructed rfl rfl)
  | @resumed activation activation' calls calls' kept =>
    cases activation with
    | none => exact .inl (lateIngredients_eq_nil (by rw [constructorCall?, kind]) (by rw [kind]; rfl))
    | some activation =>
      obtain rfl := kept (Option.some_ne_none _)
      refine .inr ⟨?_, ?_, ?_⟩
      · simp only [constructorInputs, constructorCall?, kind, kind']
      · simp only [activationArguments, kind, kind', ObjectKind.activation?]
      · simp only [activationOwner, kind, kind', ObjectKind.activation?]

theorem MadeAlike.lateIngredients {o o' : Object} (alike : MadeAlike r s o o') :
    lateIngredients s o' = lateIngredients r o := by
  rw [Setup.lateIngredients, alike.constructorInputs, alike.activationArguments,
    alike.activationOwner, Setup.lateIngredients]

/-- What an object was made again from it is made again from later on. -/
theorem ingredients_subset_of_continues (past : r.Sound) (goes : r.Continues s) {x : ObjectId}
    {o o' : Object} (found : r.object? x = some o) (becomes : o.kind.Becomes o'.kind) :
    ingredients r o ⊆ ingredients s o' := by
  have parts : o'.parts = o.parts := becomes.parts
  rw [ingredients, ingredients, parts]
  refine List.append_subset.2 ⟨List.subset_append_left _ _, ?_⟩
  rcases madeAlike_or_of_continues past goes found becomes with none | alike
  · rw [none]
    exact List.nil_subset _
  · rw [alike.lateIngredients]
    exact List.subset_append_right _ _

/-! ## The least sets -/

/-- What is closed in a later recording was closed before. -/
theorem IsClosed.earlier (past : r.Sound) (later : s.Sound) (goes : r.Continues s)
    (found : r.call? c.id = some c) {done : Moment} (ended : c.completedAt = some done)
    (closed : IsClosed s [c] W I) : IsClosed r [c] W I where
  starts := closed.starts
  outcome d subject x old := by
    obtain rfl := List.mem_singleton.1 subject
    exact closed.outcome d subject x ((isOldPart_iff_of_continues past goes found).2 old)
  ingredients x mem o there y made := by
    obtain ⟨o', there', -, -, -, becomes⟩ := exists_object_of_continues goes there
    have still : y ∈ Setup.ingredients s o' :=
      ingredients_subset_of_continues past goes there becomes made
    exact closed.ingredients x mem o' there' y still
  effects d subject e shapes := by
    obtain rfl := List.mem_singleton.1 subject
    exact closed.effects d subject e
      ((mayShape_iff_of_continues past later goes found ended).2 shapes)
  referenced y mem e recorded := closed.referenced y mem e (goes.effects recorded)

/-- What was closed is closed in a later recording, if its members are objects and side effects that
were there before and are made again from the same things. -/
theorem IsClosed.later (past : r.Sound) (later : s.Sound) (goes : r.Continues s)
    (found : r.call? c.id = some c) {done : Moment} (ended : c.completedAt = some done)
    (objects : ∀ x ∈ W, r.HasObject x) (effects : ∀ y ∈ I, r.HasEffect y)
    (stay : ∀ x ∈ W, ∀ o o', r.object? x = some o → s.object? x = some o' →
      lateIngredients s o' = lateIngredients r o)
    (closed : IsClosed r [c] W I) : IsClosed s [c] W I where
  starts := closed.starts
  outcome d subject x old := by
    obtain rfl := List.mem_singleton.1 subject
    exact closed.outcome d subject x ((isOldPart_iff_of_continues past goes found).1 old)
  ingredients x mem o' there' y made := by
    obtain ⟨o, there⟩ := objects x mem
    obtain ⟨o'', there'', -, -, parts, -⟩ := exists_object_of_continues goes there
    rw [there'] at there''
    obtain rfl := Option.some.inj there''
    rw [Setup.ingredients, parts, stay x mem o o' there there'] at made
    exact closed.ingredients x mem o there y made
  effects d subject e shapes := by
    obtain rfl := List.mem_singleton.1 subject
    exact closed.effects d subject e
      ((mayShape_iff_of_continues past later goes found ended).1 shapes)
  referenced y mem e recorded := by
    obtain ⟨e', recorded'⟩ := effects y mem
    rw [goes.effects recorded'] at recorded
    obtain rfl := Option.some.inj recorded
    exact closed.referenced y mem e' recorded'

/-! ## The closure -/

/-- Entries stay in order when a recording grows. -/
theorem Precedes.mono (grows : r.Grows s) {a b : Entry} (h : Precedes r a b) : Precedes s a b := by
  have same {e : Entry} {m : Moment} (stamped : e.moment r = .ok m) : e.moment s = .ok m := by
    cases e with
    | object x =>
      obtain ⟨o, found, rfl⟩ := map_eq_ok.1 stamped
      obtain ⟨o', found', moment⟩ := grows.objects (object_eq_ok.1 found)
      exact map_eq_ok.2 ⟨o', object_eq_ok.2 found', moment⟩
    | effect y =>
      obtain ⟨e, found, rfl⟩ := map_eq_ok.1 stamped
      exact map_eq_ok.2 ⟨e, effect_eq_ok.2 (grows.effects (effect_eq_ok.1 found)), rfl⟩
    | grown list =>
      obtain ⟨o, found, rfl⟩ := map_eq_ok.1 stamped
      obtain ⟨o', found', moment⟩ := grows.objects (object_eq_ok.1 found)
      exact map_eq_ok.2 ⟨o', object_eq_ok.2 found', moment⟩
  obtain ⟨m, n, first, second, before⟩ := h
  exact ⟨m, n, same first, same second, before⟩

/-- The objects of a closure are made again from the same things in another recording. -/
def MakersStay (r s : Recording) (plan : Plan) : Prop :=
  ∀ x o o', .object x ∈ plan.closure → r.object? x = some o → s.object? x = some o' →
    lateIngredients s o' = lateIngredients r o

/-- A call has just ended in a recording that has gone on since, and has a plan in both. The objects of
the closure are made again from the same things. -/
structure Replans (r s : Recording) (c : Call) (objects objects' : List Object)
    (effects effects' : List Effect) (plan plan' : Plan) : Prop where
  past : r.Sound
  later : s.Sound
  goes : r.Continues s
  found : r.call? c.id = some c
  /-- Nothing was recorded after the call has ended. -/
  ended : c.completedAt = some r.lastMoment
  isPlan : IsPlanOf r [c] objects effects plan
  isPlan' : IsPlanOf s [c] objects' effects' plan'
  stay : MakersStay r s plan

namespace Replans

variable {objects objects' : List Object} {effects effects' : List Effect} {plan plan' : Plan}

/-- A plan that is made when the call has just ended lists its whole working set. -/
theorem object_mem_closure (h : Replans r s c objects objects' effects effects' plan plan')
    {x : ObjectId} : .object x ∈ plan.closure ↔ ∃ o ∈ objects, o.id = x := by
  rw [h.isPlan.object_mem_closure]
  refine exists_congr fun o => and_congr_right fun listed => and_iff_right ?_
  refine ⟨c, List.mem_singleton.2 rfl, fun done ended => ?_⟩
  rw [h.ended] at ended
  obtain rfl := Option.some.inj ended
  have stamped : r.momentOf (.object o.id) = some o.moment := by
    rw [momentOf, h.isPlan.recorded.made o listed]
    rfl
  have last : r.momentOf (.completion c.id) = some r.lastMoment := by
    rw [momentOf, h.found, Option.bind_some, h.ended]
  have bounded := h.past.chronological.bounded stamped
  rw [Moment.before_iff]
  refine Nat.lt_of_le_of_ne bounded fun same => ?_
  have moments : o.moment = r.lastMoment := congrArg Moment.mk same
  cases h.past.chronological.distinct (moments ▸ stamped) last

/-- The working set and the side effects are the same. -/
theorem sets_eq (h : Replans r s c objects objects' effects effects' plan plan') :
    {x | ∃ o ∈ objects', o.id = x} = {x | ∃ o ∈ objects, o.id = x} ∧
      {y | ∃ e ∈ effects', e.id = y} = {y | ∃ e ∈ effects, e.id = y} := by
  have earlier := h.isPlan'.least.1.earlier h.past h.later h.goes h.found h.ended
  have later := h.isPlan.least.1.later h.past h.later h.goes h.found h.ended
    (by rintro x ⟨o, listed, rfl⟩; exact ⟨o, h.isPlan.recorded.made o listed⟩)
    (by rintro y ⟨e, listed, rfl⟩; exact ⟨e, h.isPlan.recorded.repeated e listed⟩)
    (fun x mem o o' there there' => h.stay x o o' (h.object_mem_closure.2 mem) there there')
  have below := h.isPlan.least.2 (show (_, _) ∈ _ from earlier)
  have above := h.isPlan'.least.2 (show (_, _) ∈ _ from later)
  exact ⟨Set.Subset.antisymm above.1 below.1, Set.Subset.antisymm above.2 below.2⟩

/-- **The closure** is the same. -/
theorem closure_eq (h : Replans r s c objects objects' effects effects' plan plan') :
    plan'.closure = plan.closure := by
  obtain ⟨objects_eq, effects_eq⟩ := h.sets_eq
  have ordered := (h.isPlan.closure_ordered h.past).imp (Precedes.mono h.goes.grows)
  refine (h.isPlan'.closure_ordered h.later).eq_of_mem_iff ordered fun entry => ?_
  rw [h.isPlan'.mem_closure_iff, h.isPlan.mem_closure_iff, objects_eq, effects_eq]
  constructor
  · rintro (⟨⟨o, listed, rfl⟩, there, inTime⟩ | ⟨⟨e, listed, rfl⟩, there, inTime⟩)
    · have made := h.isPlan.recorded.made o listed
      obtain ⟨o', there', -, moment, -⟩ := exists_object_of_continues h.goes made
      rw [there] at there'
      rw [Option.some.inj there', moment] at inTime
      exact .object ⟨o, listed, rfl⟩ made inTime
    · have repeated := h.isPlan.recorded.repeated e listed
      rw [h.goes.effects repeated] at there
      exact .effect ⟨e, listed, rfl⟩ repeated (Option.some.inj there ▸ inTime)
  · rintro (⟨mem, there, inTime⟩ | ⟨mem, there, inTime⟩)
    · obtain ⟨o', there', -, moment, -⟩ := exists_object_of_continues h.goes there
      exact .object mem there' (moment ▸ inTime)
    · exact .effect mem (h.goes.effects there) inTime

end Replans

end Setup

end Reenact
