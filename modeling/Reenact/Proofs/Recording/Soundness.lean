import Reenact.Proofs.Recording.Chronology

/-!
# Sound recordings

Objects, calls and side effects refer to one another by number. In a sound recording every number
stands for something, and what a thing was made from is older than the thing: the parts of an object
than the object, what a call starts from than the call, the outcome of a call that ended than its
end, and what a side effect refers to than the effect. Calls nest: the subcalls of a call ran inside
it and one after the other, and its effects happened while it ran.

`Sound.step` is the induction step that all changes share: old entries stay sound because a
recording only grows (`Grows`), so a change has to account for the entries that it adds or rewrites
and for nothing else. What a change needs of the state it starts from is a hypothesis of its lemma:
a call may end only when its subcalls have, and only a call that has not ended may get another
subcall, effect or outcome. The stack of running calls supplies these
(`Reenact.Proofs.Trace.Nesting`).
-/

namespace Reenact

/-- The objects that an object refers to apart from its parts: the generators that its methods made,
or the arguments and the maker of the generator that it is. -/
def ObjectKind.objectRefs : ObjectKind → List ObjectId
  | .user _ _ uses => uses.filterMap fun
    | .generator id => some id
    | .call _ => none
  | .generator (some activation) _ =>
    activation.args.values ++
      match activation.maker with
      | .userObject owner => [owner]
      | .function _ => []
  | _ => []

/-- The calls that an object refers to: its constructor call and the calls of its methods, or its
resumptions. -/
def ObjectKind.callRefs : ObjectKind → List CallId
  | .user _ initCall uses => initCall.toList ++ uses.filterMap fun
    | .call id => some id
    | .generator _ => none
  | .generator _ calls => calls
  | _ => []

/-- What a call starts from: its arguments, its receiver, and the generator that it resumes. -/
def Call.startsFrom (c : Call) : List ObjectId :=
  c.input.values ++ c.receiver.toList ++ c.generator.toList

namespace Recording

/-- The object is part of the recording, and older than the moment. -/
def HasOlder (r : Recording) (id : ObjectId) (m : Moment) : Prop :=
  ∃ o, r.object? id = some o ∧ o.moment.before m

/-- The call is part of the recording, and has ended. -/
def HasEnded (r : Recording) (id : CallId) : Prop :=
  ∃ c done, r.call? id = some c ∧ c.completedAt = some done

/-- What an object refers to is there, and its parts are older than it is. -/
structure ObjectSound (r : Recording) (o : Object) : Prop where
  parts : ∀ id ∈ o.parts, r.HasOlder id o.moment
  objectRefs : ∀ id ∈ o.kind.objectRefs, r.HasObject id
  callRefs : ∀ id ∈ o.kind.callRefs, r.HasCall id

/-- What a call refers to is there; it started after what it starts from, and all that belongs to it
happened between its start and its end, its subcalls one after the other. -/
structure CallSound (r : Recording) (c : Call) : Prop where
  starts : ∀ id ∈ c.startsFrom, r.HasOlder id c.moment
  outcome : ∀ outcome, c.outcome = some outcome →
    r.HasObject outcome.object ∧ ∀ done, c.completedAt = some done → r.HasOlder outcome.object done
  caller : ∀ parent, c.caller = some parent → parent.index < c.id.index
  effects : ∀ id ∈ c.effects, ∃ e, r.effect? id = some e ∧ c.moment.before e.moment ∧
    ∀ done, c.completedAt = some done → e.moment.before done
  subcalls : ∀ id ∈ c.subcalls, ∃ d, r.call? id = some d ∧ d.caller = some c.id ∧
    c.moment.before d.moment ∧
    ∀ done, c.completedAt = some done → ∃ left, d.completedAt = some left ∧ left.before done
  siblings : c.subcalls.Pairwise fun a b => ∃ first second left, r.call? a = some first ∧
    r.call? b = some second ∧ first.completedAt = some left ∧ left.before second.moment
  ended : ∀ done, c.completedAt = some done → c.moment.before done

/-- What a side effect refers to is older than it is, and is what its change refers to. -/
structure EffectSound (r : Recording) (e : Effect) : Prop where
  referenced : ∀ id ∈ e.referenced, r.HasOlder id e.moment
  ofChange : e.affected = e.change.affected ∧ e.referenced = e.change.referenced

/-- What the lists of a recording name is part of it. -/
structure Listed (r : Recording) : Prop where
  known : ∀ entry ∈ r.known, r.HasObject entry.2
  generators : ∀ entry ∈ r.generators, r.HasObject entry.1
  captured : ∀ id ∈ r.captured, r.HasCall id
  roots : ∀ id ∈ r.roots, r.HasCall id
  rootEffects : ∀ id ∈ r.rootEffects, r.HasEffect id

/-- A recording in which every reference stands for something older, and calls nest. -/
structure Sound (r : Recording) : Prop where
  chronological : r.Chronological
  objects : ∀ {id o}, r.object? id = some o → o.id = id ∧ r.ObjectSound o
  calls : ∀ {id c}, r.call? id = some c → c.id = id ∧ r.CallSound c
  effects : ∀ {id e}, r.effect? id = some e → e.id = id ∧ r.EffectSound e
  listed : r.Listed

/-! ## Growth -/

/-- All that a recording holds is still there, at the same moments, and calls that had ended ended
when they did. -/
structure Grows (r s : Recording) : Prop where
  objects : ∀ {id o}, r.object? id = some o → ∃ o', s.object? id = some o' ∧ o'.moment = o.moment
  calls : ∀ {id c}, r.call? id = some c → ∃ c', s.call? id = some c' ∧ c'.moment = c.moment ∧
    c'.caller = c.caller ∧ ∀ done, c.completedAt = some done → c'.completedAt = some done
  effects : ∀ {id e}, r.effect? id = some e → s.effect? id = some e

/-- Every call is still there, with the same start, caller and end. -/
structure KeepsCalls (r s : Recording) : Prop where
  call : ∀ {id c}, r.call? id = some c → ∃ c', s.call? id = some c' ∧ c'.moment = c.moment ∧
    c'.caller = c.caller ∧ c'.completedAt = c.completedAt

variable {r s t : Recording}

/-- A recording that keeps its objects, calls and side effects grows. -/
theorem Grows.of_keeps (objects : s.objects = r.objects) (calls : r.KeepsCalls s)
    (effects : ∀ {id e}, r.effect? id = some e → s.effect? id = some e) : r.Grows s where
  objects found := ⟨_, by rw [object?, objects]; exact found, rfl⟩
  calls found := by
    obtain ⟨c', found', moment, caller, done⟩ := calls.call found
    exact ⟨c', found', moment, caller, fun _ ended => done.trans ended⟩
  effects := effects

theorem Grows.refl (r : Recording) : r.Grows r :=
  ⟨fun found => ⟨_, found, rfl⟩, fun found => ⟨_, found, rfl, rfl, fun _ ended => ended⟩,
    fun found => found⟩

theorem Grows.trans (first : r.Grows s) (second : s.Grows t) : r.Grows t where
  objects found := by
    obtain ⟨o, found, moment⟩ := first.objects found
    obtain ⟨o', found', moment'⟩ := second.objects found
    exact ⟨o', found', moment'.trans moment⟩
  calls found := by
    obtain ⟨c, found, moment, caller, stays⟩ := first.calls found
    obtain ⟨c', found', moment', caller', stays'⟩ := second.calls found
    exact ⟨c', found', moment'.trans moment, caller'.trans caller,
      fun done ended => stays' done (stays done ended)⟩
  effects found := second.effects (first.effects found)

theorem momentOf_start_new (r : Recording) : r.momentOf (.start ⟨r.calls.size⟩) = none := by
  simp [Recording.momentOf, call?]

theorem momentOf_start_of_hasCall {id : CallId} (known : r.HasCall id) :
    (r.momentOf (.start id)).isSome = true := by
  obtain ⟨c, found⟩ := known
  simp only [Recording.momentOf, found, Option.map_some, Option.isSome_some]

theorem momentOf_completion_of_running {id : CallId} {c : Call} (found : r.call? id = some c)
    (running : c.completedAt = none) : r.momentOf (.completion id) = none := by
  simp only [Recording.momentOf, found, Option.bind_some, running]

theorem momentOf_completion_of_hasEnded {id : CallId} (ended : r.HasEnded id) :
    (r.momentOf (.completion id)).isSome = true := by
  obtain ⟨c, done, found, completed⟩ := ended
  simp only [Recording.momentOf, found, Option.bind_some, completed, Option.isSome_some]

/-- What was stamped stays stamped, at the same moment. -/
theorem Grows.momentOf (grows : r.Grows s) {f : Fact} {m : Moment} (h : r.momentOf f = some m) :
    s.momentOf f = some m := by
  cases f with
  | object id =>
    obtain ⟨o, found, rfl⟩ := Option.map_eq_some_iff.1 h
    obtain ⟨o', found', same⟩ := grows.objects found
    simp only [Recording.momentOf, found', Option.map_some, same]
  | start id =>
    obtain ⟨c, found, rfl⟩ := Option.map_eq_some_iff.1 h
    obtain ⟨c', found', same, -⟩ := grows.calls found
    simp only [Recording.momentOf, found', Option.map_some, same]
  | completion id =>
    obtain ⟨c, found, ended⟩ := Option.bind_eq_some_iff.1 h
    obtain ⟨c', found', -, -, stays⟩ := grows.calls found
    simp only [Recording.momentOf, found', Option.bind_some, stays m ended]
  | effect id =>
    obtain ⟨e, found, rfl⟩ := Option.map_eq_some_iff.1 h
    simp only [Recording.momentOf, grows.effects found, Option.map_some]

theorem HasOlder.hasObject {id : ObjectId} {m : Moment} (h : r.HasOlder id m) : r.HasObject id :=
  h.imp fun _ found => found.1

theorem HasOlder.mono {id : ObjectId} {m : Moment} (grows : r.Grows s) (h : r.HasOlder id m) :
    s.HasOlder id m := by
  obtain ⟨o, found, older⟩ := h
  obtain ⟨o', found', same⟩ := grows.objects found
  exact ⟨o', found', same ▸ older⟩

theorem HasObject.mono {id : ObjectId} (grows : r.Grows s) (h : r.HasObject id) :
    s.HasObject id := by
  obtain ⟨o, found⟩ := h
  obtain ⟨o', found', -⟩ := grows.objects found
  exact ⟨o', found'⟩

theorem HasCall.mono {id : CallId} (grows : r.Grows s) (h : r.HasCall id) : s.HasCall id := by
  obtain ⟨c, found⟩ := h
  obtain ⟨c', found', -⟩ := grows.calls found
  exact ⟨c', found'⟩

theorem HasEffect.mono {id : EffectId} (grows : r.Grows s) (h : r.HasEffect id) :
    s.HasEffect id := by
  obtain ⟨e, found⟩ := h
  exact ⟨e, grows.effects found⟩

theorem ObjectSound.mono {o : Object} (grows : r.Grows s) (h : r.ObjectSound o) :
    s.ObjectSound o :=
  ⟨fun id mem => (h.parts id mem).mono grows, fun id mem => (h.objectRefs id mem).mono grows,
    fun id mem => (h.callRefs id mem).mono grows⟩

theorem EffectSound.mono {e : Effect} (grows : r.Grows s) (h : r.EffectSound e) :
    s.EffectSound e :=
  ⟨fun id mem => (h.referenced id mem).mono grows, h.ofChange⟩

theorem CallSound.mono {c : Call} (grows : r.Grows s) (h : r.CallSound c) : s.CallSound c where
  starts id mem := (h.starts id mem).mono grows
  outcome outcome eq :=
    ⟨(h.outcome outcome eq).1.mono grows,
      fun done ended => ((h.outcome outcome eq).2 done ended).mono grows⟩
  caller := h.caller
  effects id mem := by
    obtain ⟨e, found, rest⟩ := h.effects id mem
    exact ⟨e, grows.effects found, rest⟩
  subcalls id mem := by
    obtain ⟨d, found, caller, later, inside⟩ := h.subcalls id mem
    obtain ⟨d', found', moment, caller', stays⟩ := grows.calls found
    refine ⟨d', found', caller' ▸ caller, moment ▸ later, fun done ended => ?_⟩
    obtain ⟨left, leaves, before⟩ := inside done ended
    exact ⟨left, stays left leaves, before⟩
  siblings := by
    refine h.siblings.imp ?_
    rintro a b ⟨first, second, left, foundA, foundB, leaves, before⟩
    obtain ⟨first', foundA', -, -, stays⟩ := grows.calls foundA
    obtain ⟨second', foundB', moment, -, -⟩ := grows.calls foundB
    exact ⟨first', second', left, foundA', foundB', stays left leaves, moment ▸ before⟩
  ended := h.ended

/-- Lists that a change leaves alone still name what is there. -/
theorem Listed.congr (grows : r.Grows s) (h : r.Listed) (known : s.known = r.known)
    (generators : s.generators = r.generators) (captured : s.captured = r.captured)
    (roots : s.roots = r.roots) (rootEffects : s.rootEffects = r.rootEffects) : s.Listed where
  known entry mem := (h.known entry (known ▸ mem)).mono grows
  generators entry mem := (h.generators entry (generators ▸ mem)).mono grows
  captured id mem := (h.captured id (captured ▸ mem)).mono grows
  roots id mem := (h.roots id (roots ▸ mem)).mono grows
  rootEffects id mem := (h.rootEffects id (rootEffects ▸ mem)).mono grows

/-- A change keeps a recording sound when the entries that it adds or rewrites are sound. -/
theorem Sound.step (h : r.Sound) (grows : r.Grows s) (chronological : s.Chronological)
    (objects : ∀ {id o}, s.object? id = some o →
      r.object? id = some o ∨ o.id = id ∧ s.ObjectSound o)
    (calls : ∀ {id c}, s.call? id = some c → r.call? id = some c ∨ c.id = id ∧ s.CallSound c)
    (effects : ∀ {id e}, s.effect? id = some e →
      r.effect? id = some e ∨ e.id = id ∧ s.EffectSound e)
    (listed : s.Listed) : s.Sound where
  chronological := chronological
  objects found := by
    rcases objects found with old | new
    · exact ⟨(h.objects old).1, (h.objects old).2.mono grows⟩
    · exact new
  calls found := by
    rcases calls found with old | new
    · exact ⟨(h.calls old).1, (h.calls old).2.mono grows⟩
    · exact new
  effects found := by
    rcases effects found with old | new
    · exact ⟨(h.effects old).1, (h.effects old).2.mono grows⟩
    · exact new
  listed := listed

theorem sound_empty (id : RunId) : (empty id).Sound where
  chronological := chronological_empty id
  objects found := by simp [object?, empty] at found
  calls found := by simp [call?, empty] at found
  effects found := by simp [effect?, empty] at found
  listed := by constructor <;> simp [empty]

/-! ## What was stamped is before the next tick -/

theorem Sound.object_before_next (h : r.Sound) {id : ObjectId} {o : Object}
    (found : r.object? id = some o) : o.moment.before r.nextMoment := by
  have := h.chronological.bounded (f := .object id) (m := o.moment) (by simp [momentOf, found])
  simpa using Nat.lt_succ_of_le this

theorem Sound.call_before_next (h : r.Sound) {id : CallId} {c : Call}
    (found : r.call? id = some c) : c.moment.before r.nextMoment := by
  have := h.chronological.bounded (f := .start id) (m := c.moment) (by simp [momentOf, found])
  simpa using Nat.lt_succ_of_le this

theorem Sound.end_before_next (h : r.Sound) {id : CallId} {c : Call} {done : Moment}
    (found : r.call? id = some c) (ended : c.completedAt = some done) :
    done.before r.nextMoment := by
  have := h.chronological.bounded (f := .completion id) (m := done) (by simp [momentOf, found, ended])
  simpa using Nat.lt_succ_of_le this

theorem Sound.effect_before_next (h : r.Sound) {id : EffectId} {e : Effect}
    (found : r.effect? id = some e) : e.moment.before r.nextMoment := by
  have := h.chronological.bounded (f := .effect id) (m := e.moment) (by simp [momentOf, found])
  simpa using Nat.lt_succ_of_le this

theorem Sound.hasOlder_next (h : r.Sound) {id : ObjectId} (known : r.HasObject id) :
    r.HasOlder id r.nextMoment := by
  obtain ⟨o, found⟩ := known
  exact ⟨o, found, h.object_before_next found⟩

/-! ## Objects -/

theorem grows_pushObject (r : Recording) (v : Value) (kind : ObjectKind) :
    r.Grows (r.pushObject v kind).1 where
  objects {id o} found := by
    have lt : id.index < r.objects.size := hasObject_iff.1 (.of_object? found)
    exact ⟨o, by rw [object?_pushObject, if_neg (Nat.ne_of_lt lt), found], rfl⟩
  calls found := ⟨_, found, rfl, rfl, fun _ ended => ended⟩
  effects found := found

/-- A new object is sound when its parts are there and it refers to nothing else. -/
theorem Sound.pushObject (h : r.Sound) (v : Value) {kind : ObjectKind}
    (parts : ∀ id ∈ kind.parts, r.HasObject id) (objectRefs : kind.objectRefs = [])
    (callRefs : kind.callRefs = []) : (r.pushObject v kind).1.Sound := by
  have grows := grows_pushObject r v kind
  refine h.step grows (h.chronological.stamp (stamps_pushObject ..)) ?_ (fun found => .inl found)
    (fun found => .inl found) (h.listed.congr grows rfl rfl rfl rfl rfl)
  intro id o found
  rw [object?_pushObject] at found
  split at found
  · rename_i same
    cases found
    refine .inr ⟨by cases id; simp_all [newObject], ?_, ?_, ?_⟩
    · intro part mem
      exact (h.hasOlder_next (parts part mem)).mono grows
    · intro part mem
      simp [newObject, objectRefs] at mem
    · intro part mem
      simp [newObject, callRefs] at mem
  · exact .inl found

/-- Changes of the lists alone leave all entries as they are. -/
theorem Sound.relist (h : r.Sound) (clock : s.clock = r.clock) (objects : s.objects = r.objects)
    (calls : s.calls = r.calls) (effects : s.effects = r.effects)
    (listed : r.Grows s → s.Listed) : s.Sound := by
  have object? id : s.object? id = r.object? id := by simp only [Recording.object?, objects]
  have call? id : s.call? id = r.call? id := by simp only [Recording.call?, calls]
  have effect? id : s.effect? id = r.effect? id := by simp only [Recording.effect?, effects]
  have grows : r.Grows s :=
    ⟨fun found => ⟨_, (object? _).trans found, rfl⟩,
      fun found => ⟨_, (call? _).trans found, rfl, rfl, fun _ ended => ended⟩,
      fun found => (effect? _).trans found⟩
  have same : r.SameMoments s :=
    ⟨by rw [lastMoment, clock, lastMoment], fun fact => by
      cases fact <;> simp only [momentOf, object?, call?, effect?]⟩
  exact h.step grows (h.chronological.congr same) (fun found => .inl ((object? _).symm.trans found))
    (fun found => .inl ((call? _).symm.trans found))
    (fun found => .inl ((effect? _).symm.trans found)) (listed grows)

/-- Remembering the object of a handle. -/
theorem Sound.remember (h : r.Sound) (handle : Handle) {id : ObjectId} (known : r.HasObject id) :
    (r.remember handle id).Sound :=
  h.relist rfl rfl rfl rfl fun grows =>
    { known := by
        intro entry mem
        rcases List.mem_cons.1 mem with rfl | mem
        · exact known.mono grows
        · exact (h.listed.known entry mem).mono grows
      generators := fun entry mem => (h.listed.generators entry mem).mono grows
      captured := fun id mem => (h.listed.captured id mem).mono grows
      roots := fun id mem => (h.listed.roots id mem).mono grows
      rootEffects := fun id mem => (h.listed.rootEffects id mem).mono grows }

theorem Sound.listGenerator (h : r.Sound) (v : Value) {id : ObjectId} (known : r.HasObject id) :
    ({ r with generators := r.generators ++ [(id, v)] } : Recording).Sound :=
  h.relist rfl rfl rfl rfl fun grows =>
    { known := fun entry mem => (h.listed.known entry mem).mono grows
      generators := by
        intro entry mem
        rcases List.mem_append.1 mem with mem | mem
        · exact (h.listed.generators entry mem).mono grows
        · obtain rfl := List.mem_singleton.1 mem
          exact known.mono grows
      captured := fun id mem => (h.listed.captured id mem).mono grows
      roots := fun id mem => (h.listed.roots id mem).mono grows
      rootEffects := fun id mem => (h.listed.rootEffects id mem).mono grows }

theorem grows_modifyKind (r : Recording) (id : ObjectId) (f : ObjectKind → ObjectKind) :
    r.Grows (r.modifyKind id f) where
  objects {other o} found := by
    rw [object?_modifyKind]
    split
    · rename_i same
      subst same
      exact ⟨{ o with kind := f o.kind }, by rw [found]; rfl, rfl⟩
    · exact ⟨o, found, rfl⟩
  calls found := ⟨_, found, rfl, rfl, fun _ ended => ended⟩
  effects found := found

/-- A change of what is particular to an object keeps it sound when it leaves the parts alone and
adds only references to what is there. -/
theorem Sound.modifyKind (h : r.Sound) (id : ObjectId) {f : ObjectKind → ObjectKind}
    (parts : ∀ kind, (f kind).parts = kind.parts)
    (objectRefs : ∀ kind, ∀ x ∈ (f kind).objectRefs, x ∈ kind.objectRefs ∨ r.HasObject x)
    (callRefs : ∀ kind, ∀ x ∈ (f kind).callRefs, x ∈ kind.callRefs ∨ r.HasCall x) :
    (r.modifyKind id f).Sound := by
  have grows := grows_modifyKind r id f
  refine h.step grows (h.chronological.congr (sameMoments_modifyKind ..)) ?_ (fun found => .inl found)
    (fun found => .inl found) (h.listed.congr grows rfl rfl rfl rfl rfl)
  intro other o found
  rw [object?_modifyKind] at found
  split at found
  · rename_i same
    subst same
    obtain ⟨old, there, rfl⟩ := Option.map_eq_some_iff.1 found
    obtain ⟨same, sound⟩ := h.objects there
    refine .inr ⟨same, ?_, ?_, ?_⟩
    · intro part mem
      rw [Object.parts, parts] at mem
      exact (sound.parts part mem).mono grows
    · intro x mem
      rcases objectRefs old.kind x mem with mem | known
      · exact (sound.objectRefs x mem).mono grows
      · exact known.mono grows
    · intro x mem
      rcases callRefs old.kind x mem with mem | known
      · exact (sound.callRefs x mem).mono grows
      · exact known.mono grows
  · exact .inl found

/-! ## Calls -/

/-- A change of a call that keeps its place: its number, its start, its caller and its end. -/
structure KeepsPlace (f : Call → Call) : Prop where
  id : ∀ c, (f c).id = c.id
  moment : ∀ c, (f c).moment = c.moment
  caller : ∀ c, (f c).caller = c.caller
  completedAt : ∀ c, (f c).completedAt = c.completedAt

theorem keepsCalls_modifyCall (r : Recording) (id : CallId) {f : Call → Call} (same : KeepsPlace f) :
    r.KeepsCalls (r.modifyCall id f) := by
  constructor
  intro other c found
  rw [call?_modifyCall]
  split
  · rename_i eq
    subst eq
    exact ⟨f c, by rw [found]; rfl, same.moment c, same.caller c, same.completedAt c⟩
  · exact ⟨c, found, rfl, rfl, rfl⟩

/-- A change of a call keeps a recording sound when the call stays sound and keeps its place. -/
theorem Sound.modifyCall (h : r.Sound) (id : CallId) {f : Call → Call} (same : KeepsPlace f)
    (sound : ∀ c, r.call? id = some c → r.CallSound c → r.CallSound (f c)) :
    (r.modifyCall id f).Sound := by
  have grows : r.Grows (r.modifyCall id f) :=
    .of_keeps rfl (keepsCalls_modifyCall r id same) fun found => found
  refine h.step grows (h.chronological.congr (sameMoments_modifyCall r id same.moment same.completedAt))
    (fun found => .inl found) ?_ (fun found => .inl found)
    (h.listed.congr grows rfl rfl rfl rfl rfl)
  intro other c found
  rw [call?_modifyCall] at found
  split at found
  · rename_i eq
    subst eq
    obtain ⟨old, there, rfl⟩ := Option.map_eq_some_iff.1 found
    obtain ⟨number, whole⟩ := h.calls there
    exact .inr ⟨(same.id old).trans number, (sound old there whole).mono grows⟩
  · exact .inl found

theorem keepsCalls_pushCall (r : Recording) (kind : CallKind) (definition : Definition)
    (input : Arguments) (caller : Option CallId) :
    r.KeepsCalls (r.pushCall kind definition input caller).1 := by
  constructor
  intro id c found
  have lt : id.index < r.calls.size := hasCall_iff.1 (.of_call? found)
  rw [call?_pushCall, if_neg (Nat.ne_of_lt lt), found]
  refine ⟨_, rfl, ?_⟩
  split <;> exact ⟨rfl, rfl, rfl⟩

theorem grows_pushCall (r : Recording) (kind : CallKind) (definition : Definition)
    (input : Arguments) (caller : Option CallId) :
    r.Grows (r.pushCall kind definition input caller).1 :=
  .of_keeps (objects_pushCall ..) (keepsCalls_pushCall ..) fun found => by
    rw [effect?, effects_pushCall]
    exact found

/-- A call that has not ended may get one more subcall once all earlier ones have ended. -/
theorem CallSound.withSubcall {c d : Call} {id : CallId} (h : s.CallSound c)
    (running : c.completedAt = none) (found : s.call? id = some d) (caller : d.caller = some c.id)
    (later : c.moment.before d.moment)
    (ended : ∀ sub ∈ c.subcalls, ∃ e left, s.call? sub = some e ∧ e.completedAt = some left ∧
      left.before d.moment) : s.CallSound (withSubcall id c) where
  starts := h.starts
  outcome := h.outcome
  caller := h.caller
  effects := h.effects
  subcalls sub mem := by
    rcases List.mem_append.1 mem with mem | mem
    · exact h.subcalls sub mem
    · obtain rfl := List.mem_singleton.1 mem
      refine ⟨d, found, caller, later, fun done eq => ?_⟩
      have eq : c.completedAt = some done := eq
      rw [running] at eq
      cases eq
  siblings := by
    refine List.pairwise_append.2 ⟨h.siblings, List.pairwise_singleton .., ?_⟩
    intro sub mem last mem'
    obtain rfl := List.mem_singleton.1 mem'
    obtain ⟨e, left, there, leaves, before⟩ := ended sub mem
    exact ⟨e, d, left, there, found, leaves, before⟩
  ended := h.ended

/-- A call is added after everything it starts from. Its caller must not have ended, and all earlier
subcalls of the caller must have. -/
theorem Sound.pushCall (h : r.Sound) (kind : CallKind) (definition : Definition)
    (input : Arguments) {caller : Option CallId}
    (starts : ∀ id ∈ (r.newCall kind definition input caller).startsFrom, r.HasObject id)
    (open_ : ∀ parent c, caller = some parent → r.call? parent = some c →
      c.completedAt = none ∧ ∀ sub ∈ c.subcalls, r.HasEnded sub) :
    (r.pushCall kind definition input caller).1.Sound := by
  have grows := grows_pushCall r kind definition input caller
  have new : (r.pushCall kind definition input caller).1.call? ⟨r.calls.size⟩ =
      some (r.newCall kind definition input caller) := by rw [call?_pushCall, if_pos rfl]
  have keeps {id : CallId} (mem : r.HasCall id) :
      (r.pushCall kind definition input caller).1.HasCall id := mem.mono grows
  refine h.step grows (h.chronological.stamp (stamps_pushCall ..))
    (fun found => .inl (by rw [object?, objects_pushCall] at found; exact found)) ?_
    (fun found => .inl (by rw [effect?, effects_pushCall] at found; exact found)) ?_
  · intro id c found
    rw [call?_pushCall] at found
    split at found
    · rename_i same
      cases found
      refine .inr ⟨by cases id; simp_all [newCall], ?_⟩
      exact
        { starts := fun x mem => (h.hasOlder_next (starts x mem)).mono grows
          outcome := fun _ eq => by cases eq
          caller := fun parent eq => by
            have := (Option.filter_eq_some_iff.1 eq).2
            simpa [newCall] using this
          effects := fun _ mem => by cases mem
          subcalls := fun _ mem => by cases mem
          siblings := .nil
          ended := fun _ eq => by cases eq }
    · obtain ⟨old, there, rfl⟩ := Option.map_eq_some_iff.1 found
      split
      · rename_i parent
        subst parent
        obtain ⟨number, whole⟩ := h.calls there
        obtain ⟨running, ended⟩ := open_ id old rfl there
        refine .inr ⟨number, (whole.mono grows).withSubcall running new ?_
          (h.call_before_next there) fun sub mem => ?_⟩
        · rw [number]
          exact caller_newCall_of_known _ _ _ (.of_call? there)
        · obtain ⟨e, left, found, leaves⟩ := ended sub mem
          obtain ⟨e', found', -, -, stays⟩ := grows.calls found
          exact ⟨e', left, found', stays left leaves, h.end_before_next found leaves⟩
      · exact .inl there
  · exact
      { known := fun entry mem => by
          rw [known_pushCall] at mem
          exact (h.listed.known entry mem).mono grows
        generators := fun entry mem => by
          rw [generators_pushCall] at mem
          exact (h.listed.generators entry mem).mono grows
        captured := fun id mem => by
          rw [captured_pushCall] at mem
          rcases List.mem_append.1 mem with mem | mem
          · exact keeps (h.listed.captured id mem)
          · obtain rfl := List.mem_singleton.1 mem
            exact .of_call? new
        roots := fun id mem => by
          rw [roots_pushCall] at mem
          split at mem
          · rcases List.mem_append.1 mem with mem | mem
            · exact keeps (h.listed.roots id mem)
            · obtain rfl := List.mem_singleton.1 mem
              exact .of_call? new
          · exact keeps (h.listed.roots id mem)
        rootEffects := fun id mem => by
          rw [rootEffects_pushCall] at mem
          exact (h.listed.rootEffects id mem).mono grows }

/-- A call with another outcome. -/
def withOutcome (outcome : Outcome) (c : Call) : Call := { c with outcome := some outcome }

theorem keepsPlace_withOutcome (outcome : Outcome) : KeepsPlace (withOutcome outcome) :=
  ⟨fun _ => rfl, fun _ => rfl, fun _ => rfl, fun _ => rfl⟩

/-- A call that has not ended may get another outcome. -/
theorem Sound.setOutcome (h : r.Sound) {id : CallId} {outcome : Outcome}
    (running : ∀ c, r.call? id = some c → c.completedAt = none)
    (known : r.HasObject outcome.object) :
    (r.modifyCall id (withOutcome outcome)).Sound := by
  refine h.modifyCall id (keepsPlace_withOutcome outcome) fun c found whole => ?_
  refine { whole with outcome := ?_ }
  rintro _ ⟨rfl⟩
  refine ⟨known, fun done eq => ?_⟩
  have eq : c.completedAt = some done := eq
  rw [running c found] at eq
  cases eq

theorem grows_complete {id : CallId} {c : Call} (found : r.call? id = some c)
    (running : c.completedAt = none) :
    r.Grows (r.endCall id) where
  objects found := ⟨_, found, rfl⟩
  calls {other d} there := by
    rw [call?_endCall]
    split
    · rename_i eq
      subst eq
      refine ⟨withEnd r.nextMoment d, by rw [there]; rfl, rfl, rfl, ?_⟩
      intro done eq
      rw [found] at there
      cases there
      rw [running] at eq
      cases eq
    · exact ⟨d, there, rfl, rfl, fun _ ended => ended⟩
  effects found := found

/-- A call may end once its subcalls have ended. -/
theorem Sound.complete (h : r.Sound) {id : CallId} {c : Call} (found : r.call? id = some c)
    (running : c.completedAt = none) (ended : ∀ sub ∈ c.subcalls, r.HasEnded sub) :
    (r.endCall id).Sound := by
  have grows := grows_complete found running
  refine h.step grows (h.chronological.stamp (stamps_endCall found running))
    (fun found => .inl found) ?_ (fun found => .inl found)
    (h.listed.congr grows rfl rfl rfl rfl rfl)
  intro other d there
  rw [call?_endCall] at there
  split at there
  · rename_i eq
    subst eq
    rw [found] at there
    cases there
    obtain ⟨number, whole⟩ := h.calls found
    refine .inr ⟨number, ?_⟩
    exact
      { starts := fun x mem => (whole.starts x mem).mono grows
        outcome := fun outcome eq => by
          have known := (whole.outcome outcome eq).1
          refine ⟨known.mono grows, ?_⟩
          rintro _ ⟨rfl⟩
          exact (h.hasOlder_next known).mono grows
        caller := whole.caller
        effects := fun x mem => by
          obtain ⟨e, there, later, -⟩ := whole.effects x mem
          refine ⟨e, grows.effects there, later, ?_⟩
          rintro _ ⟨rfl⟩
          exact h.effect_before_next there
        subcalls := fun x mem => by
          obtain ⟨d, there, caller, later, -⟩ := whole.subcalls x mem
          obtain ⟨e, left, there', leaves⟩ := ended x mem
          rw [there] at there'
          cases there'
          obtain ⟨d', found', moment, caller', stays⟩ := grows.calls there
          refine ⟨d', found', caller' ▸ caller, moment ▸ later, ?_⟩
          rintro _ ⟨rfl⟩
          exact ⟨left, stays left leaves, h.end_before_next there leaves⟩
        siblings := (whole.mono grows).siblings
        ended := by
          rintro _ ⟨rfl⟩
          have := h.call_before_next found
          exact this }
  · exact .inl there

/-! ## Side effects -/

theorem keepsCalls_pushEffect (r : Recording) (change : Change) (owner : Option CallId) :
    r.KeepsCalls (r.pushEffect change owner).1 := by
  constructor
  intro id c found
  rw [call?_pushEffect, found]
  refine ⟨_, rfl, ?_⟩
  split <;> exact ⟨rfl, rfl, rfl⟩

theorem grows_pushEffect (r : Recording) (change : Change) (owner : Option CallId) :
    r.Grows (r.pushEffect change owner).1 :=
  .of_keeps (objects_pushEffect ..) (keepsCalls_pushEffect ..) fun {id e} found => by
    have lt : id.index < r.effects.size := hasEffect_iff.1 (.of_effect? found)
    rw [effect?_pushEffect, if_neg (Nat.ne_of_lt lt), found]

/-- A side effect is added after everything it refers to; its owner must not have ended. -/
theorem Sound.pushEffect (h : r.Sound) (change : Change) {owner : Option CallId}
    (known : ∀ id ∈ change.referenced, r.HasObject id)
    (running : ∀ id c, owner = some id → r.call? id = some c → c.completedAt = none) :
    (r.pushEffect change owner).1.Sound := by
  have grows := grows_pushEffect r change owner
  have new : (r.pushEffect change owner).1.effect? ⟨r.effects.size⟩ = some (r.newEffect change) := by
    rw [effect?_pushEffect, if_pos rfl]
  refine h.step grows (h.chronological.stamp (stamps_pushEffect ..))
    (fun found => .inl (by rw [object?, objects_pushEffect] at found; exact found)) ?_ ?_ ?_
  · intro id c found
    rw [call?_pushEffect] at found
    obtain ⟨old, there, rfl⟩ := Option.map_eq_some_iff.1 found
    split
    · rename_i same
      obtain ⟨number, whole⟩ := h.calls there
      have whole := whole.mono grows
      refine .inr ⟨number, { whole with effects := fun x mem => ?_ }⟩
      rcases List.mem_append.1 mem with mem | mem
      · exact whole.effects x mem
      · obtain rfl := List.mem_singleton.1 mem
        have later := h.call_before_next there
        refine ⟨_, new, later, fun done eq => ?_⟩
        have eq : old.completedAt = some done := eq
        rw [running id old same there] at eq
        cases eq
    · exact .inl there
  · intro id e found
    rw [effect?_pushEffect] at found
    split at found
    · rename_i same
      cases found
      refine .inr ⟨by cases id; simp_all [newEffect, Effect.ofChange], ?_, rfl, rfl⟩
      exact fun x mem => (h.hasOlder_next (known x mem)).mono grows
    · exact .inl found
  · exact
      { known := fun entry mem => by
          rw [known_pushEffect] at mem
          exact (h.listed.known entry mem).mono grows
        generators := fun entry mem => by
          rw [generators_pushEffect] at mem
          exact (h.listed.generators entry mem).mono grows
        captured := fun id mem => by
          rw [captured_pushEffect] at mem
          exact (h.listed.captured id mem).mono grows
        roots := fun id mem => by
          rw [roots_pushEffect] at mem
          exact (h.listed.roots id mem).mono grows
        rootEffects := fun id mem => by
          rw [rootEffects_pushEffect] at mem
          split at mem
          · rcases List.mem_append.1 mem with mem | mem
            · exact (h.listed.rootEffects id mem).mono grows
            · obtain rfl := List.mem_singleton.1 mem
              exact .of_effect? new
          · exact (h.listed.rootEffects id mem).mono grows }

end Recording

end Reenact
