import Reenact.Proofs.Setup.Entry
import Reenact.Proofs.Setup.LeastClosure
import Reenact.Setup.Plan

/-!
# Plans of calls

On a sound recording there is a plan for every list of calls (`planForCalls_sound`). Its closure
lists the least working set and side effects before the horizon, strictly in the order of the
recording (`orderedEntries_ordered`), and its entries stand for a part of the closure in the same
order (`IsPlanOf`).
-/

namespace Reenact

namespace Setup

open Recording (effect_eq_ok object_eq_ok call_eq_ok findCall_eq_ok)

variable {r : Recording} {bound : Option Moment} {objects : List Object} {effects : List Effect}

/-! ## The order of the closure -/

/-- The first entry was recorded before the second. -/
def Precedes (r : Recording) (a b : Entry) : Prop :=
  ∃ m n, a.moment r = .ok m ∧ b.moment r = .ok n ∧ m.before n

theorem Precedes.asymm {a b : Entry} (h : Precedes r a b) (back : Precedes r b a) : False := by
  obtain ⟨m, n, first, second, before⟩ := h
  obtain ⟨n', m', second', first', before'⟩ := back
  rw [first] at first'
  rw [second] at second'
  cases first'
  cases second'
  rw [Moment.before_iff] at before before'
  exact Nat.lt_asymm before before'

instance : Std.Asymm (Precedes r) := ⟨fun _ _ => Precedes.asymm⟩

theorem Precedes.irrefl {entry : Entry} (h : Precedes r entry entry) : False := h.asymm h

/-- The entry of a moment, where an object or a side effect was recorded. -/
def entryOf? : Fact → Option Entry
  | .object id => some (.object id)
  | .effect id => some (.effect id)
  | .start _ | .completion _ => none

/-- The entry was recorded at the moment that it comes with. -/
def IsStamped (r : Recording) (t : Timed) : Prop :=
  ∃ f, r.momentOf f = some t.1 ∧ entryOf? f = some t.2

theorem IsStamped.moment {t : Timed} (h : IsStamped r t) : t.2.moment r = .ok t.1 := by
  obtain ⟨m, entry⟩ := t
  obtain ⟨f, stamped, made⟩ := h
  cases f with
  | object id =>
    obtain ⟨o, found, same⟩ := Option.map_eq_some_iff.1 stamped
    cases made
    exact map_eq_ok.2 ⟨o, object_eq_ok.2 found, same⟩
  | effect id =>
    obtain ⟨e, found, same⟩ := Option.map_eq_some_iff.1 stamped
    cases made
    exact map_eq_ok.2 ⟨e, effect_eq_ok.2 found, same⟩
  | start id => cases made
  | completion id => cases made

/-- Nothing else was recorded at the moment of an entry. -/
theorem IsStamped.eq_of_tick (h : r.Sound) {s t : Timed} (first : IsStamped r s)
    (second : IsStamped r t) (same : s.1.tick = t.1.tick) : s = t := by
  obtain ⟨f, stamped, entry⟩ := first
  obtain ⟨g, stamped', entry'⟩ := second
  have moments : s.1 = t.1 := congrArg Moment.mk same
  obtain rfl := h.chronological.distinct (moments ▸ stamped) stamped'
  rw [entry] at entry'
  exact Prod.ext moments (Option.some.inj entry')

/-- The objects and side effects are those of the recording, none twice. -/
structure AreRecorded (r : Recording) (objects : List Object) (effects : List Effect) : Prop where
  made : ∀ o ∈ objects, r.object? o.id = some o
  repeated : ∀ e ∈ effects, r.effect? e.id = some e
  madeOnce : (objects.map Object.id).Nodup
  repeatedOnce : (effects.map Effect.id).Nodup

theorem AreRecorded.object_eq (h : AreRecorded r objects effects) {o found : Object}
    (mem : o ∈ objects) (eq : r.object? o.id = some found) : found = o :=
  Option.some.inj (eq.symm.trans (h.made o mem))

theorem AreRecorded.effect_eq (h : AreRecorded r objects effects) {e found : Effect}
    (mem : e ∈ effects) (eq : r.effect? e.id = some found) : found = e :=
  Option.some.inj (eq.symm.trans (h.repeated e mem))

/-- The objects and side effects before the horizon with their moments, not yet in order. -/
def timedEntries (bound : Option Moment) (objects : List Object) (effects : List Effect) :
    List Timed :=
  ((objects.filter fun o => isBefore bound o.moment).map fun o => (o.moment, .object o.id)) ++
    (effects.filter fun e => isBefore bound e.moment).map fun e => (e.moment, .effect e.id)

theorem orderedEntries_eq : orderedEntries bound objects effects =
    ((timedEntries bound objects effects).mergeSort isNotLater).map Prod.snd := rfl

theorem isStamped_of_mem (h : AreRecorded r objects effects) {t : Timed}
    (mem : t ∈ timedEntries bound objects effects) : IsStamped r t := by
  rcases List.mem_append.1 mem with mem | mem
  · obtain ⟨o, inside, rfl⟩ := List.mem_map.1 mem
    have found := h.made o (List.mem_filter.1 inside).1
    exact ⟨.object o.id, Option.map_eq_some_iff.2 ⟨o, found, rfl⟩, rfl⟩
  · obtain ⟨e, inside, rfl⟩ := List.mem_map.1 mem
    have found := h.repeated e (List.mem_filter.1 inside).1
    exact ⟨.effect e.id, Option.map_eq_some_iff.2 ⟨e, found, rfl⟩, rfl⟩

theorem timedEntries_nodup (h : AreRecorded r objects effects) :
    (timedEntries bound objects effects).Nodup := by
  have first := (List.pairwise_map.1 h.madeOnce).filter fun o => isBefore bound o.moment
  have second := (List.pairwise_map.1 h.repeatedOnce).filter fun e => isBefore bound e.moment
  refine List.nodup_append.2 ⟨?_, ?_, ?_⟩
  · exact List.pairwise_map.2 (first.imp fun ne eq => ne (Entry.object.inj (Prod.mk.inj eq).2))
  · exact List.pairwise_map.2 (second.imp fun ne eq => ne (Entry.effect.inj (Prod.mk.inj eq).2))
  · rintro s mem t mem' rfl
    obtain ⟨o, -, rfl⟩ := List.mem_map.1 mem
    obtain ⟨e, -, eq⟩ := List.mem_map.1 mem'
    cases (Prod.mk.inj eq).2

/-- The closure is strictly in the order of the recording. -/
theorem orderedEntries_ordered (sound : r.Sound) (h : AreRecorded r objects effects) :
    (orderedEntries bound objects effects).Pairwise (Precedes r) := by
  have perm := List.mergeSort_perm (timedEntries bound objects effects) isNotLater
  have stamped (t : Timed) (mem : t ∈ (timedEntries bound objects effects).mergeSort isNotLater) :
      IsStamped r t :=
    isStamped_of_mem h (perm.mem_iff.1 mem)
  have sorted : ((timedEntries bound objects effects).mergeSort isNotLater).Pairwise
      fun a b => isNotLater a b = true := by
    refine List.pairwise_mergeSort ?_ ?_ _
    · intro a b c ab bc
      simp only [isNotLater, decide_eq_true_eq] at ab bc ⊢
      exact Nat.le_trans ab bc
    · intro a b
      simp only [isNotLater, Bool.or_eq_true, decide_eq_true_eq]
      exact Nat.le_total ..
  have unequal : ((timedEntries bound objects effects).mergeSort isNotLater).Nodup :=
    perm.nodup_iff.2 (timedEntries_nodup h)
  rw [orderedEntries_eq, List.pairwise_map]
  refine (sorted.and unequal).imp_of_mem fun {a b} mem mem' ⟨notLater, ne⟩ => ?_
  refine ⟨a.1, b.1, (stamped a mem).moment, (stamped b mem').moment, Moment.before_iff.2 ?_⟩
  simp only [isNotLater, decide_eq_true_eq] at notLater
  -- two entries of one moment would be the same entry
  exact Nat.lt_of_le_of_ne notLater fun same =>
    ne (IsStamped.eq_of_tick sound (stamped a mem) (stamped b mem') same)

theorem object_mem_orderedEntries {x : ObjectId} :
    .object x ∈ orderedEntries bound objects effects ↔
      ∃ o ∈ objects, isBefore bound o.moment = true ∧ o.id = x := by
  rw [orderedEntries_eq]
  constructor
  · intro mem
    obtain ⟨t, inside, same⟩ := List.mem_map.1 mem
    rcases List.mem_append.1 (List.mem_mergeSort.1 inside) with inside | inside
    · obtain ⟨o, made, rfl⟩ := List.mem_map.1 inside
      obtain ⟨listed, before⟩ := List.mem_filter.1 made
      exact ⟨o, listed, before, Entry.object.inj same⟩
    · obtain ⟨e, -, rfl⟩ := List.mem_map.1 inside
      cases same
  · rintro ⟨o, listed, before, rfl⟩
    refine List.mem_map.2 ⟨(o.moment, .object o.id), List.mem_mergeSort.2 ?_, rfl⟩
    exact List.mem_append_left _ (List.mem_map.2 ⟨o, List.mem_filter.2 ⟨listed, before⟩, rfl⟩)

theorem effect_mem_orderedEntries {x : EffectId} :
    .effect x ∈ orderedEntries bound objects effects ↔
      ∃ e ∈ effects, isBefore bound e.moment = true ∧ e.id = x := by
  rw [orderedEntries_eq]
  constructor
  · intro mem
    obtain ⟨t, inside, same⟩ := List.mem_map.1 mem
    rcases List.mem_append.1 (List.mem_mergeSort.1 inside) with inside | inside
    · obtain ⟨o, -, rfl⟩ := List.mem_map.1 inside
      cases same
    · obtain ⟨e, repeated, rfl⟩ := List.mem_map.1 inside
      obtain ⟨listed, before⟩ := List.mem_filter.1 repeated
      exact ⟨e, listed, before, Entry.effect.inj same⟩
  · rintro ⟨e, listed, before, rfl⟩
    refine List.mem_map.2 ⟨(e.moment, .effect e.id), List.mem_mergeSort.2 ?_, rfl⟩
    exact List.mem_append_right _ (List.mem_map.2 ⟨e, List.mem_filter.2 ⟨listed, before⟩, rfl⟩)

/-! ## The plan of a closure -/

/-- The objects that get a name, given the calls captured before the horizon. -/
def namedAmong (earlier : List Call) (objects : List Object) (effects : List Effect) :
    List ObjectId :=
  (objects.filter (deservesName (allUses earlier objects effects)
    (effects.flatMap Effect.affected) (earlier.filterMap Call.receiver))).map Object.id

/-- Whether an entry of the closure is kept: every side effect, and the objects that get a name. -/
def isKept (named : List ObjectId) : Entry → Bool
  | .object id => named.contains id
  | .effect _ | .grown _ => true

/-- The entries of a closure were not put together, and stand for what is part of the recording. -/
theorem single_of_mem_orderedEntries (h : AreRecorded r objects effects) {e : Entry}
    (mem : e ∈ orderedEntries bound objects effects) : e.IsSound r ∧ e.unfold = [e] := by
  cases e with
  | object id =>
    obtain ⟨o, listed, -, rfl⟩ := object_mem_orderedEntries.1 mem
    exact ⟨⟨o, h.made o listed⟩, rfl⟩
  | effect id =>
    obtain ⟨e, listed, -, rfl⟩ := effect_mem_orderedEntries.1 mem
    exact ⟨⟨e, h.repeated e listed⟩, rfl⟩
  | grown list =>
    rw [orderedEntries_eq] at mem
    obtain ⟨⟨m, e⟩, inside, same⟩ := List.mem_map.1 mem
    obtain ⟨f, -, made⟩ : IsStamped r (m, e) := isStamped_of_mem h (List.mem_mergeSort.1 inside)
    cases same
    cases f <;> cases made

/-- A plan for calls, made from objects and side effects of the recording. The side effects are all
candidates of the calls that affect one of the objects. -/
structure IsPlanOf (r : Recording) (calls : List Call) (objects : List Object)
    (effects : List Effect) (plan : Plan) : Prop where
  recorded : AreRecorded r objects effects
  starts : ∀ c ∈ calls, ∀ x ∈ c.startsFrom, ∃ o ∈ objects, o.id = x
  candidate : ∀ e ∈ effects, ∃ c ∈ calls, IsCandidate r c.id c e
  settled : ∀ c ∈ calls, ∀ e, IsCandidate r c.id c e → ∀ o ∈ objects, o.id ∈ e.affected →
    e ∈ effects
  least : IsLeast {p : Set ObjectId × Set EffectId | IsClosed r calls p.1 p.2}
    ({x | ∃ o ∈ objects, o.id = x}, {y | ∃ e ∈ effects, e.id = y})
  closure : plan.closure = orderedEntries (horizon calls) objects effects
  naming : ∃ earlier, callsBefore r (horizon calls) = .ok earlier ∧
    plan.all.flatMap Entry.unfold =
      plan.closure.filter (isKept (namedAmong earlier objects effects))
  sound : ∀ e ∈ plan.all, e.IsSound r
  named : plan.named = plan.all.filterMap Entry.object?
  counted : ∃ earlier, callsBefore r (horizon calls) = .ok earlier ∧
    plan.uses = allUses earlier objects effects ∧
    fold r (plan.closure.filter (isKept (namedAmong earlier objects effects))) = .ok plan.all

/-- The entries of a plan stand for the entries of its closure that are kept. -/
theorem IsPlanOf.taken {calls : List Call} {plan : Plan}
    (h : IsPlanOf r calls objects effects plan) :
    ∃ named, plan.all.flatMap Entry.unfold = plan.closure.filter (isKept named) := by
  obtain ⟨earlier, -, taken⟩ := h.naming
  exact ⟨_, taken⟩

/-- The objects of a closure can be looked up. -/
theorem objects_sound {numbers : List Nat} (h : IsObjectSet r numbers) :
    ∃ objects, numbers.mapM (fun n => r.object ⟨n⟩) = .ok objects := by
  refine mapM_answers fun n mem => ?_
  obtain ⟨o, found⟩ := h.known n mem
  exact ⟨o, object_eq_ok.2 found⟩

theorem indices_of_mapM (sound : r.Sound) {numbers : List Nat} {objects : List Object}
    (h : numbers.mapM (fun n => r.object ⟨n⟩) = .ok objects) :
    indices (objects.map Object.id) = numbers := by
  induction mapM_eq_ok.1 h with
  | nil => rfl
  | @cons n o _ _ first others ih =>
    have number : o.id = ⟨n⟩ := (sound.objects (object_eq_ok.1 first)).1
    rw [List.map_cons, indices, List.map_cons, number]
    exact congrArg _ (ih (mapM_eq_ok.2 others))

/-- The plan of a closure can be told on a sound recording. -/
theorem planOf_sound (h : r.Sound) (bound : Option Moment) {candidates : List Effect} {c : Closure}
    (within : c.Within r candidates) (known : Closure.AreCandidates r candidates) :
    ∃ plan objects, planOf r bound c = .ok plan ∧ AreRecorded r objects c.effects ∧
      indices (objects.map Object.id) = c.objects ∧
      plan.closure = orderedEntries bound objects c.effects ∧
      (∃ earlier, callsBefore r bound = .ok earlier ∧ plan.all.flatMap Entry.unfold =
        plan.closure.filter (isKept (namedAmong earlier objects c.effects))) ∧
      (∀ e ∈ plan.all, e.IsSound r) ∧ plan.named = plan.all.filterMap Entry.object? ∧
      ∃ earlier, callsBefore r bound = .ok earlier ∧
        plan.uses = allUses earlier objects c.effects ∧
        fold r (plan.closure.filter (isKept (namedAmong earlier objects c.effects))) =
          .ok plan.all := by
  obtain ⟨objects, objects_eq⟩ := objects_sound within.objects
  have numbers := indices_of_mapM h objects_eq
  have recorded : AreRecorded r objects c.effects := by
    refine ⟨fun o mem => ?_, fun e mem => known e (within.effects mem), ?_, within.nodup⟩
    · obtain ⟨n, -, found⟩ := mem_of_mapM_eq_ok objects_eq mem
      have found := object_eq_ok.1 found
      rw [(h.objects found).1]
      exact found
    · refine List.Nodup.of_map ObjectId.index ?_
      rw [indices] at numbers
      rw [numbers]
      exact within.objects.nodup
  obtain ⟨calls, calls_eq⟩ : ∃ calls, callsBefore r bound = .ok calls := by
    obtain ⟨captured, all⟩ := mapM_answers (f := r.call) (l := r.captured) fun id mem => by
      obtain ⟨c, found⟩ := h.listed.captured id mem
      exact ⟨c, call_eq_ok.2 found⟩
    exact ⟨_, bind_eq_ok.2 ⟨captured, all, rfl⟩⟩
  let uses := allUses calls objects c.effects
  let entries := orderedEntries bound objects c.effects
  let named := namedAmong calls objects c.effects
  have single (e : Entry) (mem : e ∈ entries.filter (isKept named)) :
      e.IsSound r ∧ e.unfold = [e] :=
    single_of_mem_orderedEntries recorded (List.mem_filter.1 mem).1
  obtain ⟨all, all_eq, sound, unfolds⟩ := fold_sound h.numbersEffects fun e mem => (single e mem).1
  rw [flatMap_unfold_of_single fun e mem => (single e mem).2] at unfolds
  refine ⟨⟨entries, all, all.filterMap Entry.object?, uses⟩, objects, ?_, recorded, numbers, rfl,
    ⟨calls, calls_eq, unfolds⟩, sound, rfl, calls, calls_eq, rfl, all_eq⟩
  exact bind_eq_ok.2 ⟨objects, objects_eq, bind_eq_ok.2 ⟨calls, calls_eq,
    bind_eq_ok.2 ⟨all, all_eq, rfl⟩⟩⟩

/-- Calls under test are calls of the recording. -/
theorem findCalls_sound (h : r.Sound) {ids : List CallId} (known : ∀ id ∈ ids, r.HasCall id) :
    ∃ calls, ids.mapM r.findCall = .ok calls ∧ ∀ c ∈ calls, r.call? c.id = some c := by
  obtain ⟨calls, calls_eq⟩ := mapM_answers (f := r.findCall) (l := ids) fun id mem => by
    obtain ⟨c, found⟩ := known id mem
    exact ⟨c, findCall_eq_ok.2 found⟩
  refine ⟨calls, calls_eq, fun c mem => ?_⟩
  obtain ⟨id, -, found⟩ := mem_of_mapM_eq_ok calls_eq mem
  have found := findCall_eq_ok.1 found
  rw [(h.calls found).1]
  exact found

/-- The working set is told from its numbers. -/
theorem membersOf_eq {numbers : List Nat} (same : indices (objects.map Object.id) = numbers) :
    membersOf numbers = {x | ∃ o ∈ objects, o.id = x} := by
  rw [← same, membersOf_indices]
  exact Set.ext fun x => List.mem_map

/-- **Planning** succeeds for all calls of a sound recording. -/
theorem planForCalls_sound (h : r.Sound) {ids : List CallId} (known : ∀ id ∈ ids, r.HasCall id) :
    ∃ calls plan objects effects, ids.mapM r.findCall = .ok calls ∧
      planForCalls r ids = .ok plan ∧ IsPlanOf r calls objects effects plan := by
  obtain ⟨calls, calls_eq, there⟩ := findCalls_sound h known
  obtain ⟨found, final, closure_eq, within, starts, settled, mem_found⟩ :=
    closure_sound h there fun x (mem : x ∈ []) => (List.not_mem_nil mem).elim
  have areCandidates : Closure.AreCandidates r found := by
    intro e mem
    obtain ⟨c, -, candidate⟩ := (mem_found e).1 mem
    exact candidate.1
  obtain ⟨plan, objects, plan_eq, recorded, numbers, closure, naming, sound, named, counted⟩ :=
    planOf_sound h (horizon calls) within areCandidates
  have least : IsLeast {p : Set ObjectId × Set EffectId | IsClosed r calls p.1 p.2}
      ({x | ∃ o ∈ objects, o.id = x}, {y | ∃ e ∈ final.effects, e.id = y}) := by
    rw [← membersOf_eq numbers]
    exact closure_isLeast h there closure_eq
  refine ⟨calls, plan, objects, final.effects, calls_eq, ?_, recorded, ?_,
    fun e mem => (mem_found e).1 (within.effects mem), ?_, least, closure, naming, sound, named,
    counted⟩
  · exact bind_eq_ok.2 ⟨calls, calls_eq, bind_eq_ok.2 ⟨final, closure_eq, plan_eq⟩⟩
  · intro c mem x inside
    have there : x.index ∈ indices (objects.map Object.id) :=
      numbers ▸ starts c mem (List.mem_map_of_mem inside)
    obtain ⟨y, made, same⟩ := List.mem_map.1 there
    obtain ⟨o, listed, rfl⟩ := List.mem_map.1 made
    exact ⟨o, listed, congrArg ObjectId.mk same⟩
  · intro c mem e candidate o listed affected
    have inside : o.id.index ∈ final.objects := by
      rw [← numbers]
      exact List.mem_map_of_mem (List.mem_map_of_mem listed)
    have concerned : final.concerns e = true :=
      List.any_eq_true.2 ⟨o.id, affected, List.contains_iff_mem.2 inside⟩
    obtain ⟨f, included, same⟩ := List.any_eq_true.1
      (settled e ((mem_found e).2 ⟨c, mem, candidate⟩) concerned)
    have there := recorded.repeated f included
    rw [beq_iff_eq.1 same, candidate.1] at there
    rw [Option.some.inj there]
    exact included

end Setup

end Reenact
