import Reenact.Proofs.Setup.Aliasing
import Reenact.Proofs.Setup.LaterPlan

/-!
# More calls under test

More calls under test start from more objects, are shaped by more side effects, and may end later. The
number of calls counted as uses grows with the horizon, and so do the receivers among them. A plan for
more calls is made from closed sets for these calls, which are closed for fewer of them as well, so
they hold the least sets that a plan for fewer calls is made from.

**The law** (`plans_grow`): a plan for more calls lists and names all that a plan for some of them
does, and counts no object less often. The plan of an instance does so for every call that was made
on it, and for every resumption of a generator that its methods made.
-/

namespace Reenact

namespace Setup

open scoped List

variable {r : Recording} {calls others : List Call} {objects objects' : List Object}
  {effects effects' : List Effect} {plan plan' : Plan} {earlier later : List Call}

/-! ## Plans of closed sets -/

/-- The second plan has all that the first one has. -/
structure Plan.IsPartOf (p q : Plan) : Prop where
  closure : p.closure ⊆ q.closure
  named : p.named ⊆ q.named
  useCount : ∀ x, p.useCount x ≤ q.useCount x

/-- A plan for calls, made from sets that hold all that the calls need, and perhaps more. -/
structure Covers (r : Recording) (calls : List Call) (objects : List Object)
    (effects : List Effect) (plan : Plan) : Prop where
  recorded : AreRecorded r objects effects
  closed : IsClosed r calls {x | ∃ o ∈ objects, o.id = x} {y | ∃ e ∈ effects, e.id = y}
  closure : plan.closure = orderedEntries (horizon calls) objects effects
  named : plan.named = plan.all.filterMap Entry.object?
  counted : ∃ earlier, callsBefore r (horizon calls) = .ok earlier ∧
    plan.uses = allUses earlier objects effects ∧
    plan.all.flatMap Entry.unfold =
      plan.closure.filter (isKept (namedAmong earlier objects effects))

theorem IsPlanOf.covers (h : IsPlanOf r calls objects effects plan) :
    Covers r calls objects effects plan := by
  obtain ⟨earlier, earlier_eq, taken⟩ := h.naming
  obtain ⟨earlier', earlier_eq', uses, -⟩ := h.counted
  rw [earlier_eq] at earlier_eq'
  cases earlier_eq'
  exact ⟨h.recorded, h.isClosed, h.closure, h.named, earlier, earlier_eq, uses, taken⟩

/-- Calls with further objects have a plan, made from sets that hold all that the calls need. -/
theorem resolve_sound (h : r.Sound) {ids : List CallId} (known : ∀ id ∈ ids, r.HasCall id)
    {extra : List ObjectId} (there : ∀ x ∈ extra, r.HasObject x) :
    ∃ calls plan objects effects, ids.mapM r.findCall = .ok calls ∧
      resolve r ids extra = .ok plan ∧ Covers r calls objects effects plan := by
  obtain ⟨calls, calls_eq, found⟩ := findCalls_sound h known
  obtain ⟨candidates, final, closure_eq, within, -, -, mem_candidates⟩ :=
    closure_sound h found there
  have areCandidates : Closure.AreCandidates r candidates := by
    intro e mem
    obtain ⟨c, -, candidate⟩ := (mem_candidates e).1 mem
    exact candidate.1
  obtain ⟨plan, objects, plan_eq, recorded, numbers, closure, naming, -, named, counted⟩ :=
    planOf_sound h (horizon calls) within areCandidates
  obtain ⟨earlier, earlier_eq, taken⟩ := naming
  obtain ⟨earlier', earlier_eq', uses, -⟩ := counted
  rw [earlier_eq] at earlier_eq'
  cases earlier_eq'
  refine ⟨calls, plan, objects, final.effects, calls_eq,
    bind_eq_ok.2 ⟨calls, calls_eq, bind_eq_ok.2 ⟨final, closure_eq, plan_eq⟩⟩,
    recorded, ?_, closure, named, earlier, earlier_eq, uses, taken⟩
  rw [← membersOf_eq numbers]
  exact closure_isClosed h found there closure_eq

/-! ## Uses and names -/

section Lists

variable (ofCalls : earlier.Sublist later) (ofObjects : objects <+~ objects')
  (ofEffects : effects <+~ effects')
include ofCalls ofObjects ofEffects

/-- With more calls, objects and side effects, no object is used less often. -/
theorem count_allUses_mono (x : ObjectId) :
    (allUses earlier objects effects).count x ≤ (allUses later objects' effects').count x := by
  by_cases member : x ∈ objects.map Object.id
  · have member' : x ∈ objects'.map Object.id := List.map_subset _ ofObjects.subset member
    have first := count_flatMap_le (x := x) ofCalls.subperm usesOfCall
    have second := count_flatMap_le (x := x) ofObjects usesOfObject
    have third := count_flatMap_le (x := x) ofEffects Effect.referenced
    rw [allUses, allUses, List.count_filter (List.contains_iff_mem.2 member),
      List.count_filter (List.contains_iff_mem.2 member')]
    simp only [List.count_append]
    omega
  · rw [count_allUses_of_not_mem fun made => member (List.mem_map.2 made)]
    exact Nat.zero_le _

/-- And no object loses its name. -/
theorem namedAmong_mono :
    namedAmong earlier objects effects ⊆ namedAmong later objects' effects' := by
  intro x mem
  obtain ⟨o, listed, rfl⟩ := List.mem_map.1 mem
  obtain ⟨made, deserves⟩ := List.mem_filter.1 listed
  refine List.mem_map_of_mem (List.mem_filter.2 ⟨ofObjects.subset made, ?_⟩)
  simp only [deservesName, Bool.and_eq_true, Bool.or_eq_true, decide_eq_true_eq,
    List.contains_iff_mem] at deserves ⊢
  obtain ⟨identity, reason⟩ := deserves
  refine ⟨identity, ?_⟩
  rcases reason with (twice | affected) | receiver
  · have more := count_allUses_mono ofCalls ofObjects ofEffects o.id
    exact .inl (.inl (by omega))
  · obtain ⟨e, mem, affected⟩ := List.mem_flatMap.1 affected
    exact .inl (.inr (List.mem_flatMap.2 ⟨e, ofEffects.subset mem, affected⟩))
  · obtain ⟨c, mem, receiver⟩ := List.mem_filterMap.1 receiver
    exact .inr (List.mem_filterMap.2 ⟨c, ofCalls.subset mem, receiver⟩)

end Lists

/-! ## Growing plans -/

/-- The horizon of more calls is not earlier. -/
theorem isBefore_horizon_mono (nonempty : calls ≠ []) (sub : calls ⊆ others) {m : Moment}
    (before : isBefore (horizon calls) m = true) : isBefore (horizon others) m = true := by
  have nonempty' : others ≠ [] := by
    rintro rfl
    exact nonempty (List.subset_nil.1 sub)
  rw [isBefore_horizon_iff nonempty] at before
  rw [isBefore_horizon_iff nonempty']
  exact before.of_subset sub

/-- More calls are captured before a later horizon. -/
theorem callsBefore_sublist {bound bound' : Option Moment}
    (mono : ∀ m, isBefore bound m = true → isBefore bound' m = true)
    (first : callsBefore r bound = .ok earlier) (second : callsBefore r bound' = .ok later) :
    earlier.Sublist later := by
  obtain ⟨captured, captured_eq, made⟩ := bind_eq_ok.1 first
  obtain ⟨captured', captured_eq', made'⟩ := bind_eq_ok.1 second
  rw [captured_eq] at captured_eq'
  cases captured_eq'
  cases made
  cases made'
  exact List.monotone_filter_right _ fun c => mono c.moment

/-- What a plan is made from, a plan for more calls is made from as well. -/
theorem IsPlanOf.subset_of_covers (small : IsPlanOf r calls objects effects plan)
    (large : Covers r others objects' effects' plan') (sub : calls ⊆ others) :
    objects ⊆ objects' ∧ effects ⊆ effects' := by
  have closed : IsClosed r calls {x | ∃ o ∈ objects', o.id = x} {y | ∃ e ∈ effects', e.id = y} :=
    large.closed.of_subset sub
  obtain ⟨members, included⟩ := small.least.2 (show (_, _) ∈ _ from closed)
  constructor
  · intro o mem
    obtain ⟨o', mem', same⟩ := members ⟨o, mem, rfl⟩
    have found := small.recorded.made o mem
    rw [← same] at found
    exact large.recorded.object_eq mem' found ▸ mem'
  · intro e mem
    obtain ⟨e', mem', same⟩ := included ⟨e, mem, rfl⟩
    have found := small.recorded.repeated e mem
    rw [← same] at found
    exact large.recorded.effect_eq mem' found ▸ mem'

/-- A plan for no calls is part of every plan. -/
theorem IsPlanOf.isPartOf_of_nil (small : IsPlanOf r [] objects effects plan) (q : Plan) :
    plan.IsPartOf q := by
  obtain ⟨rfl, rfl⟩ := small.of_nil
  obtain ⟨earlier, -, uses, taken⟩ := small.covers.counted
  have nothing : plan.closure = [] := by
    rw [small.closure, orderedEntries_eq]
    simp [timedEntries]
  refine ⟨?_, fun x mem => ?_, fun x => ?_⟩
  · rw [nothing]
    exact List.nil_subset _
  · obtain ⟨listed, -⟩ := (mem_named_of_taken small.named taken).1 mem
    rw [nothing] at listed
    cases listed
  · have none : plan.useCount x = 0 := by
      rw [Plan.useCount, uses]
      refine count_allUses_of_not_mem ?_
      rintro ⟨o, mem, -⟩
      cases mem
    rw [none]
    exact Nat.zero_le _

/-- **Plans grow**: what a plan has, a plan for more calls has as well. -/
theorem IsPlanOf.isPartOf (small : IsPlanOf r calls objects effects plan)
    (large : Covers r others objects' effects' plan') (sub : calls ⊆ others) :
    plan.IsPartOf plan' := by
  by_cases nonempty : calls = []
  · subst nonempty
    exact small.isPartOf_of_nil plan'
  have mono (m : Moment) (before : isBefore (horizon calls) m = true) :
      isBefore (horizon others) m = true :=
    isBefore_horizon_mono nonempty sub before
  obtain ⟨members, included⟩ := small.subset_of_covers large sub
  obtain ⟨earlier, earlier_eq, uses, taken⟩ := small.covers.counted
  obtain ⟨later, later_eq, uses', taken'⟩ := large.counted
  have ofCalls := callsBefore_sublist mono earlier_eq later_eq
  have ofObjects := List.subperm_of_subset small.recorded.madeOnce.of_map members
  have ofEffects := List.subperm_of_subset small.recorded.repeatedOnce.of_map included
  have listed : plan.closure ⊆ plan'.closure := by
    intro entry mem
    rw [large.closure]
    cases small.mem_closure_iff.1 mem with
    | @object x o member found inTime =>
      obtain ⟨o, made, before, rfl⟩ := object_mem_orderedEntries.1 (small.closure ▸ mem)
      exact object_mem_orderedEntries.2 ⟨o, members made, mono _ before, rfl⟩
    | @effect y e member found inTime =>
      obtain ⟨e, seen, before, rfl⟩ := effect_mem_orderedEntries.1 (small.closure ▸ mem)
      exact effect_mem_orderedEntries.2 ⟨e, included seen, mono _ before, rfl⟩
  refine ⟨listed, fun x mem => ?_, fun x => ?_⟩
  · obtain ⟨there, deserved⟩ := (mem_named_of_taken small.named taken).1 mem
    exact (mem_named_of_taken large.named taken').2
      ⟨listed there, namedAmong_mono ofCalls ofObjects ofEffects deserved⟩
  · rw [Plan.useCount, Plan.useCount, uses, uses']
    exact count_allUses_mono ofCalls ofObjects ofEffects x

/-! ## Plans of instances -/

/-- A call was made on an instance with these uses: it is one of them, or it resumed a generator that
is one of them. -/
inductive IsMadeOn (r : Recording) (uses : List Use) : CallId → Prop
  | call {id : CallId} (listed : .call id ∈ uses) : IsMadeOn r uses id
  | resumption {x : ObjectId} {o : Object} {activation : Option Activation} {resumptions : List CallId}
    {id : CallId} (listed : .generator x ∈ uses) (found : r.object? x = some o)
    (kind : o.kind = .generator activation resumptions) (resumed : id ∈ resumptions) :
    IsMadeOn r uses id

/-- The calls that a use stands for are those that were made by it. -/
theorem mem_callsOfUse {use : Use} {ids : List CallId} (answer : callsOfUse r use = .ok ids)
    {id : CallId} : id ∈ ids ↔ IsMadeOn r [use] id := by
  cases use with
  | call c =>
    cases answer
    constructor
    · intro mem
      rw [List.mem_singleton.1 mem]
      exact .call List.mem_cons_self
    · intro made
      cases made with
      | call listed =>
        cases List.mem_singleton.1 listed
        exact List.mem_cons_self
      | resumption listed => cases List.mem_singleton.1 listed
  | generator x =>
    obtain ⟨o, found, made⟩ := bind_eq_ok.1 answer
    have found := Recording.object_eq_ok.1 found
    constructor
    · intro mem
      split at made
      · rename_i activation resumptions kind
        cases made
        exact .resumption List.mem_cons_self found kind mem
      · cases made
        cases mem
    · intro resumed
      cases resumed with
      | call listed => cases List.mem_singleton.1 listed
      | @resumption _ _ activation resumptions _ listed found' kind mem =>
        cases List.mem_singleton.1 listed
        rw [found] at found'
        cases found'
        rw [kind] at made
        cases made
        exact mem

theorem isMadeOn_iff {uses : List Use} {id : CallId} :
    IsMadeOn r uses id ↔ ∃ use ∈ uses, IsMadeOn r [use] id := by
  constructor
  · intro made
    cases made with
    | call listed => exact ⟨_, listed, .call List.mem_cons_self⟩
    | resumption listed found kind resumed =>
      exact ⟨_, listed, .resumption List.mem_cons_self found kind resumed⟩
  · rintro ⟨use, listed, made⟩
    cases made with
    | call mem => exact .call (List.mem_singleton.1 mem ▸ listed)
    | resumption mem found kind resumed =>
      exact .resumption (List.mem_singleton.1 mem ▸ listed) found kind resumed

/-- What was made on an instance are calls of the recording. -/
theorem callsOfUses_sound (h : r.Sound) {x : ObjectId} {o : Object} (found : r.object? x = some o)
    {cls : ClassId} {init : Option CallId} {uses : List Use} (kind : o.kind = .user cls init uses) :
    ∃ lists, uses.mapM (callsOfUse r) = .ok lists ∧
      (∀ id, id ∈ lists.flatten ↔ IsMadeOn r uses id) ∧ ∀ id, IsMadeOn r uses id → r.HasCall id := by
  have sound := (h.objects found).2
  have objectRefs := sound.objectRefs
  have callRefs := sound.callRefs
  rw [kind] at objectRefs callRefs
  obtain ⟨lists, lists_eq⟩ := mapM_answers (f := callsOfUse r) (l := uses) fun use listed => by
    cases use with
    | call id => exact ⟨[id], rfl⟩
    | generator y =>
      obtain ⟨g, there⟩ := objectRefs y (List.mem_filterMap.2 ⟨_, listed, rfl⟩)
      have found : r.object y = .ok g := Recording.object_eq_ok.2 there
      simp only [callsOfUse, found, bind, Except.bind]
      cases g.kind with
      | generator => exact ⟨_, rfl⟩
      | _ => exact ⟨[], rfl⟩
  refine ⟨lists, lists_eq, fun id => ?_, fun id made => ?_⟩
  · rw [isMadeOn_iff, List.mem_flatten]
    constructor
    · rintro ⟨ids, listed, mem⟩
      obtain ⟨use, mem_use, answer⟩ := mem_of_mapM_eq_ok lists_eq listed
      exact ⟨use, mem_use, (mem_callsOfUse answer).1 mem⟩
    · rintro ⟨use, mem_use, made⟩
      obtain ⟨ids, listed, answer⟩ := exists_of_mapM_eq_ok lists_eq mem_use
      exact ⟨ids, listed, (mem_callsOfUse answer).2 made⟩
  · cases made with
    | call listed =>
      exact callRefs id (List.mem_append_right _ (List.mem_filterMap.2 ⟨_, listed, rfl⟩))
    | @resumption _ g _ _ _ listed there made resumed =>
      refine (h.objects there).2.callRefs id ?_
      rw [made]
      exact resumed

/-- There is a plan of an instance with all calls that were made on it. -/
theorem planForUserObject_sound (h : r.Sound) {x : ObjectId} {o : Object}
    (found : r.object? x = some o) {cls : ClassId} {init : Option CallId} {uses : List Use}
    (kind : o.kind = .user cls init uses) :
    ∃ ids : List CallId, ∃ calls plan objects effects,
      (∀ id, id ∈ ids ↔ IsMadeOn r uses id) ∧ ids.mapM r.findCall = .ok calls ∧
      planForUserObject r x = .ok plan ∧
      Covers r calls objects effects plan := by
  obtain ⟨lists, lists_eq, mem_lists, known⟩ := callsOfUses_sound h found kind
  have known : ∀ id ∈ lists.flatten, r.HasCall id := fun id mem => known id ((mem_lists id).1 mem)
  have there : ∀ y ∈ [x], r.HasObject y := by
    intro y mem
    rw [List.mem_singleton.1 mem]
    exact ⟨o, found⟩
  obtain ⟨calls, plan, objects, effects, calls_eq, plan_eq, covers⟩ := resolve_sound h known there
  refine ⟨lists.flatten, calls, plan, objects, effects, mem_lists, calls_eq, ?_, covers⟩
  have found : r.findObject x = .ok o := Recording.findObject_eq_ok.2 found
  rw [planForUserObject, found]
  simp only [bind, Except.bind, kind, lists_eq]
  exact plan_eq

end Setup

open Setup

namespace Watch

/-- For all calls of a recording there is a plan, and it is part of the plan for any more calls. For
every instance there is a plan, and the plans of the calls that were made on the instance are part of
it. -/
theorem plans_grow (w : Watch) (events : List Event) (r : Recording)
    (recorded : w.Records events r) :
    (∀ ids ids' : List CallId, (∀ id ∈ ids', r.HasCall id) → ids ⊆ ids' →
      ∃ p q, planForCalls r ids = .ok p ∧ planForCalls r ids' = .ok q ∧ p.IsPartOf q) ∧
    ∀ x o cls init uses, r.object? x = some o → o.kind = .user cls init uses →
      ∃ q, planForUserObject r x = .ok q ∧
        ∀ id, IsMadeOn r uses id → ∃ p, planForCall r id = .ok p ∧ p.IsPartOf q := by
  constructor
  · intro ids ids' known sub
    obtain ⟨calls, p, objects, effects, calls_eq, p_eq, small⟩ :=
      planForCalls_sound recorded.sound fun id mem => known id (sub mem)
    obtain ⟨others, q, objects', effects', others_eq, q_eq, large⟩ :=
      planForCalls_sound recorded.sound known
    refine ⟨p, q, p_eq, q_eq, small.isPartOf large.covers fun c mem => ?_⟩
    obtain ⟨id, listed, found⟩ := (mem_findCalls calls_eq).1 mem
    exact (mem_findCalls others_eq).2 ⟨id, sub listed, found⟩
  · intro x o cls init uses found kind
    obtain ⟨ids, others, q, objects', effects', mem_ids, others_eq, q_eq, covers⟩ :=
      planForUserObject_sound recorded.sound found kind
    obtain ⟨-, -, -, known⟩ := callsOfUses_sound recorded.sound found kind
    refine ⟨q, q_eq, fun id made => ?_⟩
    have known : ∀ other ∈ [id], r.HasCall other := by
      intro other mem
      rw [List.mem_singleton.1 mem]
      exact known id made
    obtain ⟨calls, p, objects, effects, calls_eq, p_eq, small⟩ :=
      planForCalls_sound recorded.sound known
    refine ⟨p, p_eq, small.isPartOf covers fun c mem => ?_⟩
    obtain ⟨other, listed, found⟩ := (mem_findCalls calls_eq).1 mem
    rw [List.mem_singleton.1 listed] at found
    exact (mem_findCalls others_eq).2 ⟨id, (mem_ids id).2 made, found⟩

theorem plans_grow_owned : Owned.watch.Records Owned.stream.events Owned.written ∧
    (∃ p q, planForCalls Owned.written [⟨1⟩] = .ok p ∧
      planForCalls Owned.written [⟨0⟩, ⟨1⟩] = .ok q ∧ p.IsPartOf q) ∧
    ∃ q, planForUserObject Owned.written ⟨1⟩ = .ok q ∧
      ∃ p, planForCall Owned.written ⟨0⟩ = .ok p ∧ p.IsPartOf q := by
  have recorded : Owned.watch.Records Owned.stream.events Owned.written :=
    Owned.recording_eq ▸ Owned.records
  obtain ⟨ofCalls, ofInstances⟩ :=
    plans_grow Owned.watch Owned.stream.events Owned.written recorded
  obtain ⟨q, q_eq, parts⟩ := ofInstances ⟨1⟩ Owned.boxObject ⟨0⟩ none [.generator ⟨0⟩] rfl rfl
  -- the generator that a method of the instance made was resumed once
  have resumed : IsMadeOn Owned.written [.generator ⟨0⟩] ⟨0⟩ :=
    .resumption List.mem_cons_self rfl rfl List.mem_cons_self
  refine ⟨recorded, ofCalls [⟨1⟩] [⟨0⟩, ⟨1⟩] ?_ (by decide), q, q_eq, parts ⟨0⟩ resumed⟩
  simp only [Recording.hasCall_iff]
  decide

end Watch

end Reenact
