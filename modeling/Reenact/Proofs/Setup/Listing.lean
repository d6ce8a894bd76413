import Reenact.Proofs.Setup.Extent

/-!
# What the lists of a plan keep

A plan lists its closure, the entries of its setup, and the objects with names. The entries leave out
the objects without names, and put lists together with appends, so they are fewer than the closure.

**The law** (`plan_isFaithful`): both lists are strictly in the order of the recording and stop where
the last of the calls ended. The entries repeat the side effects of the closure, each once and in
order, and the objects that a side effect changes are listed in front of it, with names where they have
an identity.
-/

namespace Reenact

namespace Setup

open Recording (effect_eq_ok object_eq_ok)

variable {r : Recording} {calls : List Call} {objects : List Object} {effects : List Effect}
  {plan : Plan} {entries : List Entry}

/-- The lists of a plan are in order and stop in time, and no side effect is lost. -/
structure Plan.IsFaithful (r : Recording) (calls : List Call) (plan : Plan) : Prop where
  closureOrdered : plan.closure.Pairwise (Precedes r)
  allOrdered : plan.all.Pairwise (Precedes r)
  /-- Every entry was recorded before the last of the calls ended. -/
  inTime : ∀ entry ∈ plan.closure ++ plan.all, ∃ m, entry.moment r = .ok m ∧ IsInTime calls m
  /-- The objects with names are those that the entries make. -/
  named : plan.named = plan.all.filterMap Entry.object?
  /-- The entries repeat the side effects of the closure, in order. -/
  repeats : plan.all.flatMap Entry.repeats = plan.effects
  repeatsOnce : plan.effects.Nodup
  /-- What a side effect changes is listed in front of it. -/
  changed : ∀ front e rest, plan.closure = front ++ .effect e.id :: rest →
    r.effect? e.id = some e → ∀ x ∈ e.affected, .object x ∈ front
  /-- What a side effect changes has a name, unless it has no identity. -/
  changedNamed : ∀ e, .effect e.id ∈ plan.closure → r.effect? e.id = some e →
    ∀ x ∈ e.affected, x ∈ plan.named ∨ ∃ o, r.object? x = some o ∧ o.kind.isImmutable = true

/-! ## Order -/

theorem Precedes.congr {a a' b b' : Entry} (first : a'.moment r = a.moment r)
    (second : b'.moment r = b.moment r) (h : Precedes r a b) : Precedes r a' b' := by
  obtain ⟨m, n, older, newer, before⟩ := h
  exact ⟨m, n, first.trans older, second.trans newer, before⟩

/-- Entries are in order when what they were put together from is. -/
theorem ordered_of_unfold (h : (entries.flatMap Entry.unfold).Pairwise (Precedes r)) :
    entries.Pairwise (Precedes r) := by
  induction entries with
  | nil => exact .nil
  | cons entry rest ih =>
    rw [List.flatMap_cons, List.pairwise_append] at h
    obtain ⟨-, others, across⟩ := h
    refine List.pairwise_cons.2 ⟨fun later mem => ?_, ih others⟩
    obtain ⟨first, _, unfold_eq, moment⟩ := exists_unfold_eq r entry
    obtain ⟨first', _, unfold_eq', moment'⟩ := exists_unfold_eq r later
    refine (across first ?_ first' ?_).congr moment.symm moment'.symm
    · exact unfold_eq ▸ List.mem_cons_self
    · exact List.mem_flatMap.2 ⟨later, mem, unfold_eq' ▸ List.mem_cons_self⟩

/-- In entries in order, one that precedes another is listed in front of it. -/
theorem mem_front_of_ordered {front rest : List Entry} {a b : Entry}
    (ordered : (front ++ b :: rest).Pairwise (Precedes r)) (mem : a ∈ front ++ b :: rest)
    (precedes : Precedes r a b) : a ∈ front := by
  rcases List.mem_append.1 mem with ahead | mem
  · exact ahead
  · rcases List.mem_cons.1 mem with rfl | behind
    · exact precedes.irrefl.elim
    · have later := List.rel_of_pairwise_cons (List.pairwise_append.1 ordered).2.1 behind
      exact (precedes.asymm later).elim

/-! ## The side effects of entries -/

theorem flatMap_repeats : entries.flatMap Entry.repeats =
    (entries.flatMap Entry.unfold).filterMap Entry.effect? := by
  induction entries with
  | nil => rfl
  | cons entry rest ih =>
    rw [List.flatMap_cons, List.flatMap_cons, List.filterMap_append, filterMap_effect?_unfold, ih]

/-- Leaving out objects leaves the side effects. -/
theorem filterMap_effect?_filter (named : List ObjectId) :
    (entries.filter (isKept named)).filterMap Entry.effect? = entries.filterMap Entry.effect? := by
  rw [List.filterMap_filter]
  refine List.filterMap_congr fun entry _ => ?_
  cases entry with
  | object x => exact ite_self _
  | effect => rfl
  | grown => rfl

theorem effect?_eq_some {entry : Entry} {y : EffectId} :
    entry.effect? = some y ↔ entry = .effect y := by
  cases entry <;> simp [Entry.effect?]

/-- What a recorded side effect changes it refers to. -/
theorem affected_subset_referenced (h : r.Sound) {y : EffectId} {e : Effect}
    (found : r.effect? y = some e) : e.affected ⊆ e.referenced := by
  obtain ⟨affected, referenced⟩ := (h.effects found).2.ofChange
  rw [affected, referenced]
  exact e.change.affected_subset_referenced

/-! ## Names -/

/-- The objects with names are listed, and the calls, the objects and the side effects give them
one. -/
theorem mem_named_of_taken (named : plan.named = plan.all.filterMap Entry.object?)
    {among : List ObjectId}
    (taken : plan.all.flatMap Entry.unfold = plan.closure.filter (isKept among)) {x : ObjectId} :
    x ∈ plan.named ↔ .object x ∈ plan.closure ∧ x ∈ among := by
  have made : x ∈ plan.named ↔ .object x ∈ plan.all.flatMap Entry.unfold := by
    simp only [named, List.mem_filterMap, List.mem_flatMap, object_mem_unfold]
  rw [made, taken, List.mem_filter]
  exact and_congr_right fun _ => List.contains_iff_mem

namespace IsPlanOf

/-- An object gets a name when it is listed and the calls, the objects and the side effects give it
one. -/
theorem mem_named_iff (isPlan : IsPlanOf r calls objects effects plan) {earlier : List Call}
    (taken : plan.all.flatMap Entry.unfold =
      plan.closure.filter (isKept (namedAmong earlier objects effects))) {x : ObjectId} :
    x ∈ plan.named ↔ .object x ∈ plan.closure ∧ x ∈ namedAmong earlier objects effects :=
  mem_named_of_taken isPlan.named taken

/-- A listed side effect is one of the plan. -/
theorem effect_mem (isPlan : IsPlanOf r calls objects effects plan) {e : Effect}
    (mem : .effect e.id ∈ plan.closure) (found : r.effect? e.id = some e) :
    e ∈ effects ∧ IsInTime calls e.moment := by
  obtain ⟨f, listed, inTime, same⟩ := isPlan.effect_mem_closure.1 mem
  obtain rfl := isPlan.recorded.effect_eq listed (same ▸ found)
  exact ⟨listed, inTime⟩

/-- The working set of a plan and its side effects are closed. -/
theorem isClosed (isPlan : IsPlanOf r calls objects effects plan) :
    IsClosed r calls {x | ∃ o ∈ objects, o.id = x} {y | ∃ e ∈ effects, e.id = y} :=
  isPlan.least.1

/-- What a listed side effect refers to is listed, and older than the side effect. -/
theorem object_mem_of_referenced (h : r.Sound) (isPlan : IsPlanOf r calls objects effects plan)
    {e : Effect} (mem : .effect e.id ∈ plan.closure) (found : r.effect? e.id = some e) {x : ObjectId}
    (referenced : x ∈ e.referenced) :
    .object x ∈ plan.closure ∧ Precedes r (.object x) (.effect e.id) := by
  obtain ⟨listed, inTime⟩ := isPlan.effect_mem mem found
  obtain ⟨o', member, rfl⟩ := isPlan.isClosed.referenced e.id ⟨e, listed, rfl⟩ e found x referenced
  obtain ⟨o, there, older⟩ := (h.effects found).2.referenced o'.id referenced
  obtain rfl := isPlan.recorded.object_eq member there
  refine ⟨isPlan.object_mem_closure.2 ⟨o, member, inTime.of_before older, rfl⟩, ?_⟩
  exact ⟨o.moment, e.moment, map_eq_ok.2 ⟨o, object_eq_ok.2 there, rfl⟩,
    map_eq_ok.2 ⟨e, effect_eq_ok.2 found, rfl⟩, older⟩

/-- What a listed side effect changes has a name, unless it has no identity. -/
theorem named_of_affected (h : r.Sound) (isPlan : IsPlanOf r calls objects effects plan) {e : Effect}
    (mem : .effect e.id ∈ plan.closure) (found : r.effect? e.id = some e) {x : ObjectId}
    (affected : x ∈ e.affected) :
    x ∈ plan.named ∨ ∃ o, r.object? x = some o ∧ o.kind.isImmutable = true := by
  obtain ⟨inside, -⟩ :=
    isPlan.object_mem_of_referenced h mem found (affected_subset_referenced h found affected)
  obtain ⟨o, member, -, rfl⟩ := isPlan.object_mem_closure.1 inside
  cases identity : o.kind.isImmutable with
  | true => exact .inr ⟨o, isPlan.recorded.made o member, identity⟩
  | false =>
    obtain ⟨earlier, -, taken⟩ := isPlan.naming
    refine .inl ((isPlan.mem_named_iff taken).2 ⟨inside, ?_⟩)
    have changes : (effects.flatMap Effect.affected).contains o.id = true :=
      List.contains_iff_mem.2 (List.mem_flatMap.2 ⟨e, (isPlan.effect_mem mem found).1, affected⟩)
    refine List.mem_map_of_mem (List.mem_filter.2 ⟨member, ?_⟩)
    rw [deservesName, identity, changes, Bool.or_true, Bool.true_or]
    rfl

/-! ## Faithful lists -/

theorem unfold_subset_closure (isPlan : IsPlanOf r calls objects effects plan) :
    plan.all.flatMap Entry.unfold ⊆ plan.closure := by
  obtain ⟨named, taken⟩ := isPlan.taken
  rw [taken]
  exact List.filter_subset_self _

/-- Every listed entry was recorded before the last of the calls ended. -/
theorem inTime_of_mem_closure (isPlan : IsPlanOf r calls objects effects plan) {entry : Entry}
    (mem : entry ∈ plan.closure) : ∃ m, entry.moment r = .ok m ∧ IsInTime calls m := by
  cases isPlan.mem_closure_iff.1 mem with
  | @object _ o _ found inTime =>
    exact ⟨o.moment, map_eq_ok.2 ⟨o, object_eq_ok.2 found, rfl⟩, inTime⟩
  | @effect _ e _ found inTime =>
    exact ⟨e.moment, map_eq_ok.2 ⟨e, effect_eq_ok.2 found, rfl⟩, inTime⟩

theorem isFaithful (h : r.Sound) (isPlan : IsPlanOf r calls objects effects plan) :
    plan.IsFaithful r calls where
  closureOrdered := isPlan.closure_ordered h
  allOrdered := by
    obtain ⟨named, taken⟩ := isPlan.taken
    apply ordered_of_unfold
    rw [taken]
    exact (isPlan.closure_ordered h).filter _
  inTime := by
    intro entry mem
    rcases List.mem_append.1 mem with mem | mem
    · exact isPlan.inTime_of_mem_closure mem
    · obtain ⟨first, _, unfold_eq, moment⟩ := exists_unfold_eq r entry
      have inside := isPlan.unfold_subset_closure
        (List.mem_flatMap.2 ⟨entry, mem, unfold_eq ▸ List.mem_cons_self⟩)
      rw [← moment]
      exact isPlan.inTime_of_mem_closure inside
  named := isPlan.named
  repeats := by
    obtain ⟨named, taken⟩ := isPlan.taken
    rw [flatMap_repeats, taken, filterMap_effect?_filter]
    rfl
  repeatsOnce := by
    refine (isPlan.closure_ordered h).nodup.filterMap ?_
    intro first second y made made'
    rw [Option.mem_def, effect?_eq_some] at made made'
    exact made.trans made'.symm
  changed := by
    intro front e rest split found x affected
    have mem : .effect e.id ∈ plan.closure := split ▸ List.mem_append_right _ List.mem_cons_self
    obtain ⟨inside, older⟩ :=
      isPlan.object_mem_of_referenced h mem found (affected_subset_referenced h found affected)
    have ordered := isPlan.closure_ordered h
    rw [split] at inside ordered
    exact mem_front_of_ordered ordered inside older
  changedNamed := by
    intro e mem found x affected
    exact isPlan.named_of_affected h mem found affected

end IsPlanOf

end Setup

open Setup

namespace Watch

/-- For all calls of a recording there is a plan, and its lists are in order, stop where the last of
the calls ended, and lose no side effect. -/
theorem plan_isFaithful (w : Watch) (events : List Event) (r : Recording)
    (recorded : w.Records events r) (ids : List CallId) (known : ∀ id ∈ ids, r.HasCall id) :
    ∃ calls plan, ids.mapM r.findCall = .ok calls ∧ planForCalls r ids = .ok plan ∧
      plan.IsFaithful r calls := by
  obtain ⟨calls, plan, objects, effects, calls_eq, plan_eq, isPlan⟩ :=
    planForCalls_sound recorded.sound known
  exact ⟨calls, plan, calls_eq, plan_eq, isPlan.isFaithful recorded.sound⟩

theorem plan_isFaithful_aside : Aside.watch.Records Aside.stream.events Aside.recording ∧
    (∀ id ∈ [⟨1⟩, ⟨0⟩], Aside.recording.HasCall id) ∧
    ∃ calls plan, [⟨1⟩, ⟨0⟩].mapM Aside.recording.findCall = .ok calls ∧
      planForCalls Aside.recording [⟨1⟩, ⟨0⟩] = .ok plan ∧ plan.IsFaithful Aside.recording calls :=
  ⟨Aside.records, Aside.known, plan_isFaithful Aside.watch Aside.stream.events Aside.recording
    Aside.records [⟨1⟩, ⟨0⟩] Aside.known⟩

end Watch

end Reenact
