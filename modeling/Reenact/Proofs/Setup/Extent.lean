import Mathlib.Data.List.Sort
import Reenact.Proofs.Setup.History

/-!
# What a closure lists

The closure of calls lists what is in the least working set and the least side effects, and was
recorded before the last of the calls ended (`IsListed`). These sets depend on which calls there are,
and the order of the list on when its members were recorded.

**The law** (`closure_lists_least_sets`): the closure has exactly these members, and neither the order
in which the calls are given nor giving one of them twice changes it.
-/

namespace Reenact

namespace Setup

open Recording (findCall_eq_ok)

variable {r : Recording} {calls others : List Call} {objects : List Object} {effects : List Effect}
  {plan : Plan} {W : Set ObjectId} {I : Set EffectId}

/-! ## The horizon -/

/-- One of the calls ended after the moment, or has not ended. -/
def IsInTime (calls : List Call) (m : Moment) : Prop :=
  ∃ c ∈ calls, ∀ done, c.completedAt = some done → m.before done

theorem isInTime_cons {c : Call} {m : Moment} : IsInTime (c :: calls) m ↔
    (∀ done, c.completedAt = some done → m.before done) ∨ IsInTime calls m := by
  simp only [IsInTime, List.exists_mem_cons_iff]

/-- What was recorded earlier than something in time was recorded in time. -/
theorem IsInTime.of_before {m n : Moment} (h : IsInTime calls n) (before : m.before n) :
    IsInTime calls m := by
  obtain ⟨c, mem, late⟩ := h
  refine ⟨c, mem, fun done ended => ?_⟩
  have later := late done ended
  rw [Moment.before_iff] at before later ⊢
  exact Nat.lt_trans before later

/-- What lies before the later of two moments lies before one of them. -/
theorem before_later_iff {m first second : Moment} :
    m.before (if first.before second then second else first) ↔
      m.before first ∨ m.before second := by
  split <;> rename_i order <;> simp only [Moment.before_iff] at order ⊢ <;> omega

theorem isBefore_eq_true {bound : Option Moment} {m : Moment} :
    isBefore bound m = true ↔ ∀ done, bound = some done → m.before done := by
  cases bound with
  | none =>
    constructor
    · rintro - done ⟨⟩
    · intro _
      rfl
  | some limit =>
    constructor
    · rintro before done ⟨⟩
      exact before
    · intro all
      exact all limit rfl

theorem horizon_cons {c : Call} (nonempty : calls ≠ []) : horizon (c :: calls) =
    c.completedAt.bind fun done => (horizon calls).map fun later =>
      if done.before later then later else done := by
  cases calls with
  | nil => exact absurd rfl nonempty
  | cons d rest =>
    rw [horizon]
    · simp only [Option.map_eq_bind]
      rfl
    · exact nonempty

/-- The horizon is the end of the last call, and there is none when a call has not ended. -/
theorem isBefore_horizon_iff (nonempty : calls ≠ []) {m : Moment} :
    isBefore (horizon calls) m = true ↔ IsInTime calls m := by
  induction calls with
  | nil => exact absurd rfl nonempty
  | cons c rest ih =>
    rw [isInTime_cons]
    by_cases last : rest = []
    · subst last
      rw [horizon, isBefore_eq_true]
      refine (or_iff_left ?_).symm
      rintro ⟨d, mem, -⟩
      cases mem
    · rw [← ih last, horizon_cons last]
      cases ended : c.completedAt with
      | none =>
        refine iff_of_true rfl (.inl ?_)
        rintro done ⟨⟩
      | some first =>
        cases horizon rest with
        | none => exact iff_of_true rfl (.inr rfl)
        | some second =>
          simp only [Option.some.injEq, forall_eq']
          exact before_later_iff

/-! ## The calls of a plan -/

theorem mem_findCalls {ids : List CallId} (h : ids.mapM r.findCall = .ok calls) {c : Call} :
    c ∈ calls ↔ ∃ id ∈ ids, r.call? id = some c := by
  constructor
  · intro mem
    obtain ⟨id, listed, found⟩ := mem_of_mapM_eq_ok h mem
    exact ⟨id, listed, findCall_eq_ok.1 found⟩
  · rintro ⟨id, listed, found⟩
    obtain ⟨c', mem, found'⟩ := exists_of_mapM_eq_ok h listed
    rw [findCall_eq_ok.1 found'] at found
    cases found
    exact mem

theorem IsInTime.of_subset {m : Moment} (sub : calls ⊆ others) (h : IsInTime calls m) :
    IsInTime others m := by
  obtain ⟨c, mem, before⟩ := h
  exact ⟨c, sub mem, before⟩

/-- What is closed for calls is closed for some of them. -/
theorem IsClosed.of_subset (sub : calls ⊆ others) (h : IsClosed r others W I) :
    IsClosed r calls W I where
  starts c mem := h.starts c (sub mem)
  outcome c mem := h.outcome c (sub mem)
  ingredients := h.ingredients
  effects c mem := h.effects c (sub mem)
  referenced := h.referenced

/-- Nothing is needed for no calls. -/
theorem isClosed_nil : IsClosed r [] ∅ ∅ where
  starts _ mem := (List.not_mem_nil mem).elim
  outcome _ mem := (List.not_mem_nil mem).elim
  ingredients _ mem := mem.elim
  effects _ mem := (List.not_mem_nil mem).elim
  referenced _ mem := mem.elim

/-! ## The members of a closure -/

/-- The entry is in the working set or among the side effects, and was recorded in time. -/
inductive IsListed (r : Recording) (calls : List Call) (W : Set ObjectId) (I : Set EffectId) :
    Entry → Prop
  | object {x : ObjectId} {o : Object} (member : x ∈ W) (found : r.object? x = some o)
    (inTime : IsInTime calls o.moment) : IsListed r calls W I (.object x)
  | effect {y : EffectId} {e : Effect} (member : y ∈ I) (found : r.effect? y = some e)
    (inTime : IsInTime calls e.moment) : IsListed r calls W I (.effect y)

theorem IsListed.of_subset (sub : calls ⊆ others) {entry : Entry} (h : IsListed r calls W I entry) :
    IsListed r others W I entry := by
  cases h with
  | object member found inTime => exact .object member found (inTime.of_subset sub)
  | effect member found inTime => exact .effect member found (inTime.of_subset sub)

namespace IsPlanOf

/-- The plan of no calls has an empty working set and no side effects. -/
theorem of_nil (isPlan : IsPlanOf r [] objects effects plan) : objects = [] ∧ effects = [] := by
  obtain ⟨members, included⟩ := isPlan.least.2 (show (∅, ∅) ∈ _ from isClosed_nil)
  exact ⟨List.eq_nil_iff_forall_not_mem.2 fun o mem => members ⟨o, mem, rfl⟩,
    List.eq_nil_iff_forall_not_mem.2 fun e mem => included ⟨e, mem, rfl⟩⟩

theorem object_mem_closure (isPlan : IsPlanOf r calls objects effects plan) {x : ObjectId} :
    .object x ∈ plan.closure ↔ ∃ o ∈ objects, IsInTime calls o.moment ∧ o.id = x := by
  rw [isPlan.closure, object_mem_orderedEntries]
  by_cases none : calls = []
  · subst none
    simp only [isPlan.of_nil.1, List.not_mem_nil, false_and, exists_false]
  · simp only [isBefore_horizon_iff none]

theorem effect_mem_closure (isPlan : IsPlanOf r calls objects effects plan) {y : EffectId} :
    .effect y ∈ plan.closure ↔ ∃ e ∈ effects, IsInTime calls e.moment ∧ e.id = y := by
  rw [isPlan.closure, effect_mem_orderedEntries]
  by_cases none : calls = []
  · subst none
    simp only [isPlan.of_nil.2, List.not_mem_nil, false_and, exists_false]
  · simp only [isBefore_horizon_iff none]

/-- The closure lists the least sets, as far as they were recorded in time. -/
theorem mem_closure_iff (isPlan : IsPlanOf r calls objects effects plan) {entry : Entry} :
    entry ∈ plan.closure ↔
      IsListed r calls {x | ∃ o ∈ objects, o.id = x} {y | ∃ e ∈ effects, e.id = y} entry := by
  constructor
  · intro mem
    cases entry with
    | object x =>
      obtain ⟨o, listed, inTime, rfl⟩ := isPlan.object_mem_closure.1 mem
      exact .object ⟨o, listed, rfl⟩ (isPlan.recorded.made o listed) inTime
    | effect y =>
      obtain ⟨e, listed, inTime, rfl⟩ := isPlan.effect_mem_closure.1 mem
      exact .effect ⟨e, listed, rfl⟩ (isPlan.recorded.repeated e listed) inTime
    | grown list =>
      rw [isPlan.closure] at mem
      cases (single_of_mem_orderedEntries isPlan.recorded mem).2
  · intro isListed
    cases isListed with
    | @object _ o member found inTime =>
      obtain ⟨o', listed, rfl⟩ := member
      obtain rfl := isPlan.recorded.object_eq listed found
      exact isPlan.object_mem_closure.2 ⟨o, listed, inTime, rfl⟩
    | @effect _ e member found inTime =>
      obtain ⟨e', listed, rfl⟩ := member
      obtain rfl := isPlan.recorded.effect_eq listed found
      exact isPlan.effect_mem_closure.2 ⟨e, listed, inTime, rfl⟩

theorem closure_ordered (h : r.Sound) (isPlan : IsPlanOf r calls objects effects plan) :
    plan.closure.Pairwise (Precedes r) := by
  rw [isPlan.closure]
  exact orderedEntries_ordered h isPlan.recorded

end IsPlanOf

/-! ## The order of the calls -/

/-- Plans for the same calls, in whatever order, have one closure. -/
theorem closure_eq_of_same_calls (h : r.Sound) {objects' : List Object} {effects' : List Effect}
    {plan' : Plan} (isPlan : IsPlanOf r calls objects effects plan)
    (isPlan' : IsPlanOf r others objects' effects' plan') (sub : calls ⊆ others)
    (sub' : others ⊆ calls) : plan.closure = plan'.closure := by
  have closed_iff (W : Set ObjectId) (I : Set EffectId) :
      IsClosed r others W I ↔ IsClosed r calls W I := ⟨.of_subset sub, .of_subset sub'⟩
  have least := isPlan'.least
  simp only [closed_iff] at least
  obtain ⟨objects_eq, effects_eq⟩ := Prod.mk.inj (isPlan.least.unique least)
  refine (isPlan.closure_ordered h).eq_of_mem_iff (isPlan'.closure_ordered h) fun entry => ?_
  rw [isPlan.mem_closure_iff, isPlan'.mem_closure_iff, objects_eq, effects_eq]
  exact ⟨.of_subset sub, .of_subset sub'⟩

end Setup

open Setup

namespace Watch

/-- For all calls of a recording there is a plan, and its closure lists the least working set and the
least side effects that the rules allow, as far as they were recorded before the last of the calls
ended. The same calls in another order have the same closure. -/
theorem closure_lists_least_sets (w : Watch) (events : List Event) (r : Recording)
    (recorded : w.Records events r) (ids : List CallId) (known : ∀ id ∈ ids, r.HasCall id) :
    ∃ calls plan W I, ids.mapM r.findCall = .ok calls ∧ planForCalls r ids = .ok plan ∧
      IsLeast {p : Set ObjectId × Set EffectId | IsClosed r calls p.1 p.2} (W, I) ∧
      (∀ entry, entry ∈ plan.closure ↔ IsListed r calls W I entry) ∧
      ∀ ids', (∀ id, id ∈ ids' ↔ id ∈ ids) →
        ∃ plan', planForCalls r ids' = .ok plan' ∧ plan'.closure = plan.closure := by
  obtain ⟨calls, plan, objects, effects, calls_eq, plan_eq, isPlan⟩ :=
    planForCalls_sound recorded.sound known
  refine ⟨calls, plan, _, _, calls_eq, plan_eq, isPlan.least, fun _ => isPlan.mem_closure_iff, ?_⟩
  intro ids' same
  have known' : ∀ id ∈ ids', r.HasCall id := fun id mem => known id ((same id).1 mem)
  obtain ⟨others, plan', objects', effects', others_eq, plan_eq', isPlan'⟩ :=
    planForCalls_sound recorded.sound known'
  have mem_iff (c : Call) : c ∈ others ↔ c ∈ calls := by
    rw [mem_findCalls others_eq, mem_findCalls calls_eq]
    simp only [same]
  refine ⟨plan', plan_eq', ?_⟩
  exact closure_eq_of_same_calls recorded.sound isPlan' isPlan (fun c => (mem_iff c).1)
    fun c => (mem_iff c).2

theorem closure_lists_least_sets_aside : Aside.watch.Records Aside.stream.events Aside.recording ∧
    (∀ id ∈ [⟨1⟩, ⟨0⟩], Aside.recording.HasCall id) ∧
    ∃ calls plan W I, [⟨1⟩, ⟨0⟩].mapM Aside.recording.findCall = .ok calls ∧
      planForCalls Aside.recording [⟨1⟩, ⟨0⟩] = .ok plan ∧
      IsLeast {p : Set ObjectId × Set EffectId | IsClosed Aside.recording calls p.1 p.2} (W, I) ∧
      (∀ entry, entry ∈ plan.closure ↔ IsListed Aside.recording calls W I entry) ∧
      ∀ ids', (∀ id, id ∈ ids' ↔ id ∈ [⟨1⟩, ⟨0⟩]) →
        ∃ plan', planForCalls Aside.recording ids' = .ok plan' ∧ plan'.closure = plan.closure :=
  ⟨Aside.records, Aside.known, closure_lists_least_sets Aside.watch Aside.stream.events
    Aside.recording Aside.records [⟨1⟩, ⟨0⟩] Aside.known⟩

end Watch

end Reenact
