import Mathlib.Order.Bounds.Basic
import Reenact.Proofs.Setup.Ingredients

/-!
# The closure is least

What calls under test need is given by five rules. The working set holds what the calls start from,
and the objects in what they ended with that are older than they are. It holds what its members are
made again from. A side effect that may have shaped the world of a call is included once it affects a
member, and what an included side effect refers to is a member. `IsClosed` states these rules of any
two sets, without saying how such sets are found.

**The law** (`closure_isLeast`): the search ends with the least sets that the rules allow. One half
says that the result is closed under each rule, so the walk past late subcalls, the marking of what has
been visited and the limit on the rounds lose nothing. The other half says that every member is forced,
because each step of the search only adds what any closed sets hold (`IsForced`).
-/

namespace Reenact

/-- The second call is the caller of the first. -/
def Recording.CalledFrom (r : Recording) (a b : CallId) : Prop :=
  ∃ c, r.call? a = some c ∧ c.caller = some b

namespace Setup

open Recording

variable {r : Recording} {calls : List Call} {W : Set ObjectId} {I : Set EffectId}

/-! ## The rules -/

/-- `top` is met on the way from a call to its caller, the caller of that, and so on, and has no
caller itself. -/
def IsOutermost (r : Recording) (id top : CallId) : Prop :=
  Relation.ReflTransGen r.CalledFrom id top ∧ ∃ c, r.call? top = some c ∧ c.caller = none

/-- The side effect may have shaped the world of the call: it was seen outside of all calls before the
call ended, or before the call started and inside the outermost call around it, or in the call or inside
it. -/
def MayShape (r : Recording) (c : Call) (e : Effect) : Prop :=
  r.effect? e.id = some e ∧
    ((e.id ∈ r.rootEffects ∧ ∀ done, c.completedAt = some done → e.moment.before done) ∨
      (∃ top, IsOutermost r c.id top ∧ IsOwnedInside r top e.id ∧ e.moment.before c.moment) ∨
      IsOwnedInside r c.id e.id)

/-- The second object is a part of the first, which did not exist before the moment. -/
def LatePart (r : Recording) (m : Moment) (a b : ObjectId) : Prop :=
  ∃ o, r.object? a = some o ∧ ¬o.moment.before m ∧ b ∈ o.parts

/-- The object is older than the call, and is met in what the call ended with by going on to the parts
of objects that are not older. -/
def IsOldPart (r : Recording) (c : Call) (x : ObjectId) : Prop :=
  ∃ outcome, c.outcome = some outcome ∧
    Relation.ReflTransGen (LatePart r c.moment) outcome.object x ∧ r.HasOlder x c.moment

/-- What the members of the set are made again from is in the set. -/
def HoldsIngredients (r : Recording) (W : Set ObjectId) : Prop :=
  ∀ x ∈ W, ∀ o, r.object? x = some o → ∀ y ∈ ingredients r o, y ∈ W

/-- The objects and the side effects hold all that it takes to repeat the calls. -/
structure IsClosed (r : Recording) (calls : List Call) (W : Set ObjectId) (I : Set EffectId) :
    Prop where
  /-- The arguments, the receiver and the generator of each call. -/
  starts : ∀ c ∈ calls, ∀ x ∈ c.startsFrom, x ∈ W
  /-- What was there before a call in what it ended with. -/
  outcome : ∀ c ∈ calls, ∀ x, IsOldPart r c x → x ∈ W
  /-- What objects are made again from. -/
  ingredients : HoldsIngredients r W
  /-- The side effects that affect an object. -/
  effects : ∀ c ∈ calls, ∀ e, MayShape r c e → (∃ x ∈ e.affected, x ∈ W) → e.id ∈ I
  /-- What side effects refer to. -/
  referenced : ∀ y ∈ I, ∀ e, r.effect? y = some e → ∀ x ∈ e.referenced, x ∈ W

/-! ## Candidates -/

/-- On a sound recording the walk from caller to caller ends at the outermost call. -/
theorem isOutermost_iff (h : r.Sound) {id : CallId} (known : r.HasCall id) {top : CallId} :
    IsOutermost r id top ↔ top = outermost r id := by
  fun_induction outermost r id with
  | case1 id missing =>
    obtain ⟨c, found⟩ := known
    rw [missing] at found
    cases found
  | case2 id c found outer =>
    constructor
    · rintro ⟨path, -⟩
      rcases Relation.ReflTransGen.cases_head path with rfl | ⟨next, ⟨c', found', caller⟩, -⟩
      · rfl
      · rw [found] at found'
        cases found'
        rw [outer] at caller
        cases caller
    · rintro rfl
      exact ⟨.refl, c, found, outer⟩
  | case3 id c found caller eq lt ih =>
    rw [← ih (hasCall_iff.2 (Nat.lt_trans lt (hasCall_iff.1 known)))]
    have edge : r.CalledFrom id caller := ⟨c, found, eq⟩
    constructor
    · rintro ⟨path, d, there, outer⟩
      rcases Relation.ReflTransGen.cases_head path with rfl | ⟨next, ⟨c', found', caller'⟩, rest⟩
      · rw [found] at there
        cases there
        rw [eq] at outer
        cases outer
      · rw [found] at found'
        cases found'
        rw [eq] at caller'
        cases caller'
        exact ⟨rest, d, there, outer⟩
    · rintro ⟨path, outer⟩
      exact ⟨.head edge path, outer⟩
  | case4 id c found caller eq notOlder =>
    obtain ⟨rfl, sound⟩ := h.calls found
    exact absurd (sound.caller caller eq) notOlder

/-- The candidates that the search looks at are the side effects that may have shaped a call. -/
theorem mayShape_iff (h : r.Sound) {c : Call} (known : r.HasCall c.id) {e : Effect} :
    MayShape r c e ↔ IsCandidate r c.id c e := by
  simp only [MayShape, IsCandidate, isOutermost_iff h known, exists_eq_left]

/-! ## Adding objects -/

/-- The objects with these numbers. -/
def membersOf (objects : List Nat) : Set ObjectId := {x | x.index ∈ objects}

theorem membersOf_indices (ids : List ObjectId) : membersOf (indices ids) = {x | x ∈ ids} := by
  ext x
  constructor
  · intro mem
    obtain ⟨y, inside, same⟩ := List.mem_map.1 mem
    rwa [← show y = x from congrArg ObjectId.mk same]
  · intro inside
    exact List.mem_map_of_mem inside

theorem addNeeded_nil {objects : List Nat} : addNeeded r objects [] = .ok objects := by
  unfold addNeeded
  exact Graph.reach.eq_1 ..

/-- Adding objects with all that they need keeps a set closed. -/
theorem addNeeded_holdsIngredients (h : r.Sound) {objects result : List Nat}
    {pending : List ObjectId} (answer : addNeeded r objects pending = .ok result)
    (old : HoldsIngredients r (membersOf objects)) : HoldsIngredients r (membersOf result) := by
  have walk : Graph.reach r.objects.size (nextNeeded r) missingObject objects (indices pending) =
      .ok result := answer
  intro x mem o found y inside
  by_cases seen : x.index ∈ objects
  · exact (Graph.subset_reach walk).1 (old x seen o found y inside)
  · obtain ⟨-, successors, step, all⟩ := Graph.reach_closed walk mem seen
    obtain ⟨successors', step', leads⟩ := (leads_nextNeeded h).2 ⟨o, found, inside⟩
    rw [step] at step'
    cases step'
    exact all leads

/-- What is added is in every closed set that holds what it is added to and for. -/
theorem addNeeded_within (h : r.Sound) {objects result : List Nat} {pending : List ObjectId}
    (answer : addNeeded r objects pending = .ok result) (closed : HoldsIngredients r W)
    (old : membersOf objects ⊆ W) (new : ∀ x ∈ pending, x ∈ W) : membersOf result ⊆ W := by
  have walk : Graph.reach r.objects.size (nextNeeded r) missingObject objects (indices pending) =
      .ok result := answer
  have step (n m : Nat) (mem : (⟨n⟩ : ObjectId) ∈ W) (edge : Graph.Leads (nextNeeded r) n m) :
      (⟨m⟩ : ObjectId) ∈ W := by
    obtain ⟨o, found, inside⟩ := (leads_nextNeeded h).1 edge
    exact closed _ mem o found _ inside
  have start (n : Nat) (mem : n ∈ indices pending) : (⟨n⟩ : ObjectId) ∈ W := by
    obtain ⟨x, listed, rfl⟩ := List.mem_map.1 mem
    exact new x listed
  intro x mem
  exact Graph.reach_induction walk step start (fun n seen => @old ⟨n⟩ seen) x.index mem

theorem subset_addNeeded {objects result : List Nat} {pending : List ObjectId}
    (answer : addNeeded r objects pending = .ok result) :
    objects ⊆ result ∧ indices pending ⊆ result :=
  Graph.subset_reach answer

/-! ## Where the working set starts -/

/-- The search through what a call ended with finds the objects that are older than the call. -/
theorem mem_olderParts {id : ObjectId} {started : Moment} {ids : List ObjectId}
    (answer : olderParts r id started = .ok ids) {x : ObjectId} :
    x ∈ ids ↔ Relation.ReflTransGen (LatePart r started) id x ∧ r.HasOlder x started := by
  obtain ⟨met, walk, made⟩ := bind_eq_ok.1 answer
  rw [pure_eq_ok] at made
  subst made
  have leads (n m : Nat) : Graph.Leads (fun n => do
      let o ← r.object ⟨n⟩
      return if o.moment.before started then [] else indices o.parts) n m ↔
        LatePart r started ⟨n⟩ ⟨m⟩ := by
    constructor
    · rintro ⟨successors, step, mem⟩
      obtain ⟨o, found, made⟩ := bind_eq_ok.1 step
      rw [pure_eq_ok] at made
      subst made
      split at mem
      · cases mem
      · rename_i late
        obtain ⟨y, part, rfl⟩ := List.mem_map.1 mem
        exact ⟨o, object_eq_ok.1 found, late, part⟩
    · rintro ⟨o, found, late, part⟩
      refine ⟨_, bind_eq_ok.2 ⟨o, object_eq_ok.2 found, rfl⟩, ?_⟩
      rw [if_neg late]
      exact List.mem_map.2 ⟨_, part, rfl⟩
  have met_iff : x.index ∈ met ↔ Relation.ReflTransGen (LatePart r started) id x := by
    rw [Graph.mem_reach_nil walk]
    simp only [List.mem_singleton, exists_eq_left]
    constructor
    · intro path
      exact path.lift ObjectId.mk fun n m edge => (leads n m).1 edge
    · intro path
      exact path.lift ObjectId.index fun a b edge => (leads a.index b.index).2 edge
  rw [List.mem_filter, ← met_iff, Option.any_eq_true, HasOlder]
  refine and_congr_left fun _ => ?_
  constructor
  · intro mem
    obtain ⟨n, visited, rfl⟩ := List.mem_map.1 mem
    exact visited
  · intro visited
    exact List.mem_map.2 ⟨x.index, visited, rfl⟩

/-- The working set of a call starts with what the call starts from, and with what of its outcome was
there before. -/
theorem mem_seeds {c : Call} {ids : List ObjectId} (answer : seeds r c = .ok ids) {x : ObjectId} :
    x ∈ ids ↔ x ∈ c.startsFrom ∨ IsOldPart r c x := by
  unfold seeds at answer
  cases ended : c.outcome with
  | none =>
    simp only [ended, pure_eq_ok] at answer
    subst answer
    simp only [Call.startsFrom, IsOldPart, ended, reduceCtorEq, false_and, exists_false, or_false]
  | some outcome =>
    simp only [ended] at answer
    obtain ⟨older, older_eq, made⟩ := bind_eq_ok.1 answer
    rw [pure_eq_ok] at made
    subst made
    rw [List.mem_append, mem_olderParts older_eq]
    simp only [Call.startsFrom, IsOldPart, ended, Option.some.injEq, exists_eq_left']

/-- Putting the starts of calls into one working set loses nothing. -/
theorem subset_seeded {start seeded : List Nat}
    (answer : calls.foldlM (fun set c => do addNeeded r set (← seeds r c)) start = .ok seeded) :
    start ⊆ seeded ∧ ∀ c ∈ calls, ∃ ids, seeds r c = .ok ids ∧ indices ids ⊆ seeded := by
  induction calls generalizing start with
  | nil =>
    rw [List.foldlM_nil, pure_eq_ok] at answer
    exact ⟨answer ▸ List.Subset.refl _, fun _ mem => (List.not_mem_nil mem).elim⟩
  | cons c rest ih =>
    rw [List.foldlM_cons] at answer
    obtain ⟨next, first, others⟩ := bind_eq_ok.1 answer
    obtain ⟨ids, ids_eq, added⟩ := bind_eq_ok.1 first
    obtain ⟨old, new⟩ := subset_addNeeded added
    obtain ⟨kept, all⟩ := ih others
    exact ⟨List.Subset.trans old kept,
      List.forall_mem_cons.2 ⟨⟨ids, ids_eq, List.Subset.trans new kept⟩, all⟩⟩

/-- The working set that the search starts with is closed under ingredients. -/
theorem seeded_holdsIngredients (h : r.Sound) {start seeded : List Nat}
    (answer : calls.foldlM (fun set c => do addNeeded r set (← seeds r c)) start = .ok seeded)
    (old : HoldsIngredients r (membersOf start)) : HoldsIngredients r (membersOf seeded) := by
  refine foldlM_induction (P := fun set => HoldsIngredients r (membersOf set)) ?_ answer old
  intro c _ set next step closed
  obtain ⟨ids, -, added⟩ := bind_eq_ok.1 step
  exact addNeeded_holdsIngredients h added closed

/-- The working set that the search starts with is in all closed sets. -/
theorem seeded_within (h : r.Sound) {start seeded : List Nat}
    (answer : calls.foldlM (fun set c => do addNeeded r set (← seeds r c)) start = .ok seeded)
    (closed : IsClosed r calls W I) (old : membersOf start ⊆ W) : membersOf seeded ⊆ W := by
  refine foldlM_induction (P := fun set => membersOf set ⊆ W) ?_ answer old
  intro c mem set next step inside
  obtain ⟨ids, ids_eq, added⟩ := bind_eq_ok.1 step
  refine addNeeded_within h added closed.ingredients inside fun x seed => ?_
  rcases (mem_seeds ids_eq).1 seed with start | old
  · exact closed.starts c mem x start
  · exact closed.outcome c mem x old

/-! ## Including side effects -/

namespace Closure

variable {candidates : List Effect} {c d : Closure}

/-- The side effects included. -/
def included (c : Closure) : Set EffectId := {y | ∃ e ∈ c.effects, e.id = y}

/-- The working set holds what its members are made again from, and what the side effects included
refer to. -/
structure IsSaturated (r : Recording) (c : Closure) : Prop where
  objects : HoldsIngredients r (membersOf c.objects)
  effects : ∀ e ∈ c.effects, ∀ x ∈ e.referenced, x ∈ membersOf c.objects

/-- What was found so far is in all sets that are closed under the rules. -/
def IsForced (r : Recording) (calls : List Call) (c : Closure) : Prop :=
  ∀ W I, IsClosed r calls W I → membersOf c.objects ⊆ W ∧ c.included ⊆ I

/-- Considering a side effect changes nothing, or includes it with the objects that it refers to, when
it affects an object of the working set. -/
theorem consider_cases {e : Effect} (answer : consider r c e = .ok d) :
    d = c ∨ c.concerns e = true ∧ addNeeded r c.objects e.referenced = .ok d.objects ∧
      d.effects = e :: c.effects := by
  unfold consider at answer
  split at answer
  · cases answer
    exact .inl rfl
  · rename_i considered
    obtain ⟨objects, added, made⟩ := bind_eq_ok.1 answer
    cases made
    refine .inr ⟨?_, added, rfl⟩
    simp only [Bool.or_eq_true, Bool.not_eq_true', not_or, Bool.not_eq_false] at considered
    exact considered.2

theorem consider_isSaturated (h : r.Sound) {e : Effect} (answer : consider r c e = .ok d)
    (old : c.IsSaturated r) : d.IsSaturated r := by
  rcases consider_cases answer with rfl | ⟨-, added, effects⟩
  · exact old
  · obtain ⟨kept, new⟩ := subset_addNeeded added
    refine ⟨addNeeded_holdsIngredients h added old.objects, ?_⟩
    rw [effects]
    refine List.forall_mem_cons.2 ⟨fun x mem => new (List.mem_map_of_mem mem), ?_⟩
    intro f mem x referenced
    exact kept (old.effects f mem x referenced)

theorem consider_isForced (h : r.Sound) {e : Effect} {s : Call} (subject : s ∈ calls)
    (shapes : MayShape r s e) (answer : consider r c e = .ok d) (old : c.IsForced r calls) :
    d.IsForced r calls := by
  rcases consider_cases answer with rfl | ⟨concerned, added, effects⟩
  · exact old
  · intro W I closed
    obtain ⟨inside, below⟩ := old W I closed
    obtain ⟨x, affected, mem⟩ := List.any_eq_true.1 concerned
    have isIncluded : e.id ∈ I :=
      closed.effects s subject e shapes ⟨x, affected, inside (List.contains_iff_mem.1 mem)⟩
    constructor
    · exact addNeeded_within h added closed.ingredients inside
        (closed.referenced e.id isIncluded e shapes.1)
    · rintro y ⟨f, mem, rfl⟩
      rw [effects] at mem
      rcases List.mem_cons.1 mem with rfl | mem
      · exact isIncluded
      · exact below ⟨f, mem, rfl⟩

theorem consider_keeps {e : Effect} (answer : consider r c e = .ok d) : c.objects ⊆ d.objects := by
  rcases consider_cases answer with rfl | ⟨-, added, -⟩
  · exact List.Subset.refl _
  · exact (subset_addNeeded added).1

/-- What considering each candidate keeps holds at the end of the search. -/
theorem close_induction {P : Closure → Prop} {objects : List Nat} {final : Closure}
    (answer : close r candidates objects = .ok final)
    (step : ∀ e ∈ candidates, ∀ c d, consider r c e = .ok d → P c → P d)
    (start : P ⟨objects, []⟩) : P final := by
  have general (n : Nat) (c : Closure) (answer : rounds r candidates n c = .ok final)
      (start : P c) : P final := by
    induction n generalizing c with
    | zero =>
      cases answer
      exact start
    | succ n ih =>
      obtain ⟨next, considered, rest⟩ := bind_eq_ok.1 answer
      have kept : P next := foldlM_induction step considered start
      split at rest
      · cases rest
        exact kept
      · exact ih next rest kept
  exact general _ _ answer start

end Closure

/-! ## The least sets -/

section Search

variable {final : Closure} {extra : List ObjectId}

theorem holdsIngredients_empty : HoldsIngredients r (membersOf []) :=
  fun _ mem => (List.not_mem_nil mem).elim

/-- The search goes on from the objects and the starts of the calls with the side effects that may have
shaped them. -/
theorem exists_close_of_closure (h : r.Sound) (known : ∀ c ∈ calls, r.call? c.id = some c)
    (answer : closure r calls extra = .ok final) : ∃ start seeded found,
      addNeeded r [] extra = .ok start ∧
      calls.foldlM (fun set c => do addNeeded r set (← seeds r c)) start = .ok seeded ∧
      Closure.close r found seeded = .ok final ∧ ∀ e, e ∈ found ↔ ∃ s ∈ calls, MayShape r s e := by
  obtain ⟨start, start_eq, rest⟩ := bind_eq_ok.1 answer
  obtain ⟨seeded, seeded_eq, rest⟩ := bind_eq_ok.1 rest
  obtain ⟨found, found_eq, close_eq⟩ := bind_eq_ok.1 rest
  obtain ⟨found', found_eq', mem_found⟩ := allCandidates_sound h known
  rw [found_eq] at found_eq'
  cases found_eq'
  refine ⟨start, seeded, found.flatten, start_eq, seeded_eq, close_eq, fun e => ?_⟩
  rw [mem_found]
  refine exists_congr fun s => and_congr_right fun subject => ?_
  exact (mayShape_iff h ⟨s, known s subject⟩).symm

/-- The starts of the calls are in the working set. -/
theorem start_mem_closure (h : r.Sound) (known : ∀ c ∈ calls, r.call? c.id = some c)
    (answer : closure r calls extra = .ok final) {s : Call} (subject : s ∈ calls) {x : ObjectId}
    (start : x ∈ s.startsFrom ∨ IsOldPart r s x) : x ∈ membersOf final.objects := by
  obtain ⟨first, seeded, found, -, seeded_eq, close_eq, -⟩ := exists_close_of_closure h known answer
  obtain ⟨ids, ids_eq, sub⟩ := (subset_seeded seeded_eq).2 s subject
  have kept : seeded ⊆ final.objects :=
    Closure.close_induction (P := fun c => seeded ⊆ c.objects) close_eq
      (fun e _ c d step old => List.Subset.trans old (Closure.consider_keeps step))
      (List.Subset.refl _)
  exact kept (sub (List.mem_map_of_mem ((mem_seeds ids_eq).2 start)))

theorem closure_isSaturated (h : r.Sound) (known : ∀ c ∈ calls, r.call? c.id = some c)
    (answer : closure r calls extra = .ok final) : final.IsSaturated r := by
  obtain ⟨first, seeded, found, first_eq, seeded_eq, close_eq, -⟩ :=
    exists_close_of_closure h known answer
  refine Closure.close_induction (P := (Closure.IsSaturated r ·)) close_eq
    (fun e _ c d => Closure.consider_isSaturated h) ⟨?_, fun _ mem => (List.not_mem_nil mem).elim⟩
  exact seeded_holdsIngredients h seeded_eq
    (addNeeded_holdsIngredients h first_eq holdsIngredients_empty)

theorem closure_isForced (h : r.Sound) (known : ∀ c ∈ calls, r.call? c.id = some c)
    (answer : closure r calls [] = .ok final) : final.IsForced r calls := by
  obtain ⟨first, seeded, found, first_eq, seeded_eq, close_eq, mem_found⟩ :=
    exists_close_of_closure h known answer
  rw [addNeeded_nil] at first_eq
  cases first_eq
  refine Closure.close_induction (P := (Closure.IsForced r calls ·)) close_eq
    (fun e mem c d step => ?_) fun W I closed => ⟨?_, ?_⟩
  · obtain ⟨s, subject, shapes⟩ := (mem_found e).1 mem
    exact Closure.consider_isForced h subject shapes step
  · exact seeded_within h seeded_eq closed fun _ mem => (List.not_mem_nil mem).elim
  · rintro y ⟨e, mem, -⟩
    cases mem

theorem closure_isClosed (h : r.Sound) (known : ∀ c ∈ calls, r.call? c.id = some c)
    (there : ∀ x ∈ extra, r.HasObject x) (answer : closure r calls extra = .ok final) :
    IsClosed r calls (membersOf final.objects) final.included := by
  have saturated := closure_isSaturated h known answer
  obtain ⟨found, final', answer', within, -, settled, mem_found⟩ := closure_sound h known there
  rw [answer] at answer'
  cases answer'
  exact
    { starts := fun s subject x mem => start_mem_closure h known answer subject (.inl mem)
      outcome := fun s subject x old => start_mem_closure h known answer subject (.inr old)
      ingredients := saturated.objects
      effects := by
        rintro s subject e shapes ⟨x, affected, mem⟩
        have concerned : final.concerns e = true :=
          List.any_eq_true.2 ⟨x, affected, List.contains_iff_mem.2 mem⟩
        have candidate : e ∈ found :=
          (mem_found e).2 ⟨s, subject, (mayShape_iff h ⟨s, known s subject⟩).1 shapes⟩
        obtain ⟨f, isIncluded, same⟩ := List.any_eq_true.1 (settled e candidate concerned)
        exact ⟨f, isIncluded, beq_iff_eq.1 same⟩
      referenced := by
        rintro y ⟨f, mem, rfl⟩ e recorded x referenced
        obtain ⟨s, -, candidate⟩ := (mem_found f).1 (within.effects mem)
        rw [candidate.1] at recorded
        cases recorded
        exact saturated.effects _ mem x referenced }

/-- **The closure is least**: what the search for the needs of calls finds is the least working set
with the least side effects that the rules allow. -/
theorem closure_isLeast (h : r.Sound) (known : ∀ c ∈ calls, r.call? c.id = some c)
    (answer : closure r calls [] = .ok final) :
    IsLeast {p : Set ObjectId × Set EffectId | IsClosed r calls p.1 p.2}
      (membersOf final.objects, final.included) :=
  ⟨closure_isClosed h known (fun _ mem => (List.not_mem_nil mem).elim) answer,
    fun p => closure_isForced h known answer p.1 p.2⟩

end Search

end Setup

end Reenact
