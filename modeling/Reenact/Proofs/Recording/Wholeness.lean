import Reenact.Proofs.Recording.Dropping
import Reenact.Proofs.Recording.Forest
import Reenact.Proofs.Setup.Candidates

/-!
# Two views of the captured calls

A recording has the calls that it captured in a list, and once more as a graph: the roots, and the
subcalls of each call. The recording is whole (`Recording.IsWhole`) if both have the same calls, and
the walk through the graph meets none of them twice.

The lists of a recording that files each captured call (`FilesCaptured`) are those of a forest,
since a call has one caller, and that is older than it is. This does not depend on which calls are
captured, so that it stays true when calls are taken out (`FilesCaptured.without`). Wholeness does
depend on it: of the calls that are left, those are met that were not inside a call that is gone
(`Files.mem_walk_without_iff`).
-/

namespace Reenact

namespace Recording

variable {r : Recording} {starts met : List CallId} {id : CallId} {caller : Option CallId}

/-- The captured calls are those met on the walk from the roots through subcalls, and each of them
is met once. -/
def IsWhole (r : Recording) : Prop :=
  ∃ met, r.Walk r.roots met ∧ met.Nodup ∧ ∀ id, id ∈ met ↔ id ∈ r.captured

/-! ## Walks -/

/-- There is only one walk. -/
theorem Walk.unique {other : List CallId} (walk : r.Walk starts met) (again : r.Walk starts other) :
    met = other := by
  induction walk generalizing other with
  | nil =>
    cases again
    rfl
  | cons found _ _ inner_ih others_ih =>
    cases again with
    | cons found' inner' others' =>
      cases found.symm.trans found'
      rw [inner_ih inner', others_ih others']

/-- A walk meets the calls inside those that it starts from. -/
theorem Walk.mem_iff (walk : r.Walk starts met) :
    id ∈ met ↔ ∃ start ∈ starts, r.Inside start id := by
  induction walk with
  | nil => simp
  | @cons first c rest inside after found _ _ inner_ih others_ih =>
    have here : r.Inside first id ↔ id = first ∨ ∃ sub ∈ c.subcalls, r.Inside sub id := by
      constructor
      · intro path
        rcases Relation.ReflTransGen.cases_head path with rfl | ⟨sub, ⟨d, there, mem⟩, path⟩
        · exact .inl rfl
        · cases found.symm.trans there
          exact .inr ⟨sub, mem, path⟩
      · rintro (rfl | ⟨sub, mem, path⟩)
        · exact .refl
        · exact .head ⟨c, found, mem⟩ path
    rw [List.mem_cons, List.mem_append, inner_ih, others_ih, List.exists_mem_cons_iff, here,
      or_assoc]

/-! ## Filing -/

/-- Each captured call is listed where it was made from, and no other call is listed anywhere. -/
structure FilesCaptured (r : Recording) : Prop where
  once : r.captured.Nodup
  known : ∀ id ∈ r.captured, r.HasCall id
  roots : r.roots = r.callsFrom none
  subcalls : ∀ {id c}, r.call? id = some c → c.subcalls = r.callsFrom (some id)
  callers : ∀ {id c parent}, r.call? id = some c → c.caller = some parent → parent.index < id.index

theorem Files.filesCaptured (h : r.Files) : r.FilesCaptured where
  once := h.nodup
  known _ mem := h.mem_captured.1 mem
  roots := h.roots
  subcalls := h.subcalls
  callers := h.callers

/-- What is left when calls are taken out of all lists is still listed where it was made from. -/
theorem FilesCaptured.without (h : r.FilesCaptured) (gone : List CallId) :
    (r.without gone).FilesCaptured := by
  have callsFrom (caller : Option CallId) :
      (r.without gone).callsFrom caller = (r.callsFrom caller).filter (· ∉ gone) := by
    simp only [Recording.callsFrom, caller_without]
    exact List.filter_comm ..
  exact
    { once := h.once.filter _
      known := fun id mem => by
        obtain ⟨c, found⟩ := h.known id (List.mem_of_mem_filter mem)
        exact ⟨c.without gone, by rw [call?_without, found, Option.map_some]⟩
      roots := by
        rw [callsFrom, ← h.roots]
        rfl
      subcalls := fun found => by
        rw [call?_without] at found
        obtain ⟨c, there, rfl⟩ := Option.map_eq_some_iff.1 found
        rw [callsFrom, ← h.subcalls there]
        rfl
      callers := fun found made => by
        rw [call?_without] at found
        obtain ⟨c, there, rfl⟩ := Option.map_eq_some_iff.1 found
        exact h.callers there made }

namespace FilesCaptured

theorem caller_of_subcall (h : r.FilesCaptured) {parent sub : CallId}
    (edge : r.Subcall parent sub) : (r.call? sub).map Call.caller = some (some parent) := by
  obtain ⟨c, found, mem⟩ := edge
  rw [h.subcalls found, mem_callsFrom] at mem
  exact mem.2

theorem lt_of_caller (h : r.FilesCaptured) {parent sub : CallId}
    (made : (r.call? sub).map Call.caller = some (some parent)) : parent.index < sub.index := by
  obtain ⟨d, found, caller⟩ := Option.map_eq_some_iff.1 made
  exact h.callers found caller

theorem subcall_of_caller (h : r.FilesCaptured) {parent sub : CallId} (captured : sub ∈ r.captured)
    (made : (r.call? sub).map Call.caller = some (some parent)) : r.Subcall parent sub := by
  obtain ⟨c, found⟩ := hasCall_iff.2 <|
    Nat.lt_trans (h.lt_of_caller made) (hasCall_iff.1 (h.known sub captured))
  refine ⟨c, found, ?_⟩
  rw [h.subcalls found, mem_callsFrom]
  exact ⟨captured, made⟩

/-- Calls inside a call are not older. -/
theorem le_of_inside (h : r.FilesCaptured) {a b : CallId} (inside : r.Inside a b) :
    a.index ≤ b.index := by
  induction inside with
  | refl => exact Nat.le_refl _
  | tail _ edge ih =>
    exact Nat.le_trans ih (Nat.le_of_lt (h.lt_of_caller (h.caller_of_subcall edge)))

/-- Of the calls with one caller, only one is around a given call. -/
theorem eq_of_inside (h : r.FilesCaptured) {a b x : CallId}
    (siblings : (r.call? a).map Call.caller = (r.call? b).map Call.caller)
    (first : r.Inside a x) (second : r.Inside b x) : a = b := by
  -- their caller is older than they are, so it is not inside one of them
  have apart {a b p : CallId} (siblings : (r.call? a).map Call.caller = (r.call? b).map Call.caller)
      (edge : r.Subcall p a) (inside : r.Inside b p) : False := by
    have made := siblings.symm.trans (h.caller_of_subcall edge)
    exact Nat.lt_irrefl _ (Nat.lt_of_le_of_lt (h.le_of_inside inside) (h.lt_of_caller made))
  induction first with
  | refl =>
    rcases Relation.ReflTransGen.cases_tail second with rfl | ⟨p, inside, edge⟩
    · rfl
    · exact (apart siblings edge inside).elim
  | @tail m x first edge ih =>
    rcases Relation.ReflTransGen.cases_tail second with rfl | ⟨p, inside, edge'⟩
    · exact (apart siblings.symm edge first).elim
    · have same := (h.caller_of_subcall edge).symm.trans (h.caller_of_subcall edge')
      cases same
      exact ih inside

/-- The walk from calls of the recording ends. -/
theorem exists_walk (h : r.FilesCaptured) (starts : List CallId)
    (known : ∀ id ∈ starts, r.HasCall id) : ∃ met, r.Walk starts met := by
  -- subcalls are newer, so that fewer and fewer calls can follow
  have bounded (n : Nat) : ∀ starts : List CallId,
      (∀ id ∈ starts, r.HasCall id ∧ r.calls.size ≤ id.index + n) → ∃ met, r.Walk starts met := by
    induction n with
    | zero =>
      intro starts near
      cases starts with
      | nil => exact ⟨[], .nil⟩
      | cons id rest =>
        obtain ⟨there, le⟩ := near id List.mem_cons_self
        exact absurd (hasCall_iff.1 there) (Nat.not_lt_of_le le)
    | succ n ih =>
      intro starts near
      induction starts with
      | nil => exact ⟨[], .nil⟩
      | cons id rest rest_ih =>
        obtain ⟨⟨⟨c, found⟩, le⟩, others⟩ := List.forall_mem_cons.1 near
        obtain ⟨after, walk⟩ := rest_ih others
        obtain ⟨inside, inner⟩ := ih c.subcalls fun sub mem => by
          rw [h.subcalls found, mem_callsFrom] at mem
          have lt := h.lt_of_caller mem.2
          exact ⟨h.known sub mem.1, by omega⟩
        exact ⟨_, .cons found inner walk⟩
  exact bounded r.calls.size starts fun id mem => ⟨known id mem, Nat.le_add_left ..⟩

/-- A walk from calls with one caller meets no call twice. -/
theorem nodup_of_walk (h : r.FilesCaptured) (walk : r.Walk starts met) (once : starts.Nodup)
    (siblings : ∀ id ∈ starts, (r.call? id).map Call.caller = some caller) : met.Nodup := by
  induction walk generalizing caller with
  | nil => exact List.nodup_nil
  | @cons id c rest inside after found inner others inner_ih others_ih =>
    obtain ⟨fresh, once⟩ := List.nodup_cons.1 once
    obtain ⟨own, siblings⟩ := List.forall_mem_cons.1 siblings
    have subcalls : c.subcalls.Nodup := by
      rw [h.subcalls found]
      exact h.once.filter _
    have made (sub : CallId) (mem : sub ∈ c.subcalls) :
        (r.call? sub).map Call.caller = some (some id) :=
      h.caller_of_subcall ⟨c, found, mem⟩
    have not_inside : id ∉ inside := by
      intro mem
      obtain ⟨sub, listed, path⟩ := inner.mem_iff.1 mem
      have lt := h.lt_of_caller (made sub listed)
      exact Nat.lt_irrefl _ (Nat.lt_of_lt_of_le lt (h.le_of_inside path))
    have apart {x : CallId} (path : r.Inside id x) : x ∉ after := by
      intro mem
      obtain ⟨start, listed, path'⟩ := others.mem_iff.1 mem
      rw [h.eq_of_inside (own.trans (siblings start listed).symm) path path'] at fresh
      exact fresh listed
    rw [← List.cons_append, List.nodup_append]
    refine ⟨List.nodup_cons.2 ⟨not_inside, inner_ih subcalls made⟩, others_ih once siblings, ?_⟩
    rintro x mem y after' rfl
    refine apart ?_ after'
    rcases List.mem_cons.1 mem with rfl | mem
    · exact .refl
    · obtain ⟨sub, listed, path⟩ := inner.mem_iff.1 mem
      exact .head ⟨c, found, listed⟩ path

/-- The walk from the roots ends, and meets no call twice. -/
theorem exists_walk_roots (h : r.FilesCaptured) : ∃ met, r.Walk r.roots met ∧ met.Nodup := by
  have root (id : CallId) (mem : id ∈ r.roots) :
      id ∈ r.captured ∧ (r.call? id).map Call.caller = some none := by
    rwa [h.roots, mem_callsFrom] at mem
  obtain ⟨met, walk⟩ := h.exists_walk r.roots fun id mem => h.known id (root id mem).1
  refine ⟨met, walk, h.nodup_of_walk walk ?_ fun id mem => (root id mem).2⟩
  rw [h.roots]
  exact h.once.filter _

/-- A captured call is met if its caller is, or if it has none. -/
theorem mem_walk_roots_iff (h : r.FilesCaptured) (walk : r.Walk r.roots met) : id ∈ met ↔
    id ∈ r.captured ∧
      ∀ parent, (r.call? id).map Call.caller = some (some parent) → parent ∈ met := by
  constructor
  · intro mem
    obtain ⟨start, listed, path⟩ := walk.mem_iff.1 mem
    rcases Relation.ReflTransGen.cases_tail path with rfl | ⟨p, path, edge⟩
    · rw [h.roots, mem_callsFrom] at listed
      refine ⟨listed.1, fun parent made => ?_⟩
      cases listed.2.symm.trans made
    · obtain ⟨c, found, sub⟩ := edge
      rw [h.subcalls found, mem_callsFrom] at sub
      refine ⟨sub.1, fun parent made => ?_⟩
      cases sub.2.symm.trans made
      exact walk.mem_iff.2 ⟨start, listed, path⟩
  · rintro ⟨captured, caller_met⟩
    obtain ⟨c, found⟩ := h.known id captured
    have made : (r.call? id).map Call.caller = some c.caller := by
      rw [found, Option.map_some]
    cases caller : c.caller with
    | none =>
      refine walk.mem_iff.2 ⟨id, ?_, .refl⟩
      rw [h.roots, mem_callsFrom, made, caller]
      exact ⟨captured, rfl⟩
    | some p =>
      rw [caller] at made
      obtain ⟨start, listed, path⟩ := walk.mem_iff.1 (caller_met p made)
      exact walk.mem_iff.2 ⟨start, listed, path.tail (h.subcall_of_caller captured made)⟩

end FilesCaptured

/-! ## Calls that are gone -/

/-- A captured call is a subcall of the calls around it. -/
theorem Files.inside_iff (h : r.Files) {around : CallId} (there : r.HasCall id) :
    r.Inside around id ↔ around = id ∨
      ∃ parent, (r.call? id).map Call.caller = some (some parent) ∧ r.Inside around parent := by
  constructor
  · intro path
    rcases Relation.ReflTransGen.cases_tail path with rfl | ⟨p, path, edge⟩
    · exact .inl rfl
    · exact .inr ⟨p, h.filesCaptured.caller_of_subcall edge, path⟩
  · rintro (rfl | ⟨p, made, path⟩)
    · exact .refl
    · exact path.tail (h.filesCaptured.subcall_of_caller (h.mem_captured.2 there) made)

/-- Of the calls of the graph, those are met that are not inside a call that is gone. -/
theorem Files.mem_walk_without_iff (h : r.Files) (gone : List CallId)
    (walk : (r.without gone).Walk (r.without gone).roots met) (id : CallId) :
    id ∈ met ↔ id ∈ r.captured ∧ ∀ out ∈ gone, ¬r.Inside out id := by
  induction hn : id.index using Nat.strongRecOn generalizing id with
  | ind n ih =>
    have captured : id ∈ (r.without gone).captured ↔ id ∈ r.captured ∧ id ∉ gone := by
      rw [without, List.mem_filter, decide_eq_true_iff]
    rw [(h.filesCaptured.without gone).mem_walk_roots_iff walk, caller_without, captured, and_assoc]
    refine and_congr_right fun there => ?_
    have around (out : CallId) : r.Inside out id ↔ _ := h.inside_iff (h.mem_captured.1 there)
    constructor
    · rintro ⟨stays, caller_met⟩ out mem path
      rcases (around out).1 path with rfl | ⟨p, caller, path⟩
      · exact stays mem
      · have lt := h.filesCaptured.lt_of_caller caller
        exact ((ih p.index (hn ▸ lt) p rfl).1 (caller_met p caller)).2 out mem path
    · intro outside
      refine ⟨fun mem => outside id mem .refl, fun p caller => ?_⟩
      have lt := h.filesCaptured.lt_of_caller caller
      refine (ih p.index (hn ▸ lt) p rfl).2 ⟨?_, fun out mem path => ?_⟩
      · have known := hasCall_iff.1 (h.mem_captured.1 there)
        exact h.mem_captured.2 (hasCall_iff.2 (Nat.lt_trans lt known))
      · exact outside out mem ((around out).2 (.inr ⟨p, caller, path⟩))

/-- The second recording is the first without some calls in its lists. It does not have these calls
among the captured ones, and neither they nor the calls inside them are met on the walk from the
roots. -/
structure Prunes (r s : Recording) (gone : List CallId) : Prop where
  captured : s.captured = r.captured.filter (· ∉ gone)
  walk : ∃ met, s.Walk s.roots met ∧ met.Nodup ∧
    ∀ id, id ∈ met ↔ id ∈ r.captured ∧ ∀ out ∈ gone, ¬r.Inside out id
  /-- The two views agree exactly when the calls inside those that are gone are gone too. -/
  isWhole_iff : s.IsWhole ↔ ∀ out ∈ gone, ∀ id, r.Inside out id → id ∈ gone

theorem Walk.closed (walk : r.Walk starts met) : r.closed.Walk starts met := by
  induction walk with
  | nil => exact .nil
  | cons found _ _ inner_ih others_ih => exact .cons found inner_ih others_ih

theorem Files.prunes (h : r.Files) (gone : List CallId) (known : ∀ id ∈ gone, r.HasCall id) :
    r.Prunes (r.without gone).closed gone := by
  obtain ⟨met, walk, once⟩ := (h.filesCaptured.without gone).exists_walk_roots
  have mem_met := h.mem_walk_without_iff gone walk
  have captured (id : CallId) :
      id ∈ (r.without gone).closed.captured ↔ id ∈ r.captured ∧ id ∉ gone := by
    rw [Recording.closed, without, List.mem_filter, decide_eq_true_iff]
  refine ⟨rfl, ⟨met, walk.closed, once, mem_met⟩, ?_⟩
  constructor
  · rintro ⟨other, again, -, whole⟩ out mem id path
    cases walk.closed.unique again
    have there : id ∈ r.captured := by
      rcases Relation.ReflTransGen.cases_tail path with rfl | ⟨p, -, c, found, sub⟩
      · exact h.mem_captured.2 (known _ mem)
      · rw [h.subcalls found, mem_callsFrom] at sub
        exact sub.1
    by_contra stays
    have met := (whole id).2 ((captured id).2 ⟨there, stays⟩)
    exact ((mem_met id).1 met).2 out mem path
  · intro inner
    refine ⟨met, walk.closed, once, fun id => ?_⟩
    rw [mem_met, captured]
    refine and_congr_right fun there => ⟨fun outside mem => outside id mem .refl, ?_⟩
    exact fun stays out mem path => stays (inner out mem id path)

end Recording

end Reenact
