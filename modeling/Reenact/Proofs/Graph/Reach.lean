import Mathlib.Logic.Relation
import Reenact.Graph.Reach

/-!
# What a walk visits

The walk of `Graph.reach` against plain reachability. What it answers holds everything visited before
and everything pending; the successors of every node that it visits are there too (`reach_closed`),
and every node that it visits can be reached from a pending one (`reach_sound`). A walk that starts
with nothing visited therefore answers with exactly what can be reached (`mem_reach_nil`). It answers
whenever the nodes to be met are in bounds and have successors (`exists_reach`).
-/

namespace Reenact.Graph

variable {ε : Type} {bound : Nat} {next : Nat → Except ε (List Nat)} {outside : Nat → ε}
  {visited pending result : List Nat}

/-- The second node is among the successors of the first. -/
def Leads (next : Nat → Except ε (List Nat)) (n m : Nat) : Prop :=
  ∃ successors, next n = .ok successors ∧ m ∈ successors

/-- Everything that was visited or pending has been visited in the end. -/
theorem subset_reach (h : reach bound next outside visited pending = .ok result) :
    visited ⊆ result ∧ pending ⊆ result := by
  fun_induction reach bound next outside visited pending with
  | case1 visited =>
    cases h
    exact ⟨List.Subset.refl _, List.nil_subset _⟩
  | case2 visited n pending seen ih =>
    obtain ⟨old, others⟩ := ih h
    exact ⟨old, List.cons_subset.2 ⟨old seen, others⟩⟩
  | case3 visited n pending fresh lt successors found ih =>
    obtain ⟨old, others⟩ := ih h
    rw [List.cons_subset] at old
    rw [List.append_subset] at others
    exact ⟨old.2, List.cons_subset.2 ⟨old.1, others.2⟩⟩
  | case4 => cases h
  | case5 => cases h

/-- The successors of a node that the walk visits are visited. -/
theorem reach_closed (h : reach bound next outside visited pending = .ok result) {n : Nat}
    (mem : n ∈ result) (fresh : n ∉ visited) :
    n < bound ∧ ∃ successors, next n = .ok successors ∧ successors ⊆ result := by
  fun_induction reach bound next outside visited pending with
  | case1 visited =>
    cases h
    exact absurd mem fresh
  | case2 visited k pending seen ih => exact ih h fresh
  | case3 visited k pending new lt successors found ih =>
    by_cases same : n = k
    · subst same
      exact ⟨lt, successors, found, (List.append_subset.1 (subset_reach h).2).1⟩
    · exact ih h (List.not_mem_cons_of_ne_of_not_mem same fresh)
  | case4 => cases h
  | case5 => cases h

/-- What the walk visits can be reached from what was pending. -/
theorem reach_sound (h : reach bound next outside visited pending = .ok result) {n : Nat}
    (mem : n ∈ result) :
    n ∈ visited ∨ ∃ m ∈ pending, Relation.ReflTransGen (Leads next) m n := by
  fun_induction reach bound next outside visited pending with
  | case1 visited =>
    cases h
    exact .inl mem
  | case2 visited k pending seen ih =>
    rcases ih h with old | ⟨m, inside, path⟩
    · exact .inl old
    · exact .inr ⟨m, List.mem_cons_of_mem _ inside, path⟩
  | case3 visited k pending new lt successors found ih =>
    rcases ih h with old | ⟨m, inside, path⟩
    · rcases List.mem_cons.1 old with rfl | old
      · exact .inr ⟨n, List.mem_cons_self, .refl⟩
      · exact .inl old
    · rcases List.mem_append.1 inside with inside | inside
      · exact .inr ⟨k, List.mem_cons_self, .head ⟨successors, found, inside⟩ path⟩
      · exact .inr ⟨m, List.mem_cons_of_mem _ inside, path⟩
  | case4 => cases h
  | case5 => cases h

/-- No node is visited twice. -/
theorem reach_nodup (h : reach bound next outside visited pending = .ok result)
    (nodup : visited.Nodup) : result.Nodup := by
  fun_induction reach bound next outside visited pending with
  | case1 visited =>
    cases h
    exact nodup
  | case2 visited k pending seen ih => exact ih h nodup
  | case3 visited k pending new lt successors found ih => exact ih h (List.nodup_cons.2 ⟨new, nodup⟩)
  | case4 => cases h
  | case5 => cases h

/-- A walk that starts with nothing visited visits exactly what can be reached. -/
theorem mem_reach_nil (h : reach bound next outside [] pending = .ok result) {n : Nat} :
    n ∈ result ↔ ∃ m ∈ pending, Relation.ReflTransGen (Leads next) m n := by
  constructor
  · intro mem
    exact (reach_sound h mem).resolve_left (List.not_mem_nil)
  · rintro ⟨m, inside, path⟩
    induction path with
    | refl => exact (subset_reach h).2 inside
    | tail _ edge ih =>
      obtain ⟨successors, found, leads⟩ := edge
      obtain ⟨-, others, found', all⟩ := reach_closed h ih (List.not_mem_nil)
      rw [found] at found'
      cases found'
      exact all leads

/-- The walk answers when what it may meet is in bounds, has successors, and leads to nothing else. -/
theorem exists_reach {good : Nat → Prop}
    (step : ∀ n, good n → n < bound ∧ ∃ successors, next n = .ok successors ∧
      ∀ m ∈ successors, good m)
    (start : ∀ n ∈ pending, good n) :
    ∃ result, reach bound next outside visited pending = .ok result := by
  fun_induction reach bound next outside visited pending with
  | case1 visited => exact ⟨visited, rfl⟩
  | case2 visited k pending seen ih => exact ih fun n mem => start n (List.mem_cons_of_mem _ mem)
  | case3 visited k pending new lt successors found ih =>
    obtain ⟨-, others, found', leads⟩ := step k (start k List.mem_cons_self)
    rw [found] at found'
    cases found'
    refine ih fun n mem => ?_
    rcases List.mem_append.1 mem with mem | mem
    · exact leads n mem
    · exact start n (List.mem_cons_of_mem _ mem)
  | case4 visited k pending new lt fault found =>
    obtain ⟨-, others, found', -⟩ := step k (start k List.mem_cons_self)
    rw [found] at found'
    cases found'
  | case5 visited k pending new out => exact absurd (step k (start k List.mem_cons_self)).1 out

/-- What the nodes that are met have in common, the nodes visited have. -/
theorem reach_induction {good : Nat → Prop}
    (h : reach bound next outside visited pending = .ok result)
    (step : ∀ n m, good n → Leads next n m → good m) (start : ∀ n ∈ pending, good n)
    (old : ∀ n ∈ visited, good n) : ∀ n ∈ result, good n := by
  intro n mem
  rcases reach_sound h mem with seen | ⟨m, inside, path⟩
  · exact old n seen
  · clear mem
    induction path with
    | refl => exact start _ inside
    | tail _ edge ih => exact step _ _ ih edge

end Reenact.Graph
