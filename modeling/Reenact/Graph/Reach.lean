/-!
# Walking a graph of numbered nodes

A walk over nodes numbered below a bound. It takes the first pending node, passes over it when it
has been visited, and otherwise visits it and puts its successors in front of the other pending
nodes, so nodes are visited depth first, in preorder. `reach` stops with a fault at a node that is
out of bounds or whose successors cannot be told. The number of nodes not yet visited bounds the
walk (`unvisited_cons_lt`).
-/

namespace Reenact.Graph

/-- How many nodes below the bound are not visited. -/
def unvisited (bound : Nat) (visited : List Nat) : Nat :=
  (List.range bound).countP fun n => !visited.contains n

/-- Visiting one more node below the bound leaves fewer. -/
theorem unvisited_cons_lt {bound n : Nat} {visited : List Nat} (lt : n < bound)
    (fresh : ¬n ∈ visited) : unvisited bound (n :: visited) < unvisited bound visited := by
  have general : ∀ l : List Nat, n ∈ l →
      l.countP (fun k => !(n :: visited).contains k) < l.countP fun k => !visited.contains k := by
    intro l mem
    induction l with
    | nil => cases mem
    | cons k rest ih =>
      have tail_le : rest.countP (fun k => !(n :: visited).contains k) ≤
          rest.countP fun k => !visited.contains k := by
        apply List.countP_mono_left
        intro j _ h
        simp only [List.contains_cons, Bool.not_or, Bool.and_eq_true] at h
        exact h.2
      by_cases same : k = n
      · subst same
        rw [List.countP_cons_of_neg (by simp), List.countP_cons_of_pos (by simpa using fresh)]
        omega
      · have mem' : n ∈ rest := by
          rcases List.mem_cons.1 mem with h | h
          · exact absurd h.symm same
          · exact h
        have := ih mem'
        have head : (n :: visited).contains k = visited.contains k := by
          simp [same]
        rw [List.countP_cons, List.countP_cons, head]
        omega
  exact general _ (List.mem_range.2 lt)

/-- The nodes visited, latest first, when all pending nodes and everything reachable from them has
been visited. -/
def reach {ε : Type} (bound : Nat) (next : Nat → Except ε (List Nat)) (outside : Nat → ε)
    (visited : List Nat) : List Nat → Except ε (List Nat)
  | [] => .ok visited
  | n :: pending =>
    if n ∈ visited then reach bound next outside visited pending
    else if n < bound then
      match next n with
      | .ok successors => reach bound next outside (n :: visited) (successors ++ pending)
      | .error fault => .error fault
    else .error (outside n)
termination_by pending => (unvisited bound visited, pending.length)
decreasing_by
  · exact Prod.Lex.right _ (by simp)
  · exact Prod.Lex.left _ _ (unvisited_cons_lt (by assumption) (by assumption))

/-- The first answer met on the walk. The search ends without one when it meets a node that is
out of bounds. -/
def search {α : Type} (bound : Nat) (next : Nat → List Nat) (answer : Nat → Option α)
    (visited : List Nat) : List Nat → Option α
  | [] => none
  | n :: pending =>
    if n ∈ visited then search bound next answer visited pending
    else if n < bound then
      match answer n with
      | some a => some a
      | none => search bound next answer (n :: visited) (next n ++ pending)
    else none
termination_by pending => (unvisited bound visited, pending.length)
decreasing_by
  · exact Prod.Lex.right _ (by simp)
  · exact Prod.Lex.left _ _ (unvisited_cons_lt (by assumption) (by assumption))

end Reenact.Graph
