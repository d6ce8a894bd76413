import Mathlib.Data.List.Nodup
import Mathlib.Logic.Relation
import Reenact.Graph.Reach

/-!
# Depth-first preorder

The order in which nodes are met when each one is followed by all that is met from its successors,
and only then by its neighbours. `Preorder` says this by recursion and without a stack: what is met
below a node is an order of its own, and nothing in it is met again later. In a graph that stays in
bounds there is exactly one such order (`exists_preorder`, `Preorder.unique`), it meets no node twice
(`Preorder.nodup`), and it meets exactly what can be reached (`Preorder.mem_iff`).

**The law** (`search_eq_findSome?`): the walk of `search`, which keeps one list of pending nodes and
passes over a visited node only when it takes it from that list, gives the first answer along this
order.
-/

namespace Reenact.Graph

/-- The nodes met from `pending` in turn that are not in `seen`, depth first and in preorder. -/
inductive Preorder (next : Nat → List Nat) : (seen pending order : List Nat) → Prop
  | nil (seen : List Nat) : Preorder next seen [] []
  | skip {seen rest order : List Nat} {n : Nat} (old : n ∈ seen)
    (later : Preorder next seen rest order) : Preorder next seen (n :: rest) order
  | visit {seen rest below order : List Nat} {n : Nat} (fresh : n ∉ seen)
    (inside : Preorder next (n :: seen) (next n) below)
    (later : Preorder next (below.reverse ++ n :: seen) rest order) :
    Preorder next seen (n :: rest) (n :: (below ++ order))

variable {next : Nat → List Nat} {seen pending order : List Nat} {bound : Nat}

/-! ## There is one order -/

/-- There is no other order. -/
theorem Preorder.unique {order' : List Nat} (h : Preorder next seen pending order)
    (h' : Preorder next seen pending order') : order = order' := by
  induction h generalizing order' with
  | nil =>
    cases h'
    rfl
  | skip old _ ih =>
    cases h' with
    | skip _ later' => exact ih later'
    | visit fresh => exact absurd old fresh
  | visit fresh _ _ ihInside ihLater =>
    cases h' with
    | skip old => exact absurd old fresh
    | visit _ inside' later' =>
      obtain rfl := ihInside inside'
      rw [ihLater later']

/-- Visiting more leaves no more. -/
theorem unvisited_append_le (bound : Nat) (more seen : List Nat) :
    unvisited bound (more ++ seen) ≤ unvisited bound seen := by
  refine List.countP_mono_left fun n _ new => ?_
  rw [List.contains_append, Bool.not_or, Bool.and_eq_true] at new
  exact new.2

/-- In a graph that stays in bounds there is an order from any nodes. -/
theorem exists_preorder (closed : ∀ n < bound, ∀ m ∈ next n, m < bound) (seen : List Nat)
    {pending : List Nat} (start : ∀ n ∈ pending, n < bound) :
    ∃ order, Preorder next seen pending order := by
  induction eq : unvisited bound seen using Nat.strongRecOn generalizing seen pending with
  | _ left fewer =>
    induction pending with
    | nil => exact ⟨[], .nil seen⟩
    | cons n rest ih =>
      obtain ⟨lt, others⟩ := List.forall_mem_cons.1 start
      by_cases old : n ∈ seen
      · obtain ⟨order, later⟩ := ih others
        exact ⟨order, .skip old later⟩
      · -- what is visited below the node leaves fewer nodes, and so does what comes after it
        have less := unvisited_cons_lt lt old
        obtain ⟨below, inside⟩ := fewer _ (eq ▸ less) (n :: seen) (closed n lt) rfl
        have less' := Nat.lt_of_le_of_lt (unvisited_append_le bound below.reverse (n :: seen)) less
        obtain ⟨order, later⟩ := fewer _ (eq ▸ less') (below.reverse ++ n :: seen) others rfl
        exact ⟨_, .visit old inside later⟩

/-! ## What is met -/

/-- No node is met twice, and none that was seen before. -/
theorem Preorder.nodup_and_fresh (h : Preorder next seen pending order) :
    order.Nodup ∧ ∀ n ∈ order, n ∉ seen := by
  induction h with
  | nil => exact ⟨List.nodup_nil, nofun⟩
  | skip _ _ ih => exact ih
  | @visit seen rest below order n fresh _ _ ihInside ihLater =>
    obtain ⟨nodupBelow, newBelow⟩ := ihInside
    obtain ⟨nodupLater, newLater⟩ := ihLater
    have apart : ∀ m ∈ order, m ∉ below ∧ m ≠ n ∧ m ∉ seen := by
      intro m mem
      simpa [not_or] using newLater m mem
    constructor
    · refine List.nodup_cons.2 ⟨fun mem => ?_, ?_⟩
      · rcases List.mem_append.1 mem with mem | mem
        · exact newBelow n mem List.mem_cons_self
        · exact (apart n mem).2.1 rfl
      · exact List.nodup_append'.2
          ⟨nodupBelow, nodupLater, fun m mem mem' => (apart m mem').1 mem⟩
    · intro m mem
      rcases List.mem_cons.1 mem with rfl | mem
      · exact fresh
      · rcases List.mem_append.1 mem with mem | mem
        · exact fun old => newBelow m mem (List.mem_cons_of_mem _ old)
        · exact (apart m mem).2.2

theorem Preorder.nodup (h : Preorder next seen pending order) : order.Nodup := h.nodup_and_fresh.1

/-- What is met can be reached. -/
theorem Preorder.sound (h : Preorder next seen pending order) {n : Nat} (mem : n ∈ order) :
    ∃ m ∈ pending, Relation.ReflTransGen (fun n m => m ∈ next n) m n := by
  induction h with
  | nil => cases mem
  | skip _ _ ih =>
    obtain ⟨m, inside, path⟩ := ih mem
    exact ⟨m, List.mem_cons_of_mem _ inside, path⟩
  | visit _ _ _ ihInside ihLater =>
    rcases List.mem_cons.1 mem with rfl | mem
    · exact ⟨n, List.mem_cons_self, .refl⟩
    · rcases List.mem_append.1 mem with mem | mem
      · obtain ⟨m, edge, path⟩ := ihInside mem
        exact ⟨_, List.mem_cons_self, .head edge path⟩
      · obtain ⟨m, inside, path⟩ := ihLater mem
        exact ⟨m, List.mem_cons_of_mem _ inside, path⟩

/-- Pending nodes, and the successors of what is met, are met or were seen. -/
theorem Preorder.complete (h : Preorder next seen pending order) :
    (∀ n ∈ pending, n ∈ seen ∨ n ∈ order) ∧
      ∀ n ∈ order, ∀ m ∈ next n, m ∈ seen ∨ m ∈ order := by
  induction h with
  | nil => exact ⟨nofun, nofun⟩
  | skip old _ ih => exact ⟨List.forall_mem_cons.2 ⟨.inl old, ih.1⟩, ih.2⟩
  | @visit seen rest below order n _ _ _ ihInside ihLater =>
    have first : ∀ m, m ∈ n :: seen ∨ m ∈ below → m ∈ seen ∨ m ∈ n :: (below ++ order) := by
      intro m mem
      simp only [List.mem_cons, List.mem_append] at mem ⊢
      tauto
    have second : ∀ m, m ∈ below.reverse ++ n :: seen ∨ m ∈ order →
        m ∈ seen ∨ m ∈ n :: (below ++ order) := by
      intro m mem
      simp only [List.mem_cons, List.mem_append, List.mem_reverse] at mem ⊢
      tauto
    refine ⟨List.forall_mem_cons.2 ⟨.inr List.mem_cons_self, fun m mem => second m (ihLater.1 m mem)⟩,
      List.forall_mem_cons.2 ⟨fun m edge => first m (ihInside.1 m edge), fun k mem m edge => ?_⟩⟩
    rcases List.mem_append.1 mem with mem | mem
    · exact first m (ihInside.2 k mem m edge)
    · exact second m (ihLater.2 k mem m edge)

/-- Where nothing was seen before, exactly what can be reached is met. -/
theorem Preorder.mem_iff (h : Preorder next [] pending order) {n : Nat} :
    n ∈ order ↔ ∃ m ∈ pending, Relation.ReflTransGen (fun n m => m ∈ next n) m n := by
  refine ⟨h.sound, ?_⟩
  rintro ⟨m, inside, path⟩
  obtain ⟨starts, closed⟩ := h.complete
  induction path with
  | refl => exact (starts m inside).resolve_left List.not_mem_nil
  | tail _ edge ih => exact (closed _ ih _ edge).resolve_left List.not_mem_nil

/-! ## The walk -/

variable {α : Type} {answer : Nat → Option α}

/-- The walk first looks along the order of its foremost nodes. If nothing there answers, it goes on
with the others, and has then visited that order. -/
theorem search_append (h : Preorder next seen pending order) (inBounds : ∀ n ∈ order, n < bound)
    (others : List Nat) :
    search bound next answer seen (pending ++ others) =
      (order.findSome? answer).or (search bound next answer (order.reverse ++ seen) others) := by
  induction h generalizing others with
  | nil => rfl
  | skip old _ ih => rw [List.cons_append, search, if_pos old, ih inBounds]
  | @visit seen rest below order n fresh _ _ ihInside ihLater =>
    obtain ⟨lt, more⟩ := List.forall_mem_cons.1 inBounds
    obtain ⟨ltBelow, ltLater⟩ := List.forall_mem_append.1 more
    rw [List.cons_append, search, if_neg fresh, if_pos lt, List.findSome?_cons]
    cases answer n with
    | some a => rfl
    | none =>
      dsimp only
      rw [ihInside ltBelow, ihLater ltLater, List.findSome?_append, Option.or_assoc,
        List.reverse_cons, List.reverse_append, List.append_assoc, List.append_assoc]
      rfl

/-- The walk gives the first answer along the order. -/
theorem search_eq_findSome? (h : Preorder next [] pending order)
    (inBounds : ∀ n ∈ order, n < bound) :
    search bound next answer [] pending = order.findSome? answer := by
  have walk : search bound next answer [] (pending ++ []) = _ := search_append h inBounds []
  rwa [List.append_nil, search, Option.or_none] at walk

end Reenact.Graph
