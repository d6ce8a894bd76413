/-!
# Imports

The imports that a piece of code needs. Whole modules come before names from modules, and both are
ordered by their texts. An `ImportSet` keeps its imports in this order without repetition, so two
sets with the same imports are equal (`ImportSet.ext_mem`).
-/

namespace Reenact

/-- An import that a piece of code needs. -/
inductive Import where
  /-- The module under its own name. -/
  | module (name : String)
  /-- One name of a module. -/
  | member (module name : String)
  deriving DecidableEq, Repr

namespace Import

/-- Modules come first; then the texts decide, the module before the name. -/
def before : Import → Import → Bool
  | .module a, .module b => decide (a < b)
  | .module _, .member .. => true
  | .member .., .module _ => false
  | .member m a, .member n b => decide (m < n) || (m == n && decide (a < b))

theorem before_irrefl (a : Import) : a.before a = false := by
  cases a <;> simp [before]

theorem before_trans {a b c : Import} (hab : a.before b = true) (hbc : b.before c = true) :
    a.before c = true := by
  cases a <;> cases b <;> cases c <;>
    simp only [before, decide_eq_true_eq, Bool.or_eq_true, Bool.and_eq_true, beq_iff_eq,
      Bool.false_eq_true] at *
  · exact String.lt_trans hab hbc
  · rcases hab with h | ⟨rfl, h⟩
    · rcases hbc with h' | ⟨rfl, _⟩
      · exact Or.inl (String.lt_trans h h')
      · exact Or.inl h
    · rcases hbc with h' | ⟨rfl, h'⟩
      · exact Or.inl h'
      · exact Or.inr ⟨rfl, String.lt_trans h h'⟩

/-- Of two different imports one comes before the other. -/
theorem before_total {a b : Import} (ne : a ≠ b) : a.before b = true ∨ b.before a = true := by
  have texts : ∀ {s t : String}, s ≠ t → s < t ∨ t < s := by
    intro s t ne
    rcases String.le_total s t with h | h
    · by_cases lt : s < t
      · exact Or.inl lt
      · exact absurd (String.le_antisymm h lt) ne
    · by_cases lt : t < s
      · exact Or.inr lt
      · exact absurd (String.le_antisymm h lt).symm ne
  cases a <;> cases b <;>
    simp only [before, decide_eq_true_eq, Bool.or_eq_true, Bool.and_eq_true, beq_iff_eq,
      ne_eq, module.injEq, member.injEq, not_and, or_true, true_or] at *
  · exact texts ne
  · rename_i m a n b
    by_cases same : m = n
    · subst same
      rcases texts (ne rfl) with h | h
      · exact Or.inl (Or.inr ⟨rfl, h⟩)
      · exact Or.inr (Or.inr ⟨rfl, h⟩)
    · rcases texts same with h | h
      · exact Or.inl (Or.inl h)
      · exact Or.inr (Or.inl h)

/-- Puts an import in its place among imports in order, unless it is there already. -/
def insertInto (a : Import) : List Import → List Import
  | [] => [a]
  | b :: rest =>
    if a.before b then a :: b :: rest
    else if a = b then b :: rest
    else b :: a.insertInto rest

/-- Exactly the inserted import is new. -/
theorem mem_insertInto {a c : Import} {l : List Import} :
    c ∈ a.insertInto l ↔ c = a ∨ c ∈ l := by
  induction l with
  | nil => simp [insertInto]
  | cons b rest ih =>
    simp only [insertInto]
    split
    · simp
    · split
      · rename_i same
        subst same
        simp
      · simp only [List.mem_cons, ih]
        constructor
        · rintro (h | h | h) <;> simp [h]
        · rintro (h | h | h) <;> simp [h]

theorem pairwise_insertInto {a : Import} {l : List Import}
    (h : l.Pairwise fun x y => x.before y = true) :
    (a.insertInto l).Pairwise fun x y => x.before y = true := by
  induction l with
  | nil => simp [insertInto]
  | cons b rest ih =>
    obtain ⟨first, others⟩ := List.pairwise_cons.1 h
    simp only [insertInto]
    split
    · rename_i lt
      refine List.pairwise_cons.2 ⟨?_, h⟩
      intro c mem
      rcases List.mem_cons.1 mem with rfl | mem
      · exact lt
      · exact before_trans lt (first c mem)
    · rename_i notBefore
      split
      · exact h
      · rename_i ne
        refine List.pairwise_cons.2 ⟨?_, ih others⟩
        intro c mem
        rcases mem_insertInto.1 mem with rfl | mem
        · exact (before_total ne).resolve_left notBefore
        · exact first c mem

end Import

/-- Imports in order and without repetition. -/
structure ImportSet where
  items : List Import
  /-- Each comes before all later ones. -/
  ordered : items.Pairwise fun a b => a.before b = true
  deriving DecidableEq

namespace ImportSet

def empty : ImportSet := ⟨[], .nil⟩

instance : Inhabited ImportSet := ⟨empty⟩

instance : Membership Import ImportSet where
  mem s a := a ∈ s.items

theorem mem_def {s : ImportSet} {a : Import} : a ∈ s ↔ a ∈ s.items := Iff.rfl

/-- The set with one more import. -/
def insert (s : ImportSet) (a : Import) : ImportSet :=
  ⟨a.insertInto s.items, Import.pairwise_insertInto s.ordered⟩

/-- The set with the imports of a list. -/
def insertAll (s : ImportSet) (imports : List Import) : ImportSet :=
  imports.foldl insert s

/-- The imports of a list. -/
def ofList (imports : List Import) : ImportSet :=
  empty.insertAll imports

/-- The set of one import. -/
def single (a : Import) : ImportSet := empty.insert a

def union (s t : ImportSet) : ImportSet :=
  s.insertAll t.items

@[simp] theorem not_mem_empty (a : Import) : ¬a ∈ empty := by
  simp [mem_def, empty]

@[simp] theorem mem_insert {s : ImportSet} {a b : Import} : b ∈ s.insert a ↔ b = a ∨ b ∈ s :=
  Import.mem_insertInto

@[simp] theorem mem_insertAll {s : ImportSet} {l : List Import} {b : Import} :
    b ∈ s.insertAll l ↔ b ∈ s ∨ b ∈ l := by
  induction l generalizing s with
  | nil => simp [insertAll]
  | cons a rest ih =>
    rw [insertAll, List.foldl_cons, ← insertAll, ih, mem_insert, List.mem_cons]
    constructor
    · rintro ((h | h) | h) <;> simp [h]
    · rintro (h | h | h) <;> simp [h]

@[simp] theorem mem_union {s t : ImportSet} {b : Import} : b ∈ s.union t ↔ b ∈ s ∨ b ∈ t := by
  simp [union, mem_def (s := t)]

/-- Sets with the same imports are equal. -/
theorem ext_mem {s t : ImportSet} (h : ∀ a, a ∈ s ↔ a ∈ t) : s = t := by
  have lists : s.items = t.items := by
    have asymm : ∀ a b : Import, a.before b = true → b.before a = true → False := by
      intro a b hab hba
      have := Import.before_trans hab hba
      simp [Import.before_irrefl] at this
    have nodup : ∀ l : List Import, l.Pairwise (fun a b => a.before b = true) → l.Nodup := by
      intro l sorted
      refine sorted.imp ?_
      rintro a b lt rfl
      simp [Import.before_irrefl] at lt
    have perm : s.items.Perm t.items :=
      (List.perm_ext_iff_of_nodup (nodup _ s.ordered) (nodup _ t.ordered)).2 h
    exact perm.eq_of_pairwise (fun a b _ _ hab hba => (asymm a b hab hba).elim)
      s.ordered t.ordered
  cases s
  cases t
  simpa using lists

end ImportSet

end Reenact
