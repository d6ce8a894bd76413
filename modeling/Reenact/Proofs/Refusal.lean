import Mathlib.Data.List.Forall2

/-!
# Answers of operations that may be refused

An operation that may be refused answers in `Except`. When a chain of such operations answers, each
link of it did: these equivalences take a chain apart, one for each way of putting operations
together. Two operations agree when they cannot give different answers (`Agree`), and one entails
another when it gives all its answers (`Entails`); putting together what does so gives what does so.
-/

namespace Reenact

variable {ε α β σ : Type}

@[simp] theorem pure_eq_ok {a b : α} : (pure a : Except ε α) = .ok b ↔ a = b :=
  ⟨fun h => Except.ok.inj h, fun h => congrArg _ h⟩

theorem bind_eq_ok {x : Except ε α} {f : α → Except ε β} {b : β} :
    x >>= f = .ok b ↔ ∃ a, x = .ok a ∧ f a = .ok b := by
  cases x with
  | error e =>
    constructor
    · rintro ⟨⟩
    · rintro ⟨a, ⟨⟩, -⟩
  | ok a =>
    constructor
    · intro h
      exact ⟨a, rfl, h⟩
    · rintro ⟨_, ⟨⟩, h⟩
      exact h

/-- A chain answers if each link does. -/
theorem bind_answers {x : Except ε α} {f : α → Except ε β} (first : ∃ a, x = .ok a)
    (next : ∀ a, x = .ok a → ∃ b, f a = .ok b) : ∃ b, x >>= f = .ok b := by
  obtain ⟨a, answer⟩ := first
  obtain ⟨b, answer'⟩ := next a answer
  exact ⟨b, bind_eq_ok.2 ⟨a, answer, answer'⟩⟩

theorem map_eq_ok {x : Except ε α} {f : α → β} {b : β} :
    x.map f = .ok b ↔ ∃ a, x = .ok a ∧ f a = b := by
  cases x <;> simp [Except.map]

/-- A traversal answers when the operation answers on each member, and with these answers in
order. -/
theorem mapM_eq_ok {f : α → Except ε β} {l : List α} {out : List β} :
    l.mapM f = .ok out ↔ List.Forall₂ (fun a b => f a = .ok b) l out := by
  induction l generalizing out with
  | nil =>
    rw [List.mapM_nil, pure_eq_ok, List.forall₂_nil_left_iff, eq_comm]
  | cons a rest ih =>
    rw [List.mapM_cons, bind_eq_ok]
    simp only [bind_eq_ok, pure_eq_ok, ih]
    constructor
    · rintro ⟨b, head, bs, tail, rfl⟩
      exact .cons head tail
    · rintro (_ | ⟨head, tail⟩)
      exact ⟨_, head, _, tail, rfl⟩

/-- Every answer of a traversal is the answer on a member. -/
theorem mem_of_mapM_eq_ok {f : α → Except ε β} {l : List α} {out : List β} {b : β}
    (h : l.mapM f = .ok out) (mem : b ∈ out) : ∃ a ∈ l, f a = .ok b := by
  induction mapM_eq_ok.1 h with
  | nil => cases mem
  | cons head tail ih =>
    rcases List.mem_cons.1 mem with rfl | mem
    · exact ⟨_, List.mem_cons_self, head⟩
    · obtain ⟨a, inside, answer⟩ := ih (mapM_eq_ok.2 tail) mem
      exact ⟨a, List.mem_cons_of_mem _ inside, answer⟩

/-- A traversal that answers has an answer on every member. -/
theorem exists_of_mapM_eq_ok {f : α → Except ε β} {l : List α} {out : List β} {a : α}
    (h : l.mapM f = .ok out) (mem : a ∈ l) : ∃ b ∈ out, f a = .ok b := by
  induction mapM_eq_ok.1 h with
  | nil => cases mem
  | cons head tail ih =>
    rcases List.mem_cons.1 mem with rfl | mem
    · exact ⟨_, List.mem_cons_self, head⟩
    · obtain ⟨b, inside, answer⟩ := ih (mapM_eq_ok.2 tail) mem
      exact ⟨b, List.mem_cons_of_mem _ inside, answer⟩

/-- An operation that answers on every member answers on the whole list. -/
theorem mapM_answers {f : α → Except ε β} {l : List α} (h : ∀ a ∈ l, ∃ b, f a = .ok b) :
    ∃ out, l.mapM f = .ok out := by
  induction l with
  | nil => exact ⟨[], rfl⟩
  | cons a rest ih =>
    obtain ⟨b, head⟩ := h a List.mem_cons_self
    obtain ⟨bs, tail⟩ := ih fun x mem => h x (List.mem_cons_of_mem _ mem)
    refine ⟨b :: bs, ?_⟩
    rw [List.mapM_cons, head]
    simp only [bind, Except.bind, tail, pure, Except.pure]

/-- Traversals of two lists whose members have the same answers in order have the same answer. -/
theorem mapM_eq_of_forall₂ {f : α → Except ε σ} {g : β → Except ε σ} {as : List α} {bs : List β}
    (h : List.Forall₂ (fun a b => f a = g b) as bs) : as.mapM f = bs.mapM g := by
  induction h with
  | nil => rfl
  | cons head _ ih => rw [List.mapM_cons, List.mapM_cons, head, ih]

/-- A fold answers if every step does, whatever was before. -/
theorem foldlM_answers {f : σ → α → Except ε σ} {l : List α}
    (h : ∀ a ∈ l, ∀ s, ∃ t, f s a = .ok t) (s : σ) : ∃ t, l.foldlM f s = .ok t := by
  induction l generalizing s with
  | nil => exact ⟨s, rfl⟩
  | cons a rest ih =>
    obtain ⟨head, tail⟩ := List.forall_mem_cons.1 h
    rw [List.foldlM_cons]
    exact bind_answers (head s) fun t _ => ih tail t

/-- What every step of a fold keeps holds in the end. -/
theorem foldlM_induction {P : σ → Prop} {f : σ → α → Except ε σ} {l : List α}
    (step : ∀ a ∈ l, ∀ s t, f s a = .ok t → P s → P t) {s t : σ} (h : l.foldlM f s = .ok t)
    (start : P s) : P t := by
  induction l generalizing s with
  | nil =>
    rw [List.foldlM_nil, pure_eq_ok] at h
    exact h ▸ start
  | cons a rest ih =>
    rw [List.foldlM_cons] at h
    obtain ⟨u, first, others⟩ := bind_eq_ok.1 h
    obtain ⟨head, tail⟩ := List.forall_mem_cons.1 step
    exact ih tail others (head s u first start)

/-! ## Agreement -/

/-- Two operations give the same answer, where both answer. -/
def Agree (a b : Except ε α) : Prop := ∀ x y, a = .ok x → b = .ok y → x = y

namespace Agree

theorem refl (a : Except ε α) : Agree a a := fun _ _ first second =>
  Except.ok.inj (first.symm.trans second)

theorem bind {a b : Except ε α} {f g : α → Except ε β} (h : Agree a b)
    (next : ∀ x, a = .ok x → Agree (f x) (g x)) : Agree (a >>= f) (b >>= g) := by
  intro s t first second
  obtain ⟨x, answer, first⟩ := bind_eq_ok.1 first
  obtain ⟨y, answer', second⟩ := bind_eq_ok.1 second
  obtain rfl := h x y answer answer'
  exact next x answer s t first second

theorem mapM {f g : α → Except ε β} {l : List α} (h : ∀ a ∈ l, Agree (f a) (g a)) :
    Agree (l.mapM f) (l.mapM g) := by
  induction l with
  | nil => exact refl _
  | cons a rest ih =>
    obtain ⟨head, tail⟩ := List.forall_mem_cons.1 h
    rw [List.mapM_cons, List.mapM_cons]
    exact head.bind fun _ _ => (ih tail).bind fun _ _ => refl _

theorem foldlM {f g : σ → α → Except ε σ} {l : List α}
    (h : ∀ a ∈ l, ∀ s, Agree (f s a) (g s a)) (s : σ) : Agree (l.foldlM f s) (l.foldlM g s) := by
  induction l generalizing s with
  | nil => exact refl _
  | cons a rest ih =>
    obtain ⟨head, tail⟩ := List.forall_mem_cons.1 h
    rw [List.foldlM_cons, List.foldlM_cons]
    exact (head s).bind fun t _ => ih tail t

end Agree

/-! ## Entailment -/

/-- The second operation gives every answer that the first one gives. -/
def Entails (a b : Except ε α) : Prop := ∀ x, a = .ok x → b = .ok x

namespace Entails

theorem refl (a : Except ε α) : Entails a a := fun _ answer => answer

theorem bind {a b : Except ε α} {f g : α → Except ε β} (h : Entails a b)
    (next : ∀ x, a = .ok x → Entails (f x) (g x)) : Entails (a >>= f) (b >>= g) := by
  intro y answer
  obtain ⟨x, first, second⟩ := bind_eq_ok.1 answer
  exact bind_eq_ok.2 ⟨x, h x first, next x first y second⟩

theorem mapM {f g : α → Except ε β} {l : List α} (h : ∀ a ∈ l, Entails (f a) (g a)) :
    Entails (l.mapM f) (l.mapM g) := by
  induction l with
  | nil => exact refl _
  | cons a rest ih =>
    obtain ⟨head, tail⟩ := List.forall_mem_cons.1 h
    rw [List.mapM_cons, List.mapM_cons]
    exact head.bind fun _ _ => (ih tail).bind fun _ _ => refl _

theorem foldlM {f g : σ → α → Except ε σ} {l : List α}
    (h : ∀ a ∈ l, ∀ s, Entails (f s a) (g s a)) (s : σ) : Entails (l.foldlM f s) (l.foldlM g s) := by
  induction l generalizing s with
  | nil => exact refl _
  | cons a rest ih =>
    obtain ⟨head, tail⟩ := List.forall_mem_cons.1 h
    rw [List.foldlM_cons, List.foldlM_cons]
    exact (head s).bind fun t _ => ih tail t

end Entails

end Reenact
