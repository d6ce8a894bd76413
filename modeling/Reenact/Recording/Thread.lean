/-!
# Passing a state along a list

Runs a step on each member of a list, handing the state from one to the next, and collects the
results in order.
-/

namespace Reenact

/-- Runs the step on each member in order. -/
def thread {σ α β : Type} (step : σ → α → σ × β) (s : σ) : List α → σ × List β
  | [] => (s, [])
  | a :: rest =>
    let (s, b) := step s a
    let (s, bs) := thread step s rest
    (s, b :: bs)

@[simp] theorem thread_nil {σ α β : Type} (step : σ → α → σ × β) (s : σ) :
    thread step s [] = (s, []) := rfl

@[simp] theorem thread_cons {σ α β : Type} (step : σ → α → σ × β) (s : σ) (a : α)
    (rest : List α) :
    thread step s (a :: rest) =
      ((thread step (step s a).1 rest).1, (step s a).2 :: (thread step (step s a).1 rest).2) :=
  rfl

/-- Running a step on two lists, one after the other. -/
theorem thread_append {σ α β : Type} (step : σ → α → σ × β) (s : σ) (l m : List α) :
    thread step s (l ++ m) =
      ((thread step (thread step s l).1 m).1,
        (thread step s l).2 ++ (thread step (thread step s l).1 m).2) := by
  induction l generalizing s with
  | nil => rfl
  | cons a rest ih => simp only [List.cons_append, thread_cons, ih]

/-- Running a step on the images of a list. -/
theorem thread_map {σ α β γ : Type} (step : σ → β → σ × γ) (f : α → β) (s : σ) (l : List α) :
    thread step s (l.map f) = thread (fun s a => step s (f a)) s l := by
  induction l generalizing s with
  | nil => rfl
  | cons a rest ih => simp [ih]

/-- A step that does not look at the proof of membership. -/
theorem thread_attach {σ α β : Type} (step : σ → α → σ × β) (s : σ) (l : List α) :
    thread (fun s (a : { a // a ∈ l }) => step s a.1) s l.attach = thread step s l := by
  rw [← thread_map step Subtype.val, List.attach_map_subtype_val]

/-- Every member has a result. -/
@[simp] theorem length_thread {σ α β : Type} (step : σ → α → σ × β) (s : σ) (l : List α) :
    (thread step s l).2.length = l.length := by
  induction l generalizing s with
  | nil => rfl
  | cons a rest ih => simp [ih]

end Reenact
