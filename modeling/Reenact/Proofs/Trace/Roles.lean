import Reenact.Trace.Observation

/-!
# What frames are told as

An observer is told of a frame as a method or as a function. All that it is told are the values of
the frame as they are, with one exception (`Frame.role_cases`): where the receiver of a method comes
out of the tuple of further arguments, the rest of them becomes a new tuple (`Frame.Repacks`).

A frame that is passed over is not told at all. Any other one changes the observer and the handles
as telling it does (`Tracer.step_call_of_heeded`).
-/

namespace Reenact

theorem Value.held_of_items? {v : Value} {items : List Value} (found : v.items? = some items) :
    v.held = items := by
  cases v with
  | sequence => exact Option.some.inj found
  | _ => cases found

/-- The values that an observer is told of a frame. -/
def FrameRole.values : FrameRole → List Value
  | method receiver args => receiver :: args.map Prod.snd
  | function args => args.map Prod.snd

namespace Frame

variable {f : Frame} {receiver : Value} {name : String} {tuple : Value}

/-- The receiver comes out of the tuple of further arguments. -/
structure Repacks (f : Frame) (receiver : Value) (name : String) (tuple : Value) : Prop where
  method : f.receiver? = some receiver
  plain : f.args.named = []
  extra : f.args.extra = some (name, tuple)

/-- The receiver comes first in the tuple. -/
theorem Repacks.exists_items (h : f.Repacks receiver name tuple) :
    ∃ items, tuple.items? = some (receiver :: items) := by
  have candidate := (Option.filter_eq_some_iff.1 h.method).1
  rw [candidate?, h.plain, h.extra] at candidate
  obtain ⟨items, found, first⟩ := Option.bind_eq_some_iff.1 candidate
  obtain ⟨rest, rfl⟩ := List.head?_eq_some_iff.1 first
  exact ⟨rest, found⟩

theorem Repacks.mem_args (h : f.Repacks receiver name tuple) : tuple ∈ f.args.all.map Prod.snd := by
  rw [FrameArgs.all, h.plain, h.extra]
  exact List.mem_cons_self

theorem Repacks.keywords_subset (h : f.Repacks receiver name tuple) :
    f.args.keywords.toList.map Prod.snd ⊆ f.args.all.map Prod.snd := by
  rw [FrameArgs.all, h.plain, h.extra]
  exact List.subset_cons_self ..

/-- The new tuple has the other items. -/
theorem repacked_eq {items : List Value} (found : tuple.items? = some (receiver :: items))
    (handle : Handle) : repacked handle tuple =
      .sequence (builtHeader handle Shape.tuple.typeName) .tuple items := by
  rw [repacked, found]
  rfl

/-- The frame is told as a method, with the new tuple among the arguments. -/
theorem Repacks.role (h : f.Repacks receiver name tuple) (source : HandleSource) :
    f.role source = (source.take.1,
      .method receiver ((name, repacked source.take.2 tuple) :: f.args.keywords.toList)) := by
  simp only [Frame.role, methodCall?, h.method, positionalRest, h.plain, h.extra,
    List.singleton_append]

/-- A frame is told with its values as they are, unless the receiver comes out of a tuple. -/
theorem role_cases (f : Frame) :
    (∃ receiver name tuple, f.Repacks receiver name tuple) ∨
    ∃ role, (∀ source, f.role source = (source, role)) ∧
      role.values = f.args.all.map Prod.snd := by
  cases method : f.receiver? with
  | none =>
    refine .inr ⟨.function f.args.all, fun source => ?_, rfl⟩
    rw [role, methodCall?, method]
  | some receiver =>
    have candidate := (Option.filter_eq_some_iff.1 method).1
    unfold candidate? at candidate
    split at candidate
    · rename_i rest named
      cases candidate
      refine .inr ⟨.method receiver (rest ++ f.args.extra.toList ++ f.args.keywords.toList),
        fun source => ?_, ?_⟩
      · rw [role, methodCall?, method, positionalRest, named]
      · rw [FrameArgs.all, named]
        rfl
    · rename_i plain extra
      exact .inl ⟨receiver, _, _, method, plain, extra⟩
    · cases candidate

end Frame

namespace Tracer

variable {σ : Type} [Observer σ] {t : Tracer σ} {f : Frame}

/-- What a frame that is not passed over leaves, apart from the code asked for. -/
theorem step_call_of_heeded (heeded : t.isIgnored f = false) : ∃ patches,
    (t.step (.call f)).1 = { (t.report f).1.enter (t.report f).2 with patches := patches } := by
  simp only [step, onCall, heeded, Bool.false_eq_true, if_false]
  split
  · exact ⟨_, rfl⟩
  · exact ⟨_, rfl⟩

theorem observer_step_call (heeded : t.isIgnored f = false) :
    (t.step (.call f)).1.observer = (t.report f).1.observer := by
  obtain ⟨patches, eq⟩ := step_call_of_heeded heeded
  rw [eq]
  rfl

theorem handles_step_call (heeded : t.isIgnored f = false) :
    (t.step (.call f)).1.handles = (f.role t.handles).1 := by
  obtain ⟨patches, eq⟩ := step_call_of_heeded heeded
  rw [eq]
  rfl

end Tracer

end Reenact
