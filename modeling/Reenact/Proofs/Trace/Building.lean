import Reenact.Proofs.Trace.Listening

/-!
# Handles of built values

The values that a tracer builds are those with a handle of the engine's own range, among all that
its observer is told of and that these hold. Each of them takes one handle out of the source of the
tracer (`HandleSource.Numbers`).

**The law** (`Tracer.numbers_run`): the values built in a stream have the handles that were handed
out in it, each of them one, and so they differ as long as the range lasts
(`HandleSource.Numbers.nodup`).
-/

namespace Reenact

/-! ## Built values -/

namespace Value

/-- The built ones among values and all that they hold. -/
def builtAmong (values : List Value) : List Value :=
  (values.flatMap all).filter (·.handle.isBuilt)

theorem builtAmong_append (values others : List Value) :
    builtAmong (values ++ others) = builtAmong values ++ builtAmong others := by
  simp only [builtAmong, List.flatMap_append, List.filter_append]

theorem builtAmong_cons (v : Value) (values : List Value) :
    builtAmong (v :: values) = builtAmong [v] ++ builtAmong values :=
  builtAmong_append [v] values

/-- A built value is built, and so may be what it holds. -/
theorem builtAmong_of_isBuilt {v : Value} (built : v.handle.isBuilt = true) :
    builtAmong [v] = v :: builtAmong v.held := by
  rw [builtAmong, List.flatMap_singleton, all_eq]
  exact List.filter_cons_of_pos built

theorem builtAmong_of_reported {values : List Value} (reported : ∀ v ∈ values, v.IsReported) :
    builtAmong values = [] := by
  refine List.filter_eq_nil_iff.2 fun w mem built => ?_
  obtain ⟨v, given, mem⟩ := List.mem_flatMap.1 mem
  rw [((reported v given).of_mem_all mem).handle] at built
  cases built

end Value

namespace Tracer

variable {σ : Type} [Observer σ] {t : Tracer σ}

/-- The values that are built when an event comes. -/
def built (t : Tracer σ) (e : Event) : List Value := Value.builtAmong (t.told e)

/-- The values that are built in a stream of events. -/
def builtBy (t : Tracer σ) : List Event → List Value
  | [] => []
  | e :: rest => t.built e ++ (t.step e).1.builtBy rest

theorem mem_built_iff {e : Event} {v : Value} :
    v ∈ t.built e ↔ v ∈ (t.told e).flatMap Value.all ∧ v.handle.isBuilt = true :=
  List.mem_filter

/-- What is built is built by the tracer: the host keeps to its own range of handles. -/
theorem builds_of_mem_built {e : Event} (reported : e.IsReported) {v : Value} (mem : v ∈ t.built e) :
    t.Builds e v := by
  obtain ⟨told, built⟩ := mem_built_iff.1 mem
  refine (mem_told told).resolve_left fun given => ?_
  rw [reported.isBuilt_eq_false given] at built
  cases built

end Tracer

/-! ## Handles of built values -/

namespace HandleSource

/-- From one source to a later one, the values got one handle each, and no other handle was handed
out. -/
structure Numbers (s s' : HandleSource) (values : List Value) : Prop where
  count : s'.count = s.count + values.length
  handles : (values.map Value.handle).Perm
    ((List.range' (s.count + 1) values.length).map Handle.built)

variable {s s' s'' : HandleSource} {values others : List Value} {v : Value}

theorem numbers_nil (s : HandleSource) : s.Numbers s [] := ⟨rfl, .nil⟩

theorem Numbers.trans (first : s.Numbers s' values) (second : s'.Numbers s'' others) :
    s.Numbers s'' (values ++ others) where
  count := by
    rw [second.count, first.count, List.length_append]
    omega
  handles := by
    have next : s'.count + 1 = s.count + 1 + values.length := by
      rw [first.count]
      omega
    have later := second.handles
    rw [next] at later
    rw [List.map_append, List.length_append, ← List.range'_append_1, List.map_append]
    exact first.handles.append later

theorem Numbers.perm (h : s.Numbers s' values) (same : others.Perm values) : s.Numbers s' others where
  count := by rw [h.count, same.length_eq]
  handles := by
    rw [same.length_eq]
    exact (same.map Value.handle).trans h.handles

/-- One more value is built. -/
theorem numbers_take (handle : v.handle = s.take.2) : s.Numbers s.take.1 [v] where
  count := rfl
  handles := by
    rw [List.map_singleton, handle]
    exact .refl _

/-- Built values that get handles one after the other can be told apart as long as the range lasts.
-/
theorem Numbers.nodup (h : s.Numbers s' values) (lasts : s'.count < Handle.capacity) :
    (values.map Value.handle).Nodup := by
  refine h.handles.nodup_iff.2 (List.Nodup.map_on ?_ List.nodup_range')
  intro a mem b mem' same
  have below {n : Nat} (mem : n ∈ List.range' (s.count + 1) values.length) : n < Handle.capacity := by
    have upper := (List.mem_range'_1.1 mem).2
    rw [h.count] at lasts
    omega
  have number := congrArg (fun handle => handle.number.val) same
  rwa [Handle.number_built (below mem), Handle.number_built (below mem')] at number

/-- The handle of a built value is a new one. -/
theorem Numbers.exists_built (h : s.Numbers s' values) (mem : v ∈ values) :
    ∃ n, v.handle = .built n ∧ s.count < n ∧ n ≤ s'.count := by
  obtain ⟨n, inside, eq⟩ := List.mem_map.1 (h.handles.mem_iff.1 (List.mem_map_of_mem mem))
  have bounds := List.mem_range'_1.1 inside
  refine ⟨n, eq.symm, ?_, ?_⟩
  · omega
  · rw [h.count]
    omega

/-- A frame whose receiver comes out of a tuple takes a handle. -/
theorem numbers_role {f : Frame} (reported : ∀ v ∈ f.args.all.map Prod.snd, v.IsReported)
    (s : HandleSource) : s.Numbers (f.role s).1 (Value.builtAmong (f.role s).2.values) := by
  rcases f.role_cases with ⟨receiver, name, tuple, repacks⟩ | ⟨role, same, values⟩
  · obtain ⟨items, found, first, others⟩ := TwoRuns.exists_items_reported repacks reported
    have keywords : Value.builtAmong (f.args.keywords.toList.map Prod.snd) = [] :=
      Value.builtAmong_of_reported fun v mem => reported v (repacks.keywords_subset mem)
    have front : Value.builtAmong [receiver] = [] :=
      Value.builtAmong_of_reported (List.forall_mem_singleton.2 first)
    have tail : Value.builtAmong [Frame.repacked s.take.2 tuple] = [Frame.repacked s.take.2 tuple] := by
      rw [Value.builtAmong_of_isBuilt rfl, Frame.repacked_eq found, Value.held,
        Value.builtAmong_of_reported others]
    have values : Value.builtAmong (f.role s).2.values = [Frame.repacked s.take.2 tuple] := by
      rw [repacks.role s, FrameRole.values, List.map_cons, Value.builtAmong_cons, front,
        Value.builtAmong_cons, tail, keywords]
      rfl
    rw [values, repacks.role s]
    exact numbers_take rfl
  · rw [same, values, Value.builtAmong_of_reported reported]
    exact s.numbers_nil

/-- An exception that the host reports in parts takes a handle, and a message takes one before it.
-/
theorem numbers_toValue {raised : Raised} (reported : ∀ v ∈ raised.values, v.IsReported)
    (s : HandleSource) :
    s.Numbers (raised.toValue s).1 (Value.builtAmong [(raised.toValue s).2]) := by
  cases raised with
  | value exception =>
    have none : Value.builtAmong [exception] = [] := Value.builtAmong_of_reported reported
    show s.Numbers s (Value.builtAmong [exception])
    rw [none]
    exact s.numbers_nil
  | args typeName values =>
    rw [Value.builtAmong_of_isBuilt rfl]
    have none : Value.builtAmong values = [] := Value.builtAmong_of_reported reported
    show s.Numbers s.take.1 (_ :: Value.builtAmong values)
    rw [none]
    exact numbers_take rfl
  | message typeName content =>
    have message : Value.builtAmong
        [.literal (builtHeader s.take.2 "str") (.text content)] = [_] :=
      Value.builtAmong_of_isBuilt rfl
    rw [Value.builtAmong_of_isBuilt rfl]
    show s.Numbers s.take.1.take.1
      (_ :: Value.builtAmong [.literal (builtHeader s.take.2 "str") (.text content)])
    rw [message]
    exact ((numbers_take rfl).trans (numbers_take rfl)).perm (.swap ..)
  | text content =>
    rw [Value.builtAmong_of_isBuilt rfl]
    exact numbers_take rfl

end HandleSource

namespace Tracer

variable {σ : Type} [Observer σ] {t : Tracer σ}

/-- The values built when an event comes get the handles that are handed out. -/
theorem numbers_step {e : Event} (reported : e.IsReported) (t : Tracer σ) :
    t.handles.Numbers (t.step e).1.handles (t.built e) := by
  have tells := t.tells_step e
  unfold built
  generalize t.told e = values at tells ⊢
  generalize (t.step e).1.handles = source at tells ⊢
  cases tells with
  | reported given =>
    rw [Value.builtAmong_of_reported fun v mem => reported v (given mem)]
    exact t.handles.numbers_nil
  | frame f => exact HandleSource.numbers_role (fun v mem => reported v (List.mem_append_left _ mem)) _
  | exception raised traceback => exact HandleSource.numbers_toValue reported _

theorem numbers_run {events : List Event} (reported : ∀ e ∈ events, e.IsReported) (t : Tracer σ) :
    t.handles.Numbers (t.run events).handles (t.builtBy events) := by
  induction events generalizing t with
  | nil => exact t.handles.numbers_nil
  | cons e rest ih =>
    obtain ⟨first, others⟩ := List.forall_mem_cons.1 reported
    exact (numbers_step first t).trans (ih others _)

end Tracer

end Reenact
