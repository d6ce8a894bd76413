import Mathlib.Data.List.Nodup
import Reenact.Proofs.Recording.Operation
import Reenact.Proofs.Recording.Ownership

/-!
# Captured calls by what they call

The list of captured calls, taken by receiver or by generator (`callsOf`), and what made each generator
(`maker?`). A recording that `Lists` its calls has every captured call, lists none of them twice, and has
the objects that calls were made on, so no call was made on an object that is still to come.
-/

namespace Reenact

namespace Recording

variable {r s : Recording}

/-- The captured calls of that kind, in order. -/
def callsOf (r : Recording) (kind : CallKind) : List CallId :=
  r.captured.filter fun id => (r.call? id).map Call.kind == some kind

/-- What made a generator, once that is known. -/
def maker? (r : Recording) (id : ObjectId) : Option Maker :=
  (r.object? id).bind fun o => o.kind.activation?.map Activation.maker

theorem mem_callsOf {kind : CallKind} {id : CallId} :
    id ∈ r.callsOf kind ↔ id ∈ r.captured ∧ (r.call? id).map Call.kind = some kind := by
  rw [callsOf, List.mem_filter, beq_iff_eq]

theorem callsOf_congr (captured : s.captured = r.captured)
    (kinds : ∀ id, (s.call? id).map Call.kind = (r.call? id).map Call.kind) (kind : CallKind) :
    s.callsOf kind = r.callsOf kind := by
  simp only [callsOf, captured, kinds]

/-- A new call is the last of its kind. -/
theorem callsOf_pushCall (listed : ∀ id ∈ r.captured, r.HasCall id) (added : CallKind)
    (definition : Definition) (input : Arguments) (caller : Option CallId) (kind : CallKind) :
    (r.pushCall added definition input caller).1.callsOf kind =
      r.callsOf kind ++ if added = kind then [⟨r.calls.size⟩] else [] := by
  have old : (r.captured.filter fun id =>
      ((r.pushCall added definition input caller).1.call? id).map Call.kind == some kind) =
        r.callsOf kind := by
    refine List.filter_congr fun id mem => ?_
    have lt := hasCall_iff.1 (listed id mem)
    rw [call?_pushCall, if_neg (Nat.ne_of_lt lt), Option.map_map]
    cases r.call? id with
    | none => rfl
    | some c =>
      simp only [Option.map_some, Function.comp_apply]
      split <;> rfl
  have new : ([⟨r.calls.size⟩] : List CallId).filter (fun id =>
      ((r.pushCall added definition input caller).1.call? id).map Call.kind == some kind) =
        if added = kind then [⟨r.calls.size⟩] else [] := by
    rw [List.filter_singleton, call?_pushCall, if_pos rfl, Option.map_some, newCall]
    by_cases same : added = kind
    · rw [if_pos same, same, beq_self_eq_true]
      rfl
    · rw [if_neg same, beq_eq_false_iff_ne.2 fun eq => same (Option.some.inj eq)]
      rfl
  rw [callsOf, captured_pushCall, List.filter_append, old, new]

/-- The maker of a generator is told by the object alone. -/
theorem maker?_of_object? {id : ObjectId} {o : Object} (found : r.object? id = some o) :
    r.maker? id = o.kind.activation?.map Activation.maker := by
  rw [maker?, found, Option.bind_some]

theorem maker?_congr (objects : s.objects = r.objects) (id : ObjectId) :
    s.maker? id = r.maker? id := by
  rw [maker?, object?, objects, ← object?, ← maker?]

/-- A change of an object that is not about how a generator was made. -/
theorem maker?_modifyKind (r : Recording) (id : ObjectId) {f : ObjectKind → ObjectKind}
    (keeps : ∀ kind, (f kind).activation? = kind.activation?) (other : ObjectId) :
    (r.modifyKind id f).maker? other = r.maker? other := by
  rw [maker?, object?_modifyKind, maker?]
  split
  · rename_i same
    subst same
    cases r.object? other with
    | none => rfl
    | some o => simp only [Option.map_some, Option.bind_some, keeps]
  · rfl

/-- A generator that was not made yet is made by the maker of its activation. -/
theorem maker?_activate {generator : ObjectId} {o : Object} {calls : List CallId}
    (found : r.object? generator = some o) (unmade : o.kind = .generator none calls)
    (activation : Activation) (id : ObjectId) :
    (r.modifyKind generator (·.activate activation)).maker? id =
      if id = generator then some activation.maker else r.maker? id := by
  rw [maker?, object?_activate found unmade, maker?]
  split <;> rfl

/-- The captured calls are there, each is listed once, and calls are made on objects that are there. -/
structure Lists (r : Recording) : Prop where
  listed : ∀ id ∈ r.captured, r.HasCall id
  once : r.captured.Nodup
  subjects : ∀ {id c x}, r.call? id = some c → c.kind.subject? = some x → r.HasObject x

theorem Lists.pushCall (h : r.Lists) {kind : CallKind}
    (subject : ∀ x, kind.subject? = some x → r.HasObject x) (definition : Definition)
    (input : Arguments) (caller : Option CallId) :
    (r.pushCall kind definition input caller).1.Lists := by
  have grows := grows_pushCall r kind definition input caller
  refine ⟨fun id mem => ?_, ?_, fun {id c x} found made => ?_⟩
  · rw [captured_pushCall] at mem
    rcases List.mem_append.1 mem with mem | mem
    · exact (h.listed id mem).mono grows
    · rw [List.mem_singleton.1 mem, hasCall_iff, size_calls_pushCall]
      exact Nat.lt_succ_self _
  · rw [captured_pushCall, List.nodup_append]
    refine ⟨h.once, List.nodup_singleton _, fun a mem b new same => ?_⟩
    -- the number of the new call is beyond those of the others
    obtain rfl := List.mem_singleton.1 new
    have lt := hasCall_iff.1 (h.listed a mem)
    rw [same] at lt
    exact Nat.lt_irrefl _ lt
  · refine HasObject.mono grows ?_
    rw [call?_pushCall] at found
    split at found
    · cases found
      exact subject x made
    · obtain ⟨old, there, rfl⟩ := Option.map_eq_some_iff.1 found
      refine h.subjects there ?_
      split at made <;> exact made

/-- A change of objects that keeps those there are. -/
theorem Lists.congr (h : r.Lists) (captured : s.captured = r.captured)
    (kinds : ∀ id, (s.call? id).map Call.kind = (r.call? id).map Call.kind)
    (objects : ∀ id, r.HasObject id → s.HasObject id) : s.Lists := by
  have kept {id : CallId} {c : Call} (found : s.call? id = some c) :
      ∃ d, r.call? id = some d ∧ d.kind = c.kind := by
    have kind := kinds id
    rw [found] at kind
    exact Option.map_eq_some_iff.1 kind.symm
  refine ⟨fun id mem => ?_, captured ▸ h.once, fun found made => ?_⟩
  · obtain ⟨c, found⟩ := h.listed id (captured ▸ mem)
    have kind := kinds id
    rw [found] at kind
    obtain ⟨d, there, -⟩ := Option.map_eq_some_iff.1 kind
    exact ⟨d, there⟩
  · obtain ⟨d, there, kind⟩ := kept found
    exact objects _ (h.subjects there (kind ▸ made))

theorem Lists.modifyKind (h : r.Lists) (id : ObjectId) (f : ObjectKind → ObjectKind) :
    (r.modifyKind id f).Lists :=
  h.congr rfl (fun _ => rfl) fun _ there => there.mono (grows_modifyKind ..)

/-- Fewer calls are listed. -/
theorem Lists.filter (h : r.Lists) (keeps : CallId → Bool) :
    ({ r with captured := r.captured.filter keeps } : Recording).Lists :=
  ⟨fun id mem => h.listed id (List.mem_of_mem_filter mem), h.once.filter _, h.subjects⟩

/-- No captured call was made on an object that is not there. -/
theorem Lists.callsOf_eq_nil (h : r.Lists) {kind : CallKind} {x : ObjectId}
    (subject : kind.subject? = some x) (new : r.object? x = none) : r.callsOf kind = [] := by
  refine List.eq_nil_iff_forall_not_mem.2 fun id mem => ?_
  obtain ⟨c, found, rfl⟩ := Option.map_eq_some_iff.1 (mem_callsOf.1 mem).2
  obtain ⟨o, there⟩ := h.subjects found subject
  rw [new] at there
  cases there

/-- A new call does not matter to which of the captured calls are those of constructors. -/
theorem definition_pushCall (lists : r.Lists) (kind : CallKind)
    (definition : Definition) (input : Arguments) (caller : Option CallId) {c : CallId}
    (mem : c ∈ r.captured) :
    ((r.pushCall kind definition input caller).1.call? c).map Call.definition =
      (r.call? c).map Call.definition := by
  have lt := hasCall_iff.1 (lists.listed c mem)
  rw [call?_pushCall, if_neg (Nat.ne_of_lt lt), Option.map_map]
  cases r.call? c with
  | none => rfl
  | some call =>
    simp only [Option.map_some, Function.comp_apply]
    split <;> rfl

/-- An object that was not made yet was made by nothing. -/
theorem maker?_of_unmade {generator : ObjectId} {o : Object} {calls : List CallId}
    (found : r.object? generator = some o) (unmade : o.kind = .generator none calls) :
    r.maker? generator = none := by
  rw [maker?_of_object? found, unmade]
  rfl

/-! ## The end of a recording -/

/-- Without its last member, a list without repetition has all that differ from it. -/
theorem filter_bne_last {l : List CallId} {last : CallId} (once : l.Nodup)
    (final : l.getLast? = some last) : l.filter (· != last) = l.dropLast := by
  obtain ⟨front, rfl⟩ := List.getLast?_eq_some_iff.1 final
  obtain ⟨-, -, differ⟩ := List.nodup_append.1 once
  rw [List.filter_append, List.dropLast_concat, List.filter_eq_self.2, List.filter_singleton]
  · rw [bne_self_eq_false]
    exact List.append_nil _
  · exact fun c mem => bne_iff_ne.2 (differ c mem last (List.mem_singleton.2 rfl))

/-- Taking out a last resumption shortens the list of the generator and that of the captured calls. -/
theorem dropTrailing_sameHeads {x : ObjectId} {last : CallId}
    (eq : r.trailingResumption? x = some last) :
    ∃ d, (r.modifyKind x (·.dropResumption)).SameHeads d ∧
      r.dropTrailing x = { d with captured := d.captured.filter (· != last) } := by
  unfold dropTrailing
  rw [eq]
  dsimp only
  split
  · rename_i d detached
    exact ⟨d, sameHeads_detach detached, rfl⟩
  · exact ⟨_, ⟨rfl, rfl, rfl, rfl, fun _ => rfl, fun found => found, fun found => .inl found⟩, rfl⟩

end Recording

end Reenact
