import Mathlib.Data.List.Nodup
import Reenact.Proofs.Recording.Calling
import Reenact.Proofs.Recording.Captured

/-!
# Where a running recording lists what it holds

Until it is ended, a recording captures all its calls, in order, and lists each of them once more
with the call that it was made from, or among the roots (`Recording.Files`). The lists of subcalls
and of roots can be read off the captured calls (`callsFrom`), in the way in which what was called
on an object can (`callsOf`). It keeps each generator with one value, the one that it was recorded
for (`Recording.KeepsGenerators`).
-/

namespace Reenact

/-- Whether the object is a generator. -/
def ObjectKind.isGenerator : ObjectKind → Bool
  | generator .. => true
  | _ => false

theorem ObjectKind.Becomes.isGenerator {a b : ObjectKind} (h : a.Becomes b) :
    b.isGenerator = a.isGenerator := by
  cases h <;> rfl

/-- Where a call stands among the others: the call that it was made from, and those made from it. -/
def Call.place (c : Call) : Option CallId × List CallId := (c.caller, c.subcalls)

namespace Recording

variable {r s : Recording}

/-- The captured calls that were made from that call, or from none, in order. -/
def callsFrom (r : Recording) (caller : Option CallId) : List CallId :=
  r.captured.filter fun id => (r.call? id).map Call.caller == some caller

theorem mem_callsFrom {caller : Option CallId} {id : CallId} :
    id ∈ r.callsFrom caller ↔ id ∈ r.captured ∧ (r.call? id).map Call.caller = some caller := by
  rw [callsFrom, List.mem_filter, beq_iff_eq]

/-- The object is a generator of the recording. -/
def HasGenerator (r : Recording) (id : ObjectId) : Prop :=
  ∃ o, r.object? id = some o ∧ o.kind.isGenerator

/-! ## Calls -/

/-- All calls are captured, in order, and each of them is listed where it was made from. -/
structure Files (r : Recording) : Prop where
  captured : r.captured = (List.range r.calls.size).map CallId.mk
  roots : r.roots = r.callsFrom none
  subcalls : ∀ {id c}, r.call? id = some c → c.subcalls = r.callsFrom (some id)
  callers : ∀ {id c parent}, r.call? id = some c → c.caller = some parent → parent.index < id.index

theorem Files.mem_captured (h : r.Files) {id : CallId} : id ∈ r.captured ↔ r.HasCall id := by
  rw [h.captured, hasCall_iff]
  constructor
  · intro mem
    obtain ⟨i, below, rfl⟩ := List.mem_map.1 mem
    exact List.mem_range.1 below
  · intro lt
    exact List.mem_map.2 ⟨id.index, List.mem_range.2 lt, rfl⟩

theorem Files.nodup (h : r.Files) : r.captured.Nodup := by
  rw [h.captured]
  exact List.nodup_range.map fun a b same => CallId.mk.inj same

theorem files_empty (id : RunId) : (empty id).Files where
  captured := rfl
  roots := rfl
  subcalls found := by cases found
  callers found := by cases found

/-- A change that leaves calls where they are. -/
theorem Files.congr (h : r.Files) (size : s.calls.size = r.calls.size)
    (captured : s.captured = r.captured) (roots : s.roots = r.roots)
    (places : ∀ id, (s.call? id).map Call.place = (r.call? id).map Call.place) : s.Files := by
  have callers (id : CallId) : (s.call? id).map Call.caller = (r.call? id).map Call.caller := by
    have place := congrArg (Option.map Prod.fst) (places id)
    rwa [Option.map_map, Option.map_map] at place
  have callsFrom (caller : Option CallId) : s.callsFrom caller = r.callsFrom caller := by
    simp only [Recording.callsFrom, captured, callers]
  have there {id : CallId} {c : Call} (found : s.call? id = some c) :
      ∃ d, r.call? id = some d ∧ d.caller = c.caller ∧ d.subcalls = c.subcalls := by
    have place := places id
    rw [found] at place
    obtain ⟨d, found', same⟩ := Option.map_eq_some_iff.1 place.symm
    exact ⟨d, found', congrArg Prod.fst same, congrArg Prod.snd same⟩
  exact
    { captured := by rw [captured, h.captured, size]
      roots := by rw [roots, h.roots, callsFrom]
      subcalls := by
        intro id c found
        obtain ⟨d, found', -, same⟩ := there found
        rw [← same, h.subcalls found', callsFrom]
      callers := by
        intro id c parent found made
        obtain ⟨d, found', same, -⟩ := there found
        exact h.callers found' (same.trans made) }

theorem Files.modifyCall (h : r.Files) (id : CallId) {f : Call → Call}
    (keeps : ∀ c, (f c).place = c.place) : (r.modifyCall id f).Files := by
  refine h.congr (size_calls_modifyCall ..) rfl rfl fun other => ?_
  rw [call?_modifyCall]
  split
  · rename_i same
    rw [same, Option.map_map]
    exact congrArg (Option.map · _) (funext keeps)
  · rfl

theorem Files.pushEffect (h : r.Files) (change : Change) (owner : Option CallId) :
    (r.pushEffect change owner).1.Files := by
  refine h.congr (size_calls_pushEffect ..) (captured_pushEffect ..) (roots_pushEffect ..)
    fun id => ?_
  rw [call?_pushEffect]
  cases r.call? id with
  | none => rfl
  | some c =>
    simp only [Option.map_some]
    split <;> rfl

theorem Files.endCall (h : r.Files) (id : CallId) : (r.endCall id).Files :=
  Files.modifyCall (h.congr rfl rfl rfl fun _ => rfl : r.tick.Files) id fun _ => rfl

/-- A new call is the last of those made from its caller. -/
theorem callsFrom_pushCall (h : r.Files) (kind : CallKind) (definition : Definition)
    (input : Arguments) (caller from_ : Option CallId) :
    (r.pushCall kind definition input caller).1.callsFrom from_ = r.callsFrom from_ ++
      if (r.newCall kind definition input caller).caller = from_ then [⟨r.calls.size⟩] else [] := by
  have old : (r.captured.filter fun id =>
      ((r.pushCall kind definition input caller).1.call? id).map Call.caller == some from_) =
        r.callsFrom from_ := by
    refine List.filter_congr fun id mem => ?_
    have lt := hasCall_iff.1 (h.mem_captured.1 mem)
    rw [call?_pushCall, if_neg (Nat.ne_of_lt lt), Option.map_map]
    cases r.call? id with
    | none => rfl
    | some c =>
      simp only [Option.map_some, Function.comp_apply]
      split <;> rfl
  have new : ([⟨r.calls.size⟩] : List CallId).filter (fun id =>
      ((r.pushCall kind definition input caller).1.call? id).map Call.caller == some from_) =
        if (r.newCall kind definition input caller).caller = from_ then [⟨r.calls.size⟩]
        else [] := by
    rw [List.filter_singleton, call?_pushCall, if_pos rfl, Option.map_some]
    by_cases same : (r.newCall kind definition input caller).caller = from_
    · rw [if_pos same, same, beq_self_eq_true]
      rfl
    · rw [if_neg same, beq_eq_false_iff_ne.2 fun eq => same (Option.some.inj eq)]
      rfl
  rw [callsFrom, captured_pushCall, List.filter_append, old, new]

/-- The caller of a new call is there, and is the one that was asked for. -/
theorem caller_newCall {kind : CallKind} {definition : Definition} {input : Arguments}
    {caller : Option CallId} {parent : CallId}
    (h : (r.newCall kind definition input caller).caller = some parent) :
    caller = some parent ∧ parent.index < r.calls.size := by
  obtain ⟨asked, valid⟩ := Option.filter_eq_some_iff.1 h
  exact ⟨asked, of_decide_eq_true valid⟩

theorem Files.pushCall (h : r.Files) (kind : CallKind) (definition : Definition)
    (input : Arguments) (caller : Option CallId) :
    (r.pushCall kind definition input caller).1.Files where
  captured := by
    rw [captured_pushCall, h.captured, size_calls_pushCall, List.range_succ, List.map_append]
    rfl
  roots := by
    rw [roots_pushCall, callsFrom_pushCall h, h.roots]
    split
    · rfl
    · exact (List.append_nil _).symm
  subcalls := by
    intro id c found
    rw [callsFrom_pushCall h]
    rw [call?_pushCall] at found
    split at found
    · rename_i new
      obtain rfl : id = ⟨r.calls.size⟩ := by rw [← new]
      cases found
      -- no call was made from one that is still to come
      have none : r.callsFrom (some ⟨r.calls.size⟩) = [] := by
        refine List.eq_nil_iff_forall_not_mem.2 fun sub mem => ?_
        obtain ⟨listed, made⟩ := mem_callsFrom.1 mem
        obtain ⟨d, there, caller⟩ := Option.map_eq_some_iff.1 made
        have below := h.callers there caller
        exact Nat.lt_asymm below (hasCall_iff.1 (.of_call? there))
      have other : (r.newCall kind definition input caller).caller ≠ some ⟨r.calls.size⟩ :=
        fun own => Nat.lt_irrefl r.calls.size (caller_newCall own).2
      rw [none, if_neg other]
      rfl
    · obtain ⟨d, there, rfl⟩ := Option.map_eq_some_iff.1 found
      have lt := hasCall_iff.1 (.of_call? there)
      have own : (r.newCall kind definition input caller).caller = some id ↔ caller = some id := by
        refine ⟨fun made => (caller_newCall made).1, ?_⟩
        rintro rfl
        exact caller_newCall_of_known kind definition input (.of_call? there)
      by_cases made : caller = some id
      · rw [if_pos made, if_pos (own.2 made), withSubcall, h.subcalls there]
      · rw [if_neg made, if_neg fun is => made (own.1 is), List.append_nil, h.subcalls there]
  callers := by
    intro id c parent found made
    rw [call?_pushCall] at found
    split at found
    · rename_i new
      cases found
      rw [new]
      exact (caller_newCall made).2
    · obtain ⟨d, there, rfl⟩ := Option.map_eq_some_iff.1 found
      refine h.callers there ?_
      split at made <;> exact made

@[simp] theorem isFinished_pushCall (kind : CallKind) (definition : Definition)
    (input : Arguments) (caller : Option CallId) :
    (r.pushCall kind definition input caller).1.isFinished = r.isFinished := by
  cases h : caller.filter fun c => decide (c.index < r.calls.size) with
  | none => simp only [Recording.pushCall, h, tick]
  | some parent =>
    simp only [Recording.pushCall, h, tick]
    rfl

@[simp] theorem isFinished_pushEffect (change : Change) (owner : Option CallId) :
    (r.pushEffect change owner).1.isFinished = r.isFinished := by
  cases h : owner.filter fun c => decide (c.index < r.calls.size) with
  | none =>
    rw [pushEffect_of_none h]
    rfl
  | some parent =>
    rw [pushEffect_of_some h]
    rfl

/-! ## Generators -/

/-- Every generator is kept with the value that it was recorded for, until the recording is
ended. -/
structure KeepsGenerators (r : Recording) : Prop where
  going : r.isFinished = false
  once : (r.generators.map Prod.fst).Nodup
  listed : ∀ {id}, id ∈ r.generators.map Prod.fst ↔ r.HasGenerator id

theorem keepsGenerators_empty (id : RunId) : (empty id).KeepsGenerators where
  going := rfl
  once := List.nodup_nil
  listed := by
    intro g
    refine iff_of_false List.not_mem_nil ?_
    rintro ⟨o, found, -⟩
    cases found

/-- A change that makes no generators. -/
theorem KeepsGenerators.congr (h : r.KeepsGenerators) (going : s.isFinished = r.isFinished)
    (generators : s.generators = r.generators)
    (objects : ∀ id, s.HasGenerator id ↔ r.HasGenerator id) : s.KeepsGenerators where
  going := going.trans h.going
  once := by
    rw [generators]
    exact h.once
  listed := by
    rw [generators]
    exact h.listed.trans (objects _).symm

theorem KeepsGenerators.ofObjects (h : r.KeepsGenerators) (going : s.isFinished = r.isFinished)
    (generators : s.generators = r.generators) (objects : s.objects = r.objects) :
    s.KeepsGenerators := by
  refine h.congr going generators fun id => ?_
  rw [HasGenerator, object?, objects, ← object?, ← HasGenerator]

theorem hasGenerator_pushObject (v : Value) (kind : ObjectKind) (id : ObjectId) :
    (r.pushObject v kind).1.HasGenerator id ↔
      (id = ⟨r.objects.size⟩ ∧ kind.isGenerator) ∨ r.HasGenerator id := by
  unfold HasGenerator
  rw [object?_pushObject]
  by_cases new : id.index = r.objects.size
  · obtain rfl : id = ⟨r.objects.size⟩ := by rw [← new]
    have none : r.object? ⟨r.objects.size⟩ = none := Array.getElem?_size
    rw [if_pos rfl, none]
    simp [newObject]
  · rw [if_neg new]
    have differ : id ≠ ⟨r.objects.size⟩ := fun same => new (by rw [same])
    simp [differ]

theorem hasGenerator_modifyKind {id : ObjectId} {f : ObjectKind → ObjectKind}
    (keeps : ∀ o, r.object? id = some o → (f o.kind).isGenerator = o.kind.isGenerator)
    (other : ObjectId) : (r.modifyKind id f).HasGenerator other ↔ r.HasGenerator other := by
  unfold HasGenerator
  rw [object?_modifyKind]
  by_cases same : other = id
  · subst same
    rw [if_pos rfl]
    cases found : r.object? other with
    | none => simp
    | some o => simp [keeps o found]
  · rw [if_neg same]

/-- A generator is kept with its value from the start. -/
theorem KeepsGenerators.pushGenerator (h : r.KeepsGenerators) (v : Value) {kind : ObjectKind}
    (isGenerator : kind.isGenerator) (handle : Handle) :
    KeepsGenerators { (r.pushObject v kind).1.remember handle ⟨r.objects.size⟩ with
      generators := r.generators ++ [(⟨r.objects.size⟩, v)] } where
  going := h.going
  once := by
    show ((r.generators ++ [((⟨r.objects.size⟩ : ObjectId), v)]).map Prod.fst).Nodup
    rw [List.map_append, List.nodup_append]
    refine ⟨h.once, List.nodup_singleton _, fun a mem b new same => ?_⟩
    -- the new object was not there
    obtain ⟨o, found, -⟩ := h.listed.1 mem
    rw [same, List.mem_singleton.1 new] at found
    exact absurd (found.symm.trans Array.getElem?_size) (Option.some_ne_none o)
  listed := by
    intro id
    show id ∈ (r.generators ++ [((⟨r.objects.size⟩ : ObjectId), v)]).map Prod.fst ↔
      (r.pushObject v kind).1.HasGenerator id
    rw [hasGenerator_pushObject, List.map_append, List.mem_append, h.listed]
    simp [isGenerator, or_comm]

end Recording

namespace Session

open Recording (Files KeepsGenerators)

variable {s t : Session}

/-! ## Sessions -/

/-- Noting values leaves calls where they are. -/
theorem Notes.files (h : s.Notes t) (files : s.recording.Files) : t.recording.Files :=
  files.congr (by rw [h.sameCalls.calls]) h.sameCalls.captured h.sameCalls.roots
    fun id => by rw [h.call?]

theorem Notes.keepsGenerators (h : s.Notes t) (keeps : s.recording.KeepsGenerators) :
    t.recording.KeepsGenerators := by
  have other {u : Session} (v : Value) {kind : ObjectKind} (plain : kind.isGenerator = false)
      (id : ObjectId) :
      (u.recording.pushObject v kind).1.HasGenerator id ↔ u.recording.HasGenerator id :=
    (Recording.hasGenerator_pushObject v kind id).trans (by simp [plain])
  induction h with
  | refl => exact keeps
  | @stray t _ v ih => exact ih.congr rfl rfl (other v rfl)
  | @known t _ v kind _ ih =>
    cases kind with
    | generator activation calls => exact ih.pushGenerator v rfl v.handle
    | _ => exact ih.congr rfl rfl (other v rfl)
  | altered _ id keeps ih =>
    exact ih.congr rfl rfl (Recording.hasGenerator_modifyKind fun o found =>
      (keeps.becomes o found).isGenerator)
  | linked _ same ih => exact ih

theorem Opens.files {caller : Option CallId} {id : CallId} (h : s.Opens caller id t)
    (files : s.recording.Files) : t.recording.Files := by
  obtain ⟨-, before, kind, definition, input, notes, -, after⟩ := h
  exact after.files ((notes.files files).pushCall kind definition input caller)

theorem Opens.keepsGenerators {caller : Option CallId} {id : CallId} (h : s.Opens caller id t)
    (keeps : s.recording.KeepsGenerators) : t.recording.KeepsGenerators := by
  obtain ⟨-, before, kind, definition, input, notes, -, after⟩ := h
  exact after.keepsGenerators ((notes.keepsGenerators keeps).ofObjects
    (Recording.isFinished_pushCall ..) (Recording.generators_pushCall ..)
    (Recording.objects_pushCall ..))

end Session

end Reenact
