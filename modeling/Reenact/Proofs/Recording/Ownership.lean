import Reenact.Proofs.Recording.Calling
import Reenact.Proofs.Recording.Ending

/-!
# Calls and the objects they are made on

An instance names its constructor call and the calls of its methods, and a generator names its
resumptions. In a recording that `OwnsCalls`, all of them were made on the object that names them, so
no two objects name one call, and every call is listed among those captured.

At the end of a recording the last resumptions of exhausted generators are no longer listed. They are
named by generators, so every constructor call still is (`OwnsCalls.finish`).
-/

namespace Reenact

namespace Recording

variable {r s : Recording}

/-- Objects name only calls that were made on them. -/
def NamesOwnCalls (r : Recording) : Prop :=
  ∀ id o, r.object? id = some o → ∀ call ∈ o.kind.callRefs, r.HasCallOn id call

/-- Objects name only calls that were made on them, and every call is listed. -/
structure OwnsCalls (r : Recording) : Prop where
  named : r.NamesOwnCalls
  captured : ∀ id, r.HasCall id → id ∈ r.captured

/-- Every constructor call of an instance is listed. -/
def ListsConstructors (r : Recording) : Prop :=
  ∀ id o cls init uses, r.object? id = some o → o.kind = .user cls (some init) uses →
    init ∈ r.captured

/-- No call is made on two objects. -/
theorem HasCallOn.unique {a b : ObjectId} {call : CallId} (first : r.HasCallOn a call)
    (second : r.HasCallOn b call) : a = b := by
  obtain ⟨c, found, subject⟩ := first
  obtain ⟨d, found', subject'⟩ := second
  rw [found] at found'
  cases found'
  rw [subject] at subject'
  exact Option.some.inj subject'

/-- Every call of the first recording is in the second one, and of the same kind. -/
def KeepsKinds (r s : Recording) : Prop :=
  ∀ id c, r.call? id = some c → ∃ c', s.call? id = some c' ∧ c'.kind = c.kind

theorem HasCallOn.mono {id : ObjectId} {call : CallId} (keeps : r.KeepsKinds s)
    (h : r.HasCallOn id call) : s.HasCallOn id call := by
  obtain ⟨c, found, subject⟩ := h
  obtain ⟨c', found', kind⟩ := keeps call c found
  exact ⟨c', found', kind ▸ subject⟩

theorem KeepsKinds.of_calls (same : s.calls = r.calls) : r.KeepsKinds s :=
  fun id c found => ⟨c, by rw [call?, same]; exact found, rfl⟩

theorem KeepsKinds.trans {t : Recording} (first : r.KeepsKinds s) (second : s.KeepsKinds t) :
    r.KeepsKinds t := by
  intro id c found
  obtain ⟨c', found', kind⟩ := first id c found
  obtain ⟨c'', found'', kind'⟩ := second id c' found'
  exact ⟨c'', found'', kind'.trans kind⟩

theorem keepsKinds_modifyCall (r : Recording) (id : CallId) {f : Call → Call}
    (kind : ∀ c, (f c).kind = c.kind) : r.KeepsKinds (r.modifyCall id f) := by
  intro other c found
  rw [call?_modifyCall]
  split
  · rename_i same
    subst same
    exact ⟨f c, by rw [found]; rfl, kind c⟩
  · exact ⟨c, found, rfl⟩

theorem keepsKinds_pushCall (r : Recording) (kind : CallKind) (definition : Definition)
    (input : Arguments) (caller : Option CallId) :
    r.KeepsKinds (r.pushCall kind definition input caller).1 := by
  intro id c found
  have old : id.index ≠ r.calls.size := Nat.ne_of_lt (hasCall_iff.1 ⟨c, found⟩)
  refine ⟨_, by rw [call?_pushCall, if_neg old, found]; rfl, ?_⟩
  split <;> rfl

theorem keepsKinds_pushEffect (r : Recording) (change : Change) (owner : Option CallId) :
    r.KeepsKinds (r.pushEffect change owner).1 := by
  intro id c found
  refine ⟨_, by rw [call?_pushEffect, found]; rfl, ?_⟩
  split <;> rfl

/-! ## Changes of a recording -/

/-- A change of calls alone, which keeps their kinds. -/
theorem NamesOwnCalls.keepObjects (h : r.NamesOwnCalls) (objects : s.objects = r.objects)
    (keeps : r.KeepsKinds s) : s.NamesOwnCalls := by
  intro id o found call mem
  rw [object?, objects] at found
  exact (h id o found call mem).mono keeps

theorem NamesOwnCalls.pushObject (h : r.NamesOwnCalls) (v : Value) {kind : ObjectKind}
    (callRefs : kind.callRefs = []) : (r.pushObject v kind).1.NamesOwnCalls := by
  intro id o found call mem
  rw [object?_pushObject] at found
  split at found
  · cases found
    rw [newObject, callRefs] at mem
    cases mem
  · exact (h id o found call mem).mono (.of_calls rfl)

theorem NamesOwnCalls.modifyKind (h : r.NamesOwnCalls) (id : ObjectId)
    {f : ObjectKind → ObjectKind}
    (callRefs : ∀ kind, ∀ x ∈ (f kind).callRefs, x ∈ kind.callRefs ∨ r.HasCallOn id x) :
    (r.modifyKind id f).NamesOwnCalls := by
  intro other o found call mem
  refine HasCallOn.mono (.of_calls rfl : r.KeepsKinds (r.modifyKind id f)) ?_
  rw [object?_modifyKind] at found
  split at found
  · rename_i same
    subst same
    obtain ⟨old, there, rfl⟩ := Option.map_eq_some_iff.1 found
    rcases callRefs old.kind call mem with mem | own
    · exact h other old there call mem
    · exact own
  · exact h other o found call mem

/-- A change that adds no call and keeps the list of calls and the objects. -/
theorem OwnsCalls.keepCalls (h : r.OwnsCalls) (objects : s.objects = r.objects)
    (keeps : r.KeepsKinds s) (size : s.calls.size = r.calls.size)
    (captured : s.captured = r.captured) : s.OwnsCalls where
  named := h.named.keepObjects objects keeps
  captured id known := by
    rw [hasCall_iff, size, ← hasCall_iff] at known
    rw [captured]
    exact h.captured id known

theorem OwnsCalls.pushCall (h : r.OwnsCalls) (kind : CallKind) (definition : Definition)
    (input : Arguments) (caller : Option CallId) :
    (r.pushCall kind definition input caller).1.OwnsCalls where
  named := h.named.keepObjects (objects_pushCall ..)
    (keepsKinds_pushCall r kind definition input caller)
  captured id known := by
    rw [hasCall_iff, size_calls_pushCall] at known
    rw [captured_pushCall]
    rcases Nat.lt_succ_iff_lt_or_eq.1 known with old | new
    · exact List.mem_append_left _ (h.captured id (hasCall_iff.2 old))
    · exact List.mem_append_right _ (List.mem_singleton.2 (congrArg CallId.mk new))

theorem ownsCalls_empty (id : RunId) : (empty id).OwnsCalls where
  named _ _ found := by simp [object?, empty] at found
  captured _ known := by simp [hasCall_iff, empty] at known

/-! ## The end of a recording -/

theorem OwnsCalls.listsConstructors (h : r.OwnsCalls) : r.ListsConstructors := by
  intro id o cls init uses found kind
  refine h.captured init (h.named id o found init ?_).hasCall
  rw [kind]
  exact List.mem_append_left _ (Option.mem_toList.2 rfl)

theorem keepsKinds_detach {id : CallId} (eq : r.detach id = .ok s) :
    s.objects = r.objects ∧ s.captured = r.captured ∧ r.KeepsKinds s := by
  unfold detach at eq
  obtain ⟨call, -, eq⟩ := bind_eq_ok.1 eq
  split at eq <;> rw [← pure_eq_ok.1 eq]
  · exact ⟨rfl, rfl, keepsKinds_modifyCall r _ fun _ => rfl⟩
  · exact ⟨rfl, rfl, .of_calls rfl⟩

/-- What is taken out at the end is the last resumption of a generator. -/
theorem getLast_of_trailingResumption? {id : ObjectId} {last : CallId}
    (eq : r.trailingResumption? id = some last) :
    ∃ o activation calls, r.object? id = some o ∧ o.kind = .generator activation calls ∧
      calls.getLast? = some last := by
  obtain ⟨⟨last', output⟩, returned, eq⟩ := Option.bind_eq_some_iff.1 eq
  obtain ⟨object, -, eq⟩ := Option.bind_eq_some_iff.1 eq
  split at eq
  · cases eq
    obtain ⟨last', final, returned⟩ := Option.bind_eq_some_iff.1 returned
    obtain ⟨call, -, returned⟩ := Option.bind_eq_some_iff.1 returned
    obtain ⟨value, -, made⟩ := Option.bind_eq_some_iff.1 returned
    cases made
    unfold resumptionsOf at final
    split at final
    · rename_i activation calls found
      obtain ⟨o, there, kind⟩ := Option.map_eq_some_iff.1 found
      exact ⟨o, activation, calls, there, kind, final⟩
    · cases final
  · cases eq

/-- Taking out a last resumption changes the generator, the lists of calls, and nothing else. -/
theorem dropTrailing_eq {id : ObjectId} {last : CallId}
    (eq : r.trailingResumption? id = some last) :
    (r.dropTrailing id).objects = (r.modifyKind id (·.dropResumption)).objects ∧
      (r.dropTrailing id).captured = r.captured.filter (· != last) ∧
      r.KeepsKinds (r.dropTrailing id) := by
  unfold dropTrailing
  rw [eq]
  dsimp only
  split
  · rename_i detached step
    obtain ⟨objects, captured, keeps⟩ := keepsKinds_detach step
    refine ⟨objects, by rw [captured]; rfl, ?_⟩
    exact (KeepsKinds.of_calls rfl).trans (keeps.trans (.of_calls rfl))
  · exact ⟨rfl, rfl, .of_calls rfl⟩

theorem NamesOwnCalls.dropTrailing (h : r.NamesOwnCalls) (id : ObjectId) :
    (r.dropTrailing id).NamesOwnCalls := by
  cases eq : r.trailingResumption? id with
  | none =>
    rw [Recording.dropTrailing, eq]
    exact h
  | some last =>
    obtain ⟨objects, -, keeps⟩ := dropTrailing_eq eq
    exact (h.modifyKind id fun kind x mem => .inl (mem_callRefs_dropResumption mem)).keepObjects
      objects keeps

/-- The constructor call of an instance is no resumption, so it stays listed. -/
theorem ListsConstructors.dropTrailing (h : r.ListsConstructors) (named : r.NamesOwnCalls)
    (id : ObjectId) : (r.dropTrailing id).ListsConstructors := by
  cases eq : r.trailingResumption? id with
  | none =>
    rw [Recording.dropTrailing, eq]
    exact h
  | some last =>
    obtain ⟨objects, captured, -⟩ := dropTrailing_eq eq
    obtain ⟨g, activation, calls, there, generator, final⟩ := getLast_of_trailingResumption? eq
    have onGenerator : r.HasCallOn id last := by
      refine named id g there last ?_
      rw [generator]
      exact List.mem_of_getLast? final
    intro other o cls init uses found kind
    rw [object?, objects, ← object?, object?_modifyKind] at found
    split at found
    · rename_i same
      rw [there] at found
      cases found
      simp only [generator, ObjectKind.dropResumption, reduceCtorEq] at kind
    · rename_i differ
      have own : r.HasCallOn other init := by
        refine named other o found init ?_
        rw [kind]
        exact List.mem_append_left _ (Option.mem_toList.2 rfl)
      rw [captured]
      refine List.mem_filter.2 ⟨h other o cls init uses found kind, bne_iff_ne.2 ?_⟩
      rintro rfl
      exact differ (own.unique onGenerator)

/-- At the end of a recording objects name only calls made on them, and constructor calls are listed. -/
theorem OwnsCalls.finish (h : r.OwnsCalls) (isExhausted : Value → Bool) :
    (r.finish isExhausted).NamesOwnCalls ∧ (r.finish isExhausted).ListsConstructors := by
  unfold Recording.finish
  split
  · exact ⟨h.named, h.listsConstructors⟩
  · have all : ((r.exhausted isExhausted).foldl Recording.dropTrailing r).NamesOwnCalls ∧
        ((r.exhausted isExhausted).foldl Recording.dropTrailing r).ListsConstructors :=
      List.foldlRecOn (motive := fun r => NamesOwnCalls r ∧ ListsConstructors r) _ _
        ⟨h.named, h.listsConstructors⟩ fun _ both id _ =>
          ⟨both.1.dropTrailing id, both.2.dropTrailing both.1 id⟩
    exact ⟨all.1.keepObjects rfl (.of_calls rfl), all.2⟩

end Recording

namespace Session

variable {s t : Session}

/-! ## Sessions -/

/-- Noting values makes objects name only calls made on them. -/
theorem Notes.namesOwnCalls (h : s.Notes t) (named : s.recording.NamesOwnCalls) :
    t.recording.NamesOwnCalls := by
  induction h with
  | refl => exact named
  | stray _ v ih => exact ih.pushObject v rfl
  | @known t _ v kind fresh ih =>
    have pushed := ih.pushObject v fresh.callRefs
    rcases pushKnown_recording t v kind with eq | eq <;> rw [eq] <;>
      exact pushed.keepObjects rfl (.of_calls rfl)
  | altered _ id keeps ih => exact ih.modifyKind id keeps.callRefs
  | linked _ same ih => exact ih

theorem Notes.ownsCalls (h : s.Notes t) (owns : s.recording.OwnsCalls) :
    t.recording.OwnsCalls where
  named := h.namesOwnCalls owns.named
  captured id known := by
    rw [Recording.hasCall_iff, h.sameCalls.calls, ← Recording.hasCall_iff] at known
    rw [h.sameCalls.captured]
    exact owns.captured id known

theorem Opens.ownsCalls {caller : Option CallId} {id : CallId} (h : s.Opens caller id t)
    (owns : s.recording.OwnsCalls) : t.recording.OwnsCalls := by
  obtain ⟨-, before, kind, definition, input, notes, -, after⟩ := h
  exact after.ownsCalls ((notes.ownsCalls owns).pushCall kind definition input caller)

end Session

end Reenact
