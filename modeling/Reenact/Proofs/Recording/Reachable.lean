import Reenact.Proofs.Recording.Parts

/-!
# Recordings that operations lead to

A recording is reachable when operations lead to it from one that holds nothing, in any order and
with any values. The project is shared and not the recording's own: at each operation it may look
differently, as other recordings link it and definitions are added (`Recording.IsReachable`).

**The law** (`IsReachable.isBuilt`): every object of a reachable recording was put together the way
values are, from objects with smaller numbers. So going from an object to its parts, and to theirs,
ends (`IsBuilt.wellFounded_isPartOf`), and an instance of a library type is one of a known type,
with the imports of that type.
-/

namespace Reenact

open ObjectKind (Gains Drops)

/-! ## One object -/

/-- An instance of a library type is made with the format and the imports of one of the known types.
-/
def ObjectKind.IsOfKnownType : ObjectKind → Prop
  | library format _ imports =>
    ∃ type ∈ LibraryType.known, format = type.format ∧ imports = .single type.neededImport
  | _ => True

/-- The object with that number was put together the way values are, from objects before it. -/
structure ObjectKind.IsBuiltAt (n : Nat) (kind : ObjectKind) : Prop where
  parts : ∀ part ∈ kind.parts, part.index < n
  type : kind.IsOfKnownType

theorem Project.mem_known_of_outline {p : Project} {v : Value} {type : LibraryType}
    {args : List Value} (h : p.outline v = .library type args) : type ∈ LibraryType.known := by
  have plain (h : v.plainOutline = .library type args) : type ∈ LibraryType.known := by
    cases v with
    | library header attributes =>
      simp only [Value.plainOutline] at h
      split at h
      · cases h
      · rename_i found
        split at h
        · cases h
          exact List.mem_of_find?_eq_some found
        · cases h
    | exception _ args isBuiltin => cases isBuiltin <;> cases h
    | _ => cases h
  unfold outline at h
  split at h
  · cases h
  · split at h
    · cases h
    · exact plain h

namespace ObjectKind

variable {n : Nat} {a b : ObjectKind}

/-- What a value becomes, with parts that are objects already. -/
theorem isBuiltAt_build (p : Project) (v : Value) {ids : List ObjectId}
    (before : ∀ id ∈ ids, id.index < n) : ((p.outline v).build ids).IsBuiltAt n := by
  cases h : p.outline v with
  | whole kind =>
    have none : kind.parts = [] ∧ kind.IsOfKnownType := by
      rcases Session.outline_whole_cases h with ⟨_, _, rfl⟩ | ⟨_, rfl⟩ | ⟨_, rfl⟩ | rfl <;>
        exact ⟨rfl, trivial⟩
    refine ⟨fun part mem => ?_, none.2⟩
    rw [Outline.build, none.1] at mem
    cases mem
  | sequence | exception => exact ⟨before, trivial⟩
  | map => exact ⟨fun id mem => before id (Session.mem_pairUp mem), trivial⟩
  | library type => exact ⟨before, type, Project.mem_known_of_outline h, rfl, rfl⟩

theorem IsBuiltAt.gains (h : a.IsBuiltAt n) (gains : a.Gains b) : b.IsBuiltAt n := by
  refine ⟨fun part mem => h.parts part (gains.parts ▸ mem), ?_⟩
  cases gains with
  | same => exact h.type
  | user | generator => trivial

theorem IsBuiltAt.drops (h : a.IsBuiltAt n) (drops : a.Drops b) : b.IsBuiltAt n := by
  refine ⟨fun part mem => h.parts part (drops.parts ▸ mem), ?_⟩
  cases drops with
  | same => exact h.type
  | last => trivial

end ObjectKind

namespace Recording

variable {r s : Recording}

/-! ## All objects -/

/-- Every object was put together the way values are, from objects before it. -/
structure IsBuilt (r : Recording) : Prop extends r.HasParts where
  built : ∀ {id o}, r.object? id = some o → o.kind.IsBuiltAt id.index

/-- The first object is a part of the second one. -/
def IsPartOf (r : Recording) (x y : ObjectId) : Prop := ∃ o, r.object? y = some o ∧ x ∈ o.parts

theorem IsBuilt.index_lt (h : r.IsBuilt) {x y : ObjectId} (part : r.IsPartOf x y) :
    x.index < y.index := by
  obtain ⟨o, found, mem⟩ := part
  exact (h.built found).parts x mem

/-- Going from objects to their parts ends. -/
theorem IsBuilt.wellFounded_isPartOf (h : r.IsBuilt) : WellFounded r.IsPartOf :=
  Subrelation.wf (fun part => h.index_lt part) (measure ObjectId.index).wf

/-- Every side effect carries its own number. -/
def NumbersEffects (r : Recording) : Prop := ∀ id e, r.effect? id = some e → e.id = id

theorem Sound.numbersEffects (h : r.Sound) : r.NumbersEffects :=
  fun _ _ found => (h.effects found).1

theorem NumbersEffects.of_sameHeads (h : r.NumbersEffects) (same : r.SameHeads s) :
    s.NumbersEffects := fun x e found => (same.numbered found).elim (h x e) fun eq => eq

/-- Objects that were there already are put together as they were. -/
theorem KeepsSnapshots.isBuiltAt {becomes : ObjectId → ObjectKind → ObjectKind → Prop}
    (h : r.KeepsSnapshots becomes s) (size : s.objects.size = r.objects.size)
    (keeps : ∀ {id a b}, becomes id a b → a.IsBuiltAt id.index → b.IsBuiltAt id.index)
    (built : ∀ {id o}, r.object? id = some o → o.kind.IsBuiltAt id.index) {id : ObjectId}
    {o : Object} (found : s.object? id = some o) : o.kind.IsBuiltAt id.index := by
  have lt := hasObject_iff.1 (.of_object? found)
  rw [size] at lt
  obtain ⟨before, there⟩ := hasObject_iff.2 lt
  obtain ⟨kind, kept, made⟩ := h.objects there
  cases found.symm.trans kept
  exact keeps made (built there)

end Recording

namespace Session

open Recording (IsBuilt KeepsGeneratorsOnce)

variable {s t : Session}

/-! ## Operations -/

theorem isBuilt_pushStray (h : s.recording.IsBuilt) (v : Value) :
    (s.pushStray v).1.recording.IsBuilt where
  toHasParts := hasParts_pushStray h.toHasParts v
  built found := by
    rw [object?_pushStray] at found
    split at found
    · cases found
      exact ⟨fun _ mem => (List.not_mem_nil mem).elim, trivial⟩
    · exact h.built found

theorem isBuilt_pushKnown (h : s.recording.IsBuilt) (p : Project) (v : Value) {ids : List ObjectId}
    (there : ∀ id ∈ ids, s.recording.HasObject id) :
    (s.pushKnown v ((p.outline v).build ids)).1.recording.IsBuilt where
  toHasParts := hasParts_pushKnown h.toHasParts v (isFresh_build there).parts
  built found := by
    rw [object?_pushKnown] at found
    split at found
    · rename_i last
      cases found
      rw [last]
      exact ObjectKind.isBuiltAt_build p v fun id mem => Recording.hasObject_iff.1 (there id mem)
    · exact h.built found

theorem isBuilt_serialize (h : s.recording.IsBuilt) (v : Value) :
    (s.serialize v).1.recording.IsBuilt :=
  (serializeWithin_keeps (P := (·.recording.IsBuilt)) (fun h => h.toHasParts)
    (fun v h => isBuilt_pushStray h v) (fun p v _ h there => isBuilt_pushKnown h p v there) [] v
    h).1

theorem LeavesValues.isBuilt (left : s.LeavesValues t) (h : s.recording.IsBuilt) :
    t.recording.IsBuilt where
  toHasParts := left.hasParts h.toHasParts
  built := left.snapshots.isBuiltAt left.size (fun gains built => built.gains gains) h.built

theorem isBuilt_finish (h : s.recording.IsBuilt) (once : s.recording.KeepsGeneratorsOnce)
    (isExhausted : Value → Bool) : (s.finish isExhausted).recording.IsBuilt where
  toHasParts := hasParts_finish h.toHasParts once isExhausted
  built := by
    have size : (s.recording.finish isExhausted).objects.size = s.recording.objects.size := by
      rcases Recording.finish_sameHandles_or s.recording isExhausted with same | ⟨-, size⟩
      · exact same.size
      · exact size
    intro id o
    exact (Recording.keepsSnapshots_finish once isExhausted).isBuiltAt size
      (fun drops built => built.drops drops) h.built

theorem isBuilt_perform (h : s.recording.IsBuilt) (once : s.recording.KeepsGeneratorsOnce)
    (op : Operation) : (s.perform op).recording.IsBuilt := by
  have changes (keeps : op.keepsHandles) : (s.perform op).recording.IsBuilt :=
    (perform_proceeds s op keeps).keeps (P := (·.recording.IsBuilt))
      (fun v _ _ h => isBuilt_serialize h v) (fun _ _ left h => left.isBuilt h) h
  cases op with
  | finish isExhausted => exact isBuilt_finish h once isExhausted
  | erase => exact ⟨⟨by rintro g id ⟨⟩, by rintro id o ⟨⟩⟩, by rintro id o ⟨⟩⟩
  | _ => exact changes rfl

theorem numbersEffects_of_does {op : Operation} (h : s.recording.NumbersEffects)
    (step : op.Does s t) : t.recording.NumbersEffects := by
  have same (eq : t.recording.effects = s.recording.effects) : t.recording.NumbersEffects := by
    intro id e found
    rw [Recording.effect?, eq] at found
    exact h id e found
  cases step with
  | takes taken => exact same taken.sameCalls.effects
  | amends heads => exact h.of_sameHeads heads
  | links | activates | activatesOn => exact same rfl
  | calls | callsMethod | resumes =>
    refine same ?_
    simp only [record, Recording.effects_modifyKind, Recording.effects_pushCall]

theorem numbersEffects_of_doesAll {op : Operation} (h : s.recording.NumbersEffects)
    (all : DoesAll op s t) : t.recording.NumbersEffects := by
  induction all with
  | refl => exact h
  | tail _ step ih => exact numbersEffects_of_does ih step

theorem numbersEffects_finish (h : s.recording.NumbersEffects) (isExhausted : Value → Bool) :
    (s.finish isExhausted).recording.NumbersEffects := by
  unfold finish record Recording.finish
  dsimp only
  split
  · exact h
  · refine List.foldlRecOn (motive := fun r : Recording => r.NumbersEffects) _ _ h
      fun r numbers x _ => ?_
    cases trailing : r.trailingResumption? x with
    | none =>
      rw [Recording.dropTrailing, trailing]
      exact numbers
    | some last =>
      obtain ⟨d, same, dropped⟩ := Recording.dropTrailing_sameHeads trailing
      have shortened : (r.modifyKind x (·.dropResumption)).NumbersEffects := numbers
      have detached : d.NumbersEffects := shortened.of_sameHeads same
      rw [dropped]
      exact detached

theorem numbersEffects_perform (h : s.recording.NumbersEffects) (op : Operation) :
    (s.perform op).recording.NumbersEffects := by
  have changes (keeps : op.keepsHandles) : (s.perform op).recording.NumbersEffects :=
    numbersEffects_of_doesAll h (perform_does s op keeps)
  cases op with
  | finish isExhausted => exact numbersEffects_finish h isExhausted
  | erase => rintro id e ⟨⟩
  | _ => exact changes rfl

end Session

namespace Recording

/-! ## Any number of them -/

/-- Operations lead to the recording from one that holds nothing, whatever the project is at each of
them. -/
inductive IsReachable : Recording → Prop
  | start (run : RunId) : IsReachable (empty run)
  | perform {r : Recording} (before : IsReachable r) (p : Project) (op : Operation) :
    IsReachable ((⟨p, r⟩ : Session).perform op).recording

variable {r : Recording}

theorem IsReachable.isBuilt (h : r.IsReachable) : r.IsBuilt := by
  have both : r.IsBuilt ∧ r.KeepsGeneratorsOnce := by
    induction h with
    | start run =>
      exact ⟨⟨⟨by rintro g id ⟨⟩, by rintro id o ⟨⟩⟩, by rintro id o ⟨⟩⟩,
        keepsGeneratorsOnce_of_nil rfl⟩
    | perform _ p op ih =>
      exact ⟨Session.isBuilt_perform (s := ⟨p, _⟩) ih.1 ih.2 op,
        Session.keepsGeneratorsOnce_perform (s := ⟨p, _⟩) ih.2 op⟩
  exact both.1

theorem IsReachable.numbersEffects (h : r.IsReachable) : r.NumbersEffects := by
  induction h with
  | start run => rintro id e ⟨⟩
  | perform _ p op ih => exact Session.numbersEffects_perform (s := ⟨p, _⟩) ih op

/-- Operations of a session lead to reachable recordings. -/
theorem isReachable_performAll (project : Project) (run : RunId) (ops : List Operation) :
    ((Session.start project run).performAll ops).recording.IsReachable :=
  Session.performAll_induction (P := (·.recording.IsReachable)) (.start run)
    fun op _ s h => h.perform s.project op

end Recording

end Reenact
