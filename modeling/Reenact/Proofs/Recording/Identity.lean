import Reenact.Proofs.Recording.Classifying
import Reenact.Proofs.Recording.Operation

/-!
# The identity of values

Two values are the same to a session when their handles are, and recording them keeps it so: a handle
stands for one object as long as the recording has not ended, and different handles stand for different
objects (`Recording.Identifies`). A value met again inside itself becomes an object of its own that no
handle stands for, then or later (`Recording.IsNameless`).

**The law** (`preservesIdentity`): this holds in every session that operations lead to, for every
value, whatever its handles are and however they repeat in it.
-/

namespace Reenact

namespace Recording

variable {r s : Recording}

/-- Handles stand for objects of the recording, and no two of them for one object. -/
structure Identifies (r : Recording) : Prop where
  there : ∀ {h : Handle} {id : ObjectId}, r.lookup h = some id → r.HasObject id
  distinct : ∀ {g h : Handle} {id : ObjectId}, r.lookup g = some id → r.lookup h = some id → g = h

/-- The entry has the name of the argument, and the object that its handle stands for. -/
def Knows (r : Recording) (arg : String × Value) (entry : String × ObjectId) : Prop :=
  entry.1 = arg.1 ∧ r.lookup arg.2.handle = some entry.2

/-- Objects that handles stand for, under the names of the values. -/
theorem knows_zip {args : List (String × Value)} {ids : List ObjectId}
    (found : List.Forall₂ (fun v id => r.lookup v.handle = some id) (args.map Prod.snd) ids) :
    List.Forall₂ r.Knows args ((args.map Prod.fst).zip ids) := by
  induction args generalizing ids with
  | nil => exact .nil
  | cons arg rest ih =>
    obtain _ | ⟨first, others⟩ := found
    exact .cons ⟨rfl, first⟩ (ih others)

/-- An object that no handle stands for. -/
structure IsNameless (r : Recording) (id : ObjectId) : Prop where
  there : r.HasObject id
  nameless : ∀ h, r.lookup h ≠ some id

/-- Both recordings have the same handles and equally many objects. -/
structure SameHandles (r s : Recording) : Prop where
  known : s.known = r.known
  size : s.objects.size = r.objects.size

theorem SameHandles.lookup (same : r.SameHandles s) (h : Handle) : s.lookup h = r.lookup h := by
  rw [Recording.lookup, same.known, Recording.lookup]

theorem SameHandles.hasObject (same : r.SameHandles s) {id : ObjectId} (h : r.HasObject id) :
    s.HasObject id := by
  rw [hasObject_iff, same.size]
  exact hasObject_iff.1 h

theorem Identifies.congr (same : r.SameHandles s) (h : r.Identifies) : s.Identifies where
  there found := same.hasObject (h.there (same.lookup _ ▸ found))
  distinct first second := h.distinct (same.lookup _ ▸ first) (same.lookup _ ▸ second)

theorem IsNameless.congr (same : r.SameHandles s) {id : ObjectId} (h : r.IsNameless id) :
    s.IsNameless id where
  there := same.hasObject h.there
  nameless g found := h.nameless g (same.lookup g ▸ found)

/-! ## The end of a recording -/

theorem sameHandles_dropTrailing (r : Recording) (id : ObjectId) :
    r.SameHandles (r.dropTrailing id) := by
  unfold dropTrailing
  split
  · exact ⟨rfl, rfl⟩
  · dsimp only
    split
    · rename_i detached
      have same := sameHeads_detach detached
      refine ⟨same.known, ?_⟩
      dsimp only
      rw [same.objects, size_objects_modifyKind]
    · exact ⟨rfl, size_objects_modifyKind ..⟩

/-- Ending a recording changes nothing of the handles, or makes all of them stand for nothing. -/
theorem finish_sameHandles_or (r : Recording) (isExhausted : Value → Bool) :
    r.SameHandles (r.finish isExhausted) ∨ ((r.finish isExhausted).known = [] ∧
      (r.finish isExhausted).objects.size = r.objects.size) := by
  unfold finish
  split
  · exact .inl ⟨rfl, rfl⟩
  · refine .inr ⟨rfl, ?_⟩
    exact List.foldlRecOn (motive := fun s => s.objects.size = r.objects.size) _ _ rfl
      fun s same id _ => (sameHandles_dropTrailing s id).size.trans same

theorem Identifies.finish (h : r.Identifies) (isExhausted : Value → Bool) :
    (r.finish isExhausted).Identifies := by
  rcases finish_sameHandles_or r isExhausted with same | ⟨none, -⟩
  · exact h.congr same
  · have empty (g : Handle) : (r.finish isExhausted).lookup g = Option.none := by
      rw [lookup, none]
      rfl
    constructor
    · intro g id found
      rw [empty] at found
      cases found
    · intro g g' id found
      rw [empty] at found
      cases found

theorem IsNameless.finish {id : ObjectId} (h : r.IsNameless id) (isExhausted : Value → Bool) :
    (r.finish isExhausted).IsNameless id := by
  rcases finish_sameHandles_or r isExhausted with same | ⟨none, size⟩
  · exact h.congr same
  · refine ⟨hasObject_iff.2 (size ▸ hasObject_iff.1 h.there), fun g found => ?_⟩
    rw [lookup, none] at found
    cases found

end Recording

namespace Session

open Recording (Identifies IsNameless SameHandles)

variable {around : List Handle} {s t u : Session}

/-! ## Taking values in -/

theorem Takes.identifies (h : s.Takes around t) (start : s.recording.Identifies) :
    t.recording.Identifies := by
  induction h with
  | refl => exact start
  | stray _ v ih =>
    refine ⟨fun found => ?_, ih.distinct⟩
    exact (ih.there found).mono (Recording.grows_pushObject ..)
  | @known t _ v kind _ free _ ih =>
    -- the new object has a number that no handle stood for
    have new {g : Handle} (old : t.recording.lookup g = some ⟨t.recording.objects.size⟩) : False :=
      Nat.lt_irrefl _ (Recording.hasObject_iff.1 (ih.there old))
    constructor
    · intro g id found
      rw [Recording.hasObject_iff, size_objects_pushKnown]
      rw [lookup_pushKnown] at found
      split at found
      · cases found
        exact Nat.lt_succ_self _
      · exact Nat.lt_succ_of_lt (Recording.hasObject_iff.1 (ih.there found))
    · intro g g' id first second
      rw [lookup_pushKnown] at first second
      split at first <;> split at second
      · rename_i same same'
        rw [same, same']
      · cases first
        exact (new second).elim
      · cases second
        exact (new first).elim
      · exact ih.distinct first second

theorem Takes.isNameless (h : s.Takes around t) {id : ObjectId}
    (nameless : s.recording.IsNameless id) : t.recording.IsNameless id := by
  induction h with
  | refl => exact nameless
  | stray _ v ih => exact ⟨ih.there.mono (Recording.grows_pushObject ..), ih.nameless⟩
  | @known t _ v kind _ _ _ ih =>
    have lt := Recording.hasObject_iff.1 ih.there
    refine ⟨?_, fun g found => ?_⟩
    · rw [Recording.hasObject_iff, size_objects_pushKnown]
      exact Nat.lt_succ_of_lt lt
    · rw [lookup_pushKnown] at found
      split at found
      · cases found
        exact Nat.lt_irrefl _ lt
      · exact ih.nameless g found

/-! ## Operations -/

/-- Besides taking values in, no change concerns the handles. -/
theorem takes_or_sameHandles {op : Operation} (h : op.Does s t) :
    s.Takes [] t ∨ s.recording.SameHandles t.recording := by
  cases h with
  | takes taken => exact .inl taken
  | links same => exact .inr ⟨rfl, rfl⟩
  | amends same => exact .inr ⟨same.known, by rw [same.objects]⟩
  | calls | callsMethod | activates | activatesOn | resumes =>
    refine .inr ⟨?_, ?_⟩ <;>
      simp only [record, Recording.known_modifyKind, Recording.known_pushCall,
        Recording.size_objects_modifyKind, Recording.objects_pushCall]

/-- What taking values in and changes apart from the handles keep, operations keep. -/
theorem doesAll_induction {P : Session → Prop} {op : Operation} (h : DoesAll op s t) (start : P s)
    (takes : ∀ a b : Session, a.Takes [] b → P a → P b)
    (same : ∀ a b : Session, a.recording.SameHandles b.recording → P a → P b) : P t := by
  induction h with
  | refl => exact start
  | tail _ step ih =>
    rcases takes_or_sameHandles step with taken | alike
    · exact takes _ _ taken ih
    · exact same _ _ alike ih

theorem identifies_perform (h : s.recording.Identifies) (op : Operation) :
    (s.perform op).recording.Identifies := by
  have changes (keeps : op.keepsHandles) : (s.perform op).recording.Identifies :=
    doesAll_induction (P := (·.recording.Identifies)) (perform_does s op keeps) h
      (fun _ _ taken old => taken.identifies old) fun _ _ same old => old.congr same
  cases op with
  | finish isExhausted => exact h.finish isExhausted
  | erase =>
    constructor
    · rintro g id ⟨⟩
    · rintro g g' id ⟨⟩
  | _ => exact changes rfl

theorem isNameless_perform {id : ObjectId} (h : s.recording.IsNameless id) {op : Operation}
    (keeps : op.keepsObjects) : (s.perform op).recording.IsNameless id := by
  have changes (keeps : op.keepsHandles) : (s.perform op).recording.IsNameless id :=
    doesAll_induction (P := (·.recording.IsNameless id)) (perform_does s op keeps) h
      (fun _ _ taken old => taken.isNameless old) fun _ _ same old => old.congr same
  cases op with
  | finish isExhausted => exact h.finish isExhausted
  | erase => cases keeps
  | _ => exact changes rfl

theorem lookup_perform {handle : Handle} {id : ObjectId}
    (h : s.recording.lookup handle = some id) {op : Operation} (keeps : op.keepsHandles) :
    (s.perform op).recording.lookup handle = some id :=
  doesAll_induction (P := (·.recording.lookup handle = some id)) (perform_does s op keeps) h
    (fun _ _ taken found => taken.lookup found) fun _ _ same found => (same.lookup handle).trans found

/-- Operations lead from a fresh session to one whose handles stand for different objects. -/
theorem identifies_performAll (project : Project) (run : RunId) (ops : List Operation) :
    ((Session.start project run).performAll ops).recording.Identifies :=
  performAll_induction (P := (·.recording.Identifies))
    ⟨by rintro g id ⟨⟩, by rintro g g' id ⟨⟩⟩ fun op _ _ h => identifies_perform h op

/-! ## Recording a value -/

/-- A value whose handle stands for an object is that object, and recording it changes nothing. -/
theorem serializeWithin_of_lookup {v : Value} {id : ObjectId}
    (found : s.recording.lookup v.handle = some id) : s.serializeWithin around v = (s, id) := by
  rw [serializeWithin_eq, found]

/-- Unless a value is met inside itself, its handle stands for what it becomes. -/
theorem lookup_serializeWithin {v : Value} (outside : v.handle ∉ around) :
    (s.serializeWithin around v).1.recording.lookup v.handle =
      some (s.serializeWithin around v).2 := by
  cases found : s.recording.lookup v.handle with
  | some id =>
    rw [serializeWithin_of_lookup found]
    exact found
  | none =>
    rw [serializeWithin_eq, found]
    dsimp only
    rw [if_neg outside, lookup_pushKnown, if_pos rfl, pushKnown_id]

theorem lookup_serialize (s : Session) (v : Value) :
    (s.serialize v).1.recording.lookup v.handle = some (s.serialize v).2 :=
  lookup_serializeWithin List.not_mem_nil

/-- The handles of values recorded one after the other stand for their objects, unless one of them is
met inside itself. -/
theorem lookup_thread {values : List Value} (outside : ∀ v ∈ values, v.handle ∉ around)
    (s : Session) :
    List.Forall₂
      (fun v id => (thread (serializeWithin around) s values).1.recording.lookup v.handle = some id)
      values (thread (serializeWithin around) s values).2 := by
  induction values generalizing s with
  | nil => exact .nil
  | cons v rest ih =>
    obtain ⟨first, others⟩ := List.forall_mem_cons.1 outside
    have later := thread_takes (l := rest) (fun w _ s => serializeWithin_takes around s w)
      (s.serializeWithin around v).1
    rw [thread_cons]
    exact .cons (later.lookup (lookup_serializeWithin first)) (ih others _)

theorem lookup_serializeAll (s : Session) (values : List Value) :
    List.Forall₂ (fun v id => (s.serializeAll values).1.recording.lookup v.handle = some id) values
      (s.serializeAll values).2 :=
  lookup_thread (fun _ _ => List.not_mem_nil) s

theorem knows_serializeArguments (s : Session) (args : List (String × Value)) :
    ∃ entries, (s.serializeArguments args).2 = .ofList entries ∧
      List.Forall₂ (s.serializeArguments args).1.recording.Knows args entries :=
  ⟨_, rfl, Recording.knows_zip (lookup_serializeAll s (args.map Prod.snd))⟩

/-- While the value `v` is recorded from the session `s` on, inside the values with the handles
`around`, the value `w` is met in the session `t`, inside the values with the handles `inner`. -/
inductive Meets : Session → List Handle → Value → Session → List Handle → Value → Prop
  | here (s : Session) (around : List Handle) (v : Value) : Meets s around v s around v
  /-- It is met inside a part, after the parts in front of it were recorded. -/
  | part {s t : Session} {around inner : List Handle} {v w item : Value} {front rest : List Value}
      {kind : ObjectKind} (new : s.recording.lookup v.handle = none) (outside : v.handle ∉ around)
      (parts : s.project.Classifies v (front ++ item :: rest) kind)
      (deeper : Meets (thread (serializeWithin (v.handle :: around)) s front).1
        (v.handle :: around) item t inner w) :
      Meets s around v t inner w

/-- A value met on the way is recorded between the start and the end, and the values around it have
no objects yet. -/
theorem Meets.spans {v w : Value} {inner : List Handle} (h : Meets s around v t inner w)
    (unknown : ∀ g ∈ around, s.recording.lookup g = none) :
    s.Takes around t ∧ (t.serializeWithin inner w).1.Takes around (s.serializeWithin around v).1 ∧
      ∀ g ∈ inner, t.recording.lookup g = none := by
  induction h with
  | here s around v => exact ⟨.refl s, .refl _, unknown⟩
  | @part s t around inner v w item front rest kind new outside parts _ ih =>
    have fewer : around ⊆ v.handle :: around := List.subset_cons_self ..
    have unknown' : ∀ g ∈ v.handle :: around, s.recording.lookup g = none := by
      intro g mem
      rcases List.mem_cons.1 mem with rfl | mem
      · exact new
      · exact unknown g mem
    have first : s.Takes (v.handle :: around) _ :=
      thread_takes (l := front) (fun w _ s => serializeWithin_takes (v.handle :: around) s w) s
    obtain ⟨before, after, still⟩ := ih fun g mem => (first.lookup_around mem).trans (unknown' g mem)
    have others := thread_takes (l := rest)
      (fun w _ s => serializeWithin_takes (v.handle :: around) s w)
      (serializeWithin (v.handle :: around) (thread (serializeWithin (v.handle :: around)) s front).1
        item).1
    refine ⟨(first.trans before).within fewer, ?_, still⟩
    -- the parts end where the value itself is added
    rw [serializeWithin_eq around s v, new]
    dsimp only
    rw [if_neg outside, parts.parts_eq, thread_append, thread_cons]
    have all := (first.trans (serializeWithin_takes _ _ item)).trans others
    refine .known ((after.trans others).within fewer) v outside ?_ (isUnused_build _)
    exact (all.lookup_around List.mem_cons_self).trans new

/-- Values met on the way are the smaller the more there are around them. -/
theorem Meets.depth_le {v w : Value} {inner : List Handle} (h : Meets s around v t inner w) :
    inner.length + sizeOf w ≤ around.length + sizeOf v := by
  induction h with
  | here => exact Nat.le_refl _
  | @part s t around inner v w item front rest kind _ _ parts _ ih =>
    have mem : item ∈ (s.project.outline v).parts := by
      rw [parts.parts_eq]
      exact List.mem_append_right _ List.mem_cons_self
    have smaller := Value.sizeOf_lt_of_mem_held (Project.mem_held_of_mem_parts mem)
    rw [List.length_cons] at ih
    omega

/-- The object is new when the value is met, stays unknown, and no handle ever stands for it. -/
structure IsStray (t u : Session) (v : Value) (id : ObjectId) : Prop where
  /-- The handle of the value stood for nothing. -/
  unregistered : t.recording.lookup v.handle = none
  fresh : ¬t.recording.HasObject id
  unknown : ∃ o, u.recording.object? id = some o ∧ o.kind = .unknown v.qualifiedType
  never : ∀ ops : List Operation, (∀ op ∈ ops, op.keepsObjects) → ∀ h : Handle,
    (u.performAll ops).recording.lookup h ≠ some id

/-- What the values become that are met one after the other from the session `t` on, inside those with
the handles `around`: what their handles stand for in the session `u`, or strays when they are met
inside themselves. -/
inductive Become (u : Session) (around : List Handle) : Session → List Value → List ObjectId → Prop
  | nil (t : Session) : Become u around t [] []
  | registered {t : Session} {v : Value} {id : ObjectId} {rest : List Value} {ids : List ObjectId}
      (outside : v.handle ∉ around) (found : u.recording.lookup v.handle = some id)
      (others : Become u around (t.serializeWithin around v).1 rest ids) :
      Become u around t (v :: rest) (id :: ids)
  | stray {t : Session} {v : Value} {id : ObjectId} {rest : List Value} {ids : List ObjectId}
      (inside : v.handle ∈ around) (isStray : IsStray t u v id)
      (others : Become u around (t.serializeWithin around v).1 rest ids) :
      Become u around t (v :: rest) (id :: ids)

/-- The value, met in the session `t` inside the values with the handles `around`, is an object of its
own in the session `u`, which is new, registered for its handle, and of the kind that the value is
classified as. Its parts are, item by item, what the items of the value become. -/
def IsBuilt (t : Session) (around : List Handle) (v : Value) (u : Session) : Prop :=
  ∃ id o items, u.recording.lookup v.handle = some id ∧ ¬t.recording.HasObject id ∧
    u.recording.object? id = some o ∧ t.project.Classifies v items o.kind ∧
    Become u (v.handle :: around) t items o.parts

theorem isStray_serializeWithin {v : Value} (inside : v.handle ∈ around)
    (unregistered : s.recording.lookup v.handle = none) (identifies : s.recording.Identifies)
    (later : (s.serializeWithin around v).1.Takes [] u) :
    IsStray s u v (s.serializeWithin around v).2 := by
  have eq : s.serializeWithin around v = s.pushStray v := by
    rw [serializeWithin_eq, unregistered]
    exact if_pos inside
  rw [eq] at later ⊢
  have fresh : ¬s.recording.HasObject (s.pushStray v).2 := by
    rw [Recording.hasObject_iff]
    exact Nat.lt_irrefl _
  have pushed := (object?_pushStray s v (s.pushStray v).2).trans (if_pos rfl)
  have nameless : (s.pushStray v).1.recording.IsNameless (s.pushStray v).2 :=
    ⟨.of_object? pushed, fun g found => fresh (identifies.there found)⟩
  refine ⟨unregistered, fresh, ⟨_, later.object? pushed, rfl⟩, fun ops keeps g => ?_⟩
  have still := performAll_induction (P := (·.recording.IsNameless (s.pushStray v).2))
    (later.isNameless nameless) fun op mem _ h => isNameless_perform h (keeps op mem)
  exact still.nameless g

/-- Values recorded one after the other become what `Become` says. -/
theorem become_thread {items : List Value} (unknown : ∀ g ∈ around, s.recording.lookup g = none)
    (identifies : s.recording.Identifies)
    (later : (thread (serializeWithin around) s items).1.Takes [] u) :
    Become u around s items (thread (serializeWithin around) s items).2 := by
  induction items generalizing s with
  | nil => exact .nil s
  | cons v rest ih =>
    rw [thread_cons] at later ⊢
    have taken := serializeWithin_takes around s v
    have others := ih (fun g mem => (taken.lookup_around mem).trans (unknown g mem))
      (taken.within (List.nil_subset _) |>.identifies identifies) later
    have later := ((thread_takes (l := rest) (fun w _ s => serializeWithin_takes around s w)
      (s.serializeWithin around v).1).within (List.nil_subset _)).trans later
    by_cases inside : v.handle ∈ around
    · exact .stray inside (isStray_serializeWithin inside (unknown _ inside) identifies later) others
    · exact .registered inside (later.lookup (lookup_serializeWithin inside)) others

/-- A value that is met outside of itself, and whose handle stands for nothing, is built. -/
theorem isBuilt_serializeWithin {v : Value} (new : s.recording.lookup v.handle = none)
    (outside : v.handle ∉ around) (unknown : ∀ g ∈ around, s.recording.lookup g = none)
    (identifies : s.recording.Identifies) (later : (s.serializeWithin around v).1.Takes [] u) :
    IsBuilt s around v u := by
  have found := later.lookup (lookup_serializeWithin outside)
  rw [serializeWithin_eq, new] at later found
  dsimp only at later found
  rw [if_neg outside] at later found
  rw [pushKnown_id] at found
  have parts := thread_takes (l := (s.project.outline v).parts)
    (fun w _ s => serializeWithin_takes (v.handle :: around) s w) s
  have still := (parts.lookup_around List.mem_cons_self).trans new
  have pushed := later.object? ((object?_pushKnown _ v _ _).trans (if_pos rfl))
  obtain ⟨classified, made⟩ := s.project.classifies_build v
    (length_thread (serializeWithin (v.handle :: around)) s (s.project.outline v).parts)
  have become : Become u (v.handle :: around) s (s.project.outline v).parts
      (thread (serializeWithin (v.handle :: around)) s (s.project.outline v).parts).2 := by
    refine become_thread (fun g mem => ?_) identifies ?_
    · rcases List.mem_cons.1 mem with rfl | mem
      · exact new
      · exact unknown g mem
    · exact (Takes.known (.refl _) v List.not_mem_nil still (isUnused_build _)).trans later
  refine ⟨_, _, _, found, ?_, pushed, classified, ?_⟩
  · rw [Recording.hasObject_iff]
    exact Nat.not_lt_of_le parts.size_le
  · rw [← made] at become
    exact become

/-! ## Identity -/

/-- The value keeps its identity once the session has recorded it. -/
structure PreservesIdentity (s : Session) (v : Value) : Prop where
  /-- As long as the recording has not ended, recording a value with the same handle gives the same
  object and changes nothing. -/
  again : ∀ ops : List Operation, (∀ op ∈ ops, op.keepsHandles) → ∀ w : Value,
    w.handle = v.handle → ((s.serialize v).1.performAll ops).serialize w =
      ((s.serialize v).1.performAll ops, (s.serialize v).2)
  /-- Meanwhile, recording a value with another handle gives another object. -/
  distinct : ∀ ops : List Operation, (∀ op ∈ ops, op.keepsHandles) → ∀ w : Value,
    w.handle ≠ v.handle →
      (((s.serialize v).1.performAll ops).serialize w).2 ≠ (s.serialize v).2
  /-- The values met while the value is recorded get smaller with each one around them. -/
  descends : ∀ t inner w, Meets s [] v t inner w → inner.length + sizeOf w ≤ sizeOf v
  /-- Each of them that is new and not met inside itself becomes an object made from its parts. -/
  parts : ∀ t inner w, Meets s [] v t inner w → t.recording.lookup w.handle = none →
    w.handle ∉ inner → IsBuilt t inner w (s.serialize v).1

/-- Values keep their identity in every session that operations lead to. -/
theorem preservesIdentity (project : Project) (run : RunId) (ops : List Operation) (v : Value) :
    PreservesIdentity ((Session.start project run).performAll ops) v := by
  have identifies := identifies_performAll project run ops
  generalize (Session.start project run).performAll ops = s at identifies
  have still (later : List Operation) (keeps : ∀ op ∈ later, op.keepsHandles) :
      ((s.serialize v).1.performAll later).recording.lookup v.handle = some (s.serialize v).2 :=
    performAll_induction (P := (·.recording.lookup v.handle = some (s.serialize v).2))
      (lookup_serialize s v)
      fun op mem _ h => lookup_perform h (keeps op mem)
  have identifies' : (s.serialize v).1.recording.Identifies :=
    (serialize_takes s v).identifies identifies
  refine ⟨fun later keeps w same => ?_, fun later keeps w differ same => ?_, fun t inner w met => ?_,
    fun t inner w met new outside => ?_⟩
  · exact serializeWithin_of_lookup (same ▸ still later keeps)
  · have all : ((s.serialize v).1.performAll later).recording.Identifies :=
      performAll_induction (P := (·.recording.Identifies)) identifies'
        fun op _ _ h => identifies_perform h op
    have taken := serialize_takes ((s.serialize v).1.performAll later) w
    refine differ ((taken.identifies all).distinct (lookup_serialize _ w) ?_)
    rw [same]
    exact taken.lookup (still later keeps)
  · have depth := met.depth_le
    rwa [List.length_nil, Nat.zero_add] at depth
  · obtain ⟨before, after, unknown⟩ := met.spans fun g mem => (List.not_mem_nil mem).elim
    exact isBuilt_serializeWithin new outside unknown (before.identifies identifies) after

end Session

end Reenact
