import Reenact.Proofs.Recording.Noting

/-!
# Taking in values

What recording values does to a session, whatever the session holds. `Session.Notes` starts from a
sound recording and covers later changes of objects as well; `Session.Takes` starts from any session
and covers less: objects are added, each as a stray or for a handle that had none, and what was there
stays as it was.

**The law** (`serializeWithin_takes`): recording a value inside others takes objects in, and gives
none of the handles around it an object.
-/

namespace Reenact

/-- Nothing was done yet with an object of that kind. -/
def ObjectKind.IsUnused : ObjectKind → Prop
  | user _ initCall uses => initCall = none ∧ uses = []
  | generator activation calls => activation = none ∧ calls = []
  | _ => True

/-- What a value becomes was not used yet. -/
theorem isUnused_build {p : Project} {v : Value} (ids : List ObjectId) :
    ((p.outline v).build ids).IsUnused := by
  cases h : p.outline v with
  | whole kind =>
    rcases Session.outline_whole_cases h with ⟨code, imports, rfl⟩ | ⟨hint, rfl⟩ | ⟨cls, rfl⟩ | rfl
    · trivial
    · trivial
    · exact ⟨rfl, rfl⟩
    · exact ⟨rfl, rfl⟩
  | sequence | map | exception | library => trivial

namespace Session

variable {around : List Handle} {s t u : Session}

/-! ## One more object -/

theorem object?_pushStray (s : Session) (v : Value) (id : ObjectId) :
    (s.pushStray v).1.recording.object? id =
      if id.index = s.recording.objects.size
      then some (s.recording.newObject v (.unknown v.qualifiedType)) else s.recording.object? id :=
  Recording.object?_pushObject ..

@[simp] theorem size_objects_pushStray (s : Session) (v : Value) :
    (s.pushStray v).1.recording.objects.size = s.recording.objects.size + 1 :=
  Recording.size_objects_pushObject ..

/-- The handle of a value stands for the object that is added for it. -/
theorem lookup_pushKnown (s : Session) (v : Value) (kind : ObjectKind) (h : Handle) :
    (s.pushKnown v kind).1.recording.lookup h =
      if h = v.handle then some ⟨s.recording.objects.size⟩ else s.recording.lookup h := by
  have eq : (s.pushKnown v kind).1.recording.known =
      (v.handle, ⟨s.recording.objects.size⟩) :: s.recording.known := by
    rcases pushKnown_recording s v kind with eq | eq <;> rw [eq] <;> rfl
  rw [Recording.lookup, eq, List.lookup_cons]
  by_cases same : h = v.handle
  · rw [if_pos same, beq_iff_eq.2 same]
  · rw [if_neg same, beq_eq_false_iff_ne.2 same]
    rfl

theorem object?_pushKnown (s : Session) (v : Value) (kind : ObjectKind) (id : ObjectId) :
    (s.pushKnown v kind).1.recording.object? id =
      if id.index = s.recording.objects.size then some (s.recording.newObject v kind)
      else s.recording.object? id := by
  rw [← Recording.object?_pushObject]
  rcases pushKnown_recording s v kind with eq | eq <;> rw [eq] <;> rfl

@[simp] theorem size_objects_pushKnown (s : Session) (v : Value) (kind : ObjectKind) :
    (s.pushKnown v kind).1.recording.objects.size = s.recording.objects.size + 1 := by
  rw [← Recording.size_objects_pushObject s.recording v kind]
  rcases pushKnown_recording s v kind with eq | eq <;> rw [eq] <;> rfl

/-! ## Any number of them -/

/-- The second session came from the first by adding objects, each as a stray or for a handle that had
none and is not among those around. -/
inductive Takes (around : List Handle) : Session → Session → Prop
  | refl (s : Session) : Takes around s s
  | stray {s t : Session} (before : Takes around s t) (v : Value) : Takes around s (t.pushStray v).1
  | known {s t : Session} (before : Takes around s t) (v : Value) {kind : ObjectKind}
      (outside : v.handle ∉ around) (free : t.recording.lookup v.handle = none)
      (unused : kind.IsUnused) : Takes around s (t.pushKnown v kind).1

theorem Takes.trans (first : s.Takes around t) (second : t.Takes around u) : s.Takes around u := by
  induction second with
  | refl => exact first
  | stray _ v ih => exact .stray ih v
  | known _ v outside free unused ih => exact .known ih v outside free unused

/-- Fewer handles around ask for less. -/
theorem Takes.within {inner : List Handle} (fewer : around ⊆ inner) (h : s.Takes inner t) :
    s.Takes around t := by
  induction h with
  | refl => exact .refl _
  | stray _ v ih => exact .stray ih v
  | known _ v outside free unused ih => exact .known ih v (fun mem => outside (fewer mem)) free unused

/-- The handles around stay as they were. -/
theorem Takes.lookup_around (h : s.Takes around t) {handle : Handle} (mem : handle ∈ around) :
    t.recording.lookup handle = s.recording.lookup handle := by
  induction h with
  | refl => rfl
  | stray _ v ih => exact ih
  | known _ v outside free unused ih =>
    rw [lookup_pushKnown, if_neg (by rintro rfl; exact outside mem)]
    exact ih

/-- A handle that has an object keeps it. -/
theorem Takes.lookup (h : s.Takes around t) {handle : Handle} {id : ObjectId}
    (found : s.recording.lookup handle = some id) : t.recording.lookup handle = some id := by
  induction h with
  | refl => exact found
  | stray _ v ih => exact ih
  | known _ v outside free unused ih =>
    rw [lookup_pushKnown, if_neg]
    · exact ih
    · rintro rfl
      rw [ih] at free
      cases free

theorem Takes.size_le (h : s.Takes around t) :
    s.recording.objects.size ≤ t.recording.objects.size := by
  induction h with
  | refl => exact Nat.le_refl _
  | stray _ v ih =>
    rw [size_objects_pushStray]
    exact Nat.le_succ_of_le ih
  | known _ v outside free unused ih =>
    rw [size_objects_pushKnown]
    exact Nat.le_succ_of_le ih

/-- An object that was there is as it was. -/
theorem Takes.object? (h : s.Takes around t) {id : ObjectId} {o : Object}
    (found : s.recording.object? id = some o) : t.recording.object? id = some o := by
  induction h with
  | refl => exact found
  | stray _ v ih =>
    have lt := Recording.hasObject_iff.1 (.of_object? ih)
    rw [object?_pushStray, if_neg (Nat.ne_of_lt lt), ih]
  | known _ v outside free unused ih =>
    have lt := Recording.hasObject_iff.1 (.of_object? ih)
    rw [object?_pushKnown, if_neg (Nat.ne_of_lt lt), ih]

/-- Nothing was done yet with an object that was not there. -/
theorem Takes.isUnused (h : s.Takes around t) {id : ObjectId} {o : Object}
    (new : s.recording.object? id = none) (found : t.recording.object? id = some o) :
    o.kind.IsUnused := by
  induction h with
  | refl =>
    rw [new] at found
    cases found
  | stray _ v ih =>
    rw [object?_pushStray] at found
    split at found
    · cases found
      trivial
    · exact ih found
  | known _ v outside free unused ih =>
    rw [object?_pushKnown] at found
    split at found
    · cases found
      exact unused
    · exact ih found

theorem Takes.sameCalls (h : s.Takes around t) : SameCalls s.recording t.recording := by
  induction h with
  | refl => exact .refl _
  | stray _ v ih => exact ih.trans ⟨rfl, rfl, rfl, rfl, rfl⟩
  | @known t _ v kind _ _ _ ih =>
    refine ih.trans ?_
    rcases pushKnown_recording t v kind with eq | eq <;> rw [eq] <;> exact ⟨rfl, rfl, rfl, rfl, rfl⟩

theorem Takes.unlinked (h : s.Takes around t) : t.project.unlinked = s.project.unlinked := by
  induction h with
  | refl => rfl
  | stray _ v ih => exact ih
  | known _ v outside free unused ih => exact (pushKnown_unlinked ..).trans ih

/-! ## Recording values -/

/-- Recording the members of a list one after the other takes objects in, if recording each one
does. -/
theorem thread_takes {α : Type} {step : Session → α → Session × ObjectId} {l : List α}
    (each : ∀ a ∈ l, ∀ s : Session, s.Takes around (step s a).1) (s : Session) :
    s.Takes around (thread step s l).1 := by
  induction l generalizing s with
  | nil => exact .refl s
  | cons a rest ih =>
    rw [thread_cons]
    exact (each a List.mem_cons_self s).trans
      (ih (fun b mem => each b (List.mem_cons_of_mem _ mem)) _)

theorem serializeWithin_takes (around : List Handle) (s : Session) (v : Value) :
    s.Takes around (s.serializeWithin around v).1 := by
  -- parts are smaller than what they are part of
  induction h : sizeOf v using Nat.strongRecOn generalizing v s around with
  | _ size ih =>
    rw [serializeWithin_eq]
    split
    · exact .refl s
    · rename_i free
      split
      · exact .stray (.refl s) v
      · rename_i outside
        have parts := thread_takes (l := (s.project.outline v).parts)
          (fun w mem s => ih (sizeOf w)
            (h ▸ Value.sizeOf_lt_of_mem_held (Project.mem_held_of_mem_parts mem))
            (v.handle :: around) s w rfl) s
        -- the handle is around its parts, so none of them took it
        have still := (parts.lookup_around List.mem_cons_self).trans free
        exact .known (parts.within (List.subset_cons_self ..)) v outside still (isUnused_build _)

theorem serialize_takes (s : Session) (v : Value) : s.Takes [] (s.serialize v).1 :=
  serializeWithin_takes [] s v

theorem serializeAll_takes (s : Session) (values : List Value) :
    s.Takes [] (s.serializeAll values).1 :=
  thread_takes (fun v _ s => serialize_takes s v) s

theorem serializeArguments_takes (s : Session) (args : List (String × Value)) :
    s.Takes [] (s.serializeArguments args).1 :=
  serializeAll_takes s (args.map Prod.snd)

theorem makerOf_takes (s : Session) (definition : Definition) (receiver : Option Value) :
    s.Takes [] (s.makerOf definition receiver).1 := by
  unfold makerOf
  split
  · exact .refl s
  · rename_i receiver
    have taken := serialize_takes s receiver
    dsimp only
    split
    · exact taken
    · split <;> exact taken
  · exact .refl s

end Session

end Reenact
