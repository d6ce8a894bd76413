import Reenact.Proofs.Recording.Identity
import Reenact.Proofs.Recording.Proceeding

/-!
# Parts are recorded

The parts of an object are recorded before it, so a recording that refers to an object has it. This does
not depend on calls, and so it holds of operations in any order, where soundness need not.

**The law** (`hasParts_performAll`): in every session that operations lead to, the parts of each object
are objects of the recording.
-/

namespace Reenact

theorem ObjectKind.Gains.parts {a b : ObjectKind} (h : a.Gains b) : b.parts = a.parts := by
  cases h <;> rfl

theorem ObjectKind.Drops.parts {a b : ObjectKind} (h : a.Drops b) : b.parts = a.parts := by
  cases h <;> rfl

namespace Recording

variable {r s : Recording}

/-- What the recording refers to by handles and as parts it has. -/
structure HasParts (r : Recording) : Prop where
  known : ∀ {h id}, r.lookup h = some id → r.HasObject id
  parts : ∀ {id o}, r.object? id = some o → ∀ part ∈ o.parts, r.HasObject part

/-- Objects that were there already are there with the same parts. -/
theorem HasParts.congr (h : r.HasParts) (size : s.objects.size = r.objects.size)
    (known : ∀ {h id}, s.lookup h = some id → r.lookup h = some id)
    (parts : ∀ {id o}, r.object? id = some o → ∃ o', s.object? id = some o' ∧ o'.parts = o.parts) :
    s.HasParts := by
  have there {id : ObjectId} : s.HasObject id ↔ r.HasObject id := by
    rw [hasObject_iff, hasObject_iff, size]
  refine ⟨fun found => there.2 (h.known (known found)), fun found part mem => there.2 ?_⟩
  obtain ⟨o, before⟩ := there.1 (.of_object? found)
  obtain ⟨o', after, same⟩ := parts before
  cases found.symm.trans after
  rw [same] at mem
  exact h.parts before part mem

theorem KeepsSnapshots.exists_parts {becomes : ObjectId → ObjectKind → ObjectKind → Prop}
    (h : r.KeepsSnapshots becomes s) (same : ∀ {id a b}, becomes id a b → b.parts = a.parts)
    {id : ObjectId} {o : Object} (found : r.object? id = some o) :
    ∃ o', s.object? id = some o' ∧ o'.parts = o.parts := by
  obtain ⟨kind, kept, made⟩ := h.objects found
  exact ⟨_, kept, same made⟩

/-- An object more, made from objects of the recording. -/
theorem HasParts.push (h : r.HasParts) {o : Object} (fresh : ∀ part ∈ o.parts, r.HasObject part)
    (size : s.objects.size = r.objects.size + 1)
    (objects : ∀ id, s.object? id = if id.index = r.objects.size then some o else r.object? id)
    (known : ∀ {h id}, s.lookup h = some id → id = ⟨r.objects.size⟩ ∨ r.lookup h = some id) :
    s.HasParts := by
  have mono {id : ObjectId} (there : r.HasObject id) : s.HasObject id := by
    rw [hasObject_iff, size]
    exact Nat.lt_succ_of_lt (hasObject_iff.1 there)
  refine ⟨fun found => ?_, fun found part mem => mono ?_⟩
  · rcases known found with rfl | old
    · rw [hasObject_iff, size]
      exact Nat.lt_succ_self _
    · exact mono (h.known old)
  · rw [objects] at found
    split at found
    · cases found
      exact fresh part mem
    · exact h.parts found part mem

end Recording

namespace Session

open Recording (HasParts KeepsGeneratorsOnce)

variable {s t : Session}

theorem hasParts_pushStray (h : s.recording.HasParts) (v : Value) :
    (s.pushStray v).1.recording.HasParts :=
  h.push (fun _ mem => (List.not_mem_nil mem).elim) (size_objects_pushStray s v)
    (object?_pushStray s v) fun found => .inr found

theorem hasParts_pushKnown (h : s.recording.HasParts) (v : Value) {kind : ObjectKind}
    (fresh : ∀ part ∈ kind.parts, s.recording.HasObject part) :
    (s.pushKnown v kind).1.recording.HasParts := by
  refine h.push (o := s.recording.newObject v kind) fresh (size_objects_pushKnown s v kind)
    (object?_pushKnown s v kind) fun {g id} found => ?_
  rw [lookup_pushKnown] at found
  split at found
  · cases found
    exact .inl rfl
  · exact .inr found

theorem Takes.hasObject {around : List Handle} (h : s.Takes around t) {id : ObjectId}
    (there : s.recording.HasObject id) : t.recording.HasObject id := by
  obtain ⟨o, found⟩ := there
  exact .of_object? (h.object? found)

/-- What adding an object for a value keeps, recording a value keeps, and the value becomes an object of
the recording. The parts that an object is added for are there already. -/
theorem serializeWithin_keeps {P : Session → Prop} (hasParts : ∀ {s}, P s → s.recording.HasParts)
    (stray : ∀ {s} (v : Value), P s → P (s.pushStray v).1)
    (known : ∀ {s} (p : Project) (v : Value) {ids : List ObjectId}, P s →
      (∀ id ∈ ids, s.recording.HasObject id) → P (s.pushKnown v ((p.outline v).build ids)).1)
    (around : List Handle) (v : Value) (h : P s) : P (s.serializeWithin around v).1 ∧
      (s.serializeWithin around v).1.recording.HasObject (s.serializeWithin around v).2 := by
  induction eq : sizeOf v using Nat.strongRecOn generalizing v s around with
  | _ size ih =>
    -- the parts come one after the other, and are still there at the end
    have parts (values : List Value) (smaller : ∀ w ∈ values, sizeOf w < size) (around : List Handle)
        (s : Session) (h : P s) :
        P (thread (serializeWithin around) s values).1 ∧
          ∀ id ∈ (thread (serializeWithin around) s values).2,
            (thread (serializeWithin around) s values).1.recording.HasObject id := by
      induction values generalizing s with
      | nil => exact ⟨h, fun _ mem => (List.not_mem_nil mem).elim⟩
      | cons w rest others =>
        obtain ⟨first, later⟩ := List.forall_mem_cons.1 smaller
        obtain ⟨kept, there⟩ := ih (sizeOf w) first around w h rfl
        obtain ⟨kept, all⟩ := others later _ kept
        rw [thread_cons]
        refine ⟨kept, fun id mem => ?_⟩
        rcases List.mem_cons.1 mem with rfl | mem
        · exact (thread_takes (fun w _ s => serializeWithin_takes around s w) _).hasObject there
        · exact all id mem
    rw [serializeWithin_eq]
    split
    · rename_i id found
      exact ⟨h, (hasParts h).known found⟩
    · split
      · exact ⟨stray v h, Recording.hasObject_iff.2 (by simp [pushStray])⟩
      · obtain ⟨kept, all⟩ := parts (s.project.outline v).parts
          (fun w mem => eq ▸ Value.sizeOf_lt_of_mem_held (Project.mem_held_of_mem_parts mem))
          (v.handle :: around) s h
        refine ⟨known s.project v kept all, ?_⟩
        rw [pushKnown_id, Recording.hasObject_iff, size_objects_pushKnown]
        exact Nat.lt_succ_self _

theorem serializeWithin_hasParts (around : List Handle) (v : Value) (h : s.recording.HasParts) :
    (s.serializeWithin around v).1.recording.HasParts ∧
      (s.serializeWithin around v).1.recording.HasObject (s.serializeWithin around v).2 :=
  serializeWithin_keeps (P := (·.recording.HasParts)) id (fun v h => hasParts_pushStray h v)
    (fun _ v _ h all => hasParts_pushKnown h v (isFresh_build all).parts) around v h

theorem LeavesValues.hasParts (h : s.LeavesValues t) (parts : s.recording.HasParts) :
    t.recording.HasParts :=
  parts.congr h.size (fun found => (h.lookup _).symm.trans found)
    (h.snapshots.exists_parts fun gains => gains.parts)

theorem hasParts_finish (h : s.recording.HasParts) (once : s.recording.KeepsGeneratorsOnce)
    (isExhausted : Value → Bool) : (s.finish isExhausted).recording.HasParts := by
  have parts {id : ObjectId} {o : Object} (found : s.recording.object? id = some o) :=
    (Recording.keepsSnapshots_finish once isExhausted).exists_parts (fun drops => drops.parts) found
  rcases Recording.finish_sameHandles_or s.recording isExhausted with same | ⟨none, size⟩
  · exact h.congr same.size (fun found => (same.lookup _).symm.trans found) parts
  · refine h.congr size (fun found => ?_) parts
    change (s.recording.finish isExhausted).known.lookup _ = _ at found
    rw [none] at found
    cases found

theorem hasParts_perform (h : s.recording.HasParts) (once : s.recording.KeepsGeneratorsOnce)
    (op : Operation) : (s.perform op).recording.HasParts := by
  have changes (keeps : op.keepsHandles) : (s.perform op).recording.HasParts :=
    (perform_proceeds s op keeps).keeps (P := (·.recording.HasParts))
      (fun v _ _ h => (serializeWithin_hasParts [] v h).1) (fun _ _ left h => left.hasParts h) h
  cases op with
  | finish isExhausted => exact hasParts_finish h once isExhausted
  | erase => exact ⟨by rintro g id ⟨⟩, by rintro id o ⟨⟩⟩
  | _ => exact changes rfl

/-- Operations lead to recordings that have the parts of their objects. -/
theorem hasParts_performAll (project : Project) (run : RunId) (ops : List Operation) :
    ((start project run).performAll ops).recording.HasParts :=
  (performAll_induction
    (P := fun s => s.recording.HasParts ∧ s.recording.KeepsGeneratorsOnce)
    ⟨⟨by rintro g id ⟨⟩, by rintro id o ⟨⟩⟩, Recording.keepsGeneratorsOnce_of_nil rfl⟩
    fun op _ _ h => ⟨hasParts_perform h.1 h.2 op, keepsGeneratorsOnce_perform h.2 op⟩).1

end Session

end Reenact
