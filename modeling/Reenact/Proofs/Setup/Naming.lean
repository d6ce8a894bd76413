import Reenact.Proofs.Recording.Soundness
import Reenact.Proofs.Refusal
import Reenact.Setup.Naming

/-!
# Which objects have names

Putting objects in order and numbering them loses none and adds none, so exactly the objects that are
to be named get a name (`isSome_get?_assign`).
-/

namespace Reenact.Setup.Naming

/-- Entries of one object in a row count once. -/
theorem mem_ids_foldr {objects : List Object} {x : ObjectId} :
    x ∈ (objects.foldr (fun o rest =>
      if rest.head?.any (fun p => p.id == o.id) then rest else o :: rest) []).map Object.id ↔
      x ∈ objects.map Object.id := by
  induction objects with
  | nil => exact Iff.rfl
  | cons o rest ih =>
    rw [List.foldr_cons, List.map_cons, List.mem_cons, ← ih]
    split
    · rename_i again
      refine ⟨.inr, fun mem => mem.elim (fun same => ?_) id⟩
      obtain ⟨p, first, twice⟩ := (Option.any_eq_true _ _).1 again
      rw [same, ← beq_iff_eq.1 twice]
      exact List.mem_map_of_mem (List.mem_of_mem_head? first)
    · rw [List.map_cons, List.mem_cons]

theorem mem_ids_inOrder {objects : List Object} {x : ObjectId} :
    x ∈ (inOrder objects).map Object.id ↔ x ∈ objects.map Object.id := by
  rw [inOrder, mem_ids_foldr]
  exact ((List.mergeSort_perm objects _).map Object.id).mem_iff

theorem ids_number (total seen : List String) (words : List (ObjectId × String)) :
    (number total seen words).map Prod.fst = words.map Prod.fst := by
  induction words generalizing seen with
  | nil => rfl
  | cons entry rest ih =>
    rw [number, List.map_cons, ih, List.map_cons]

theorem isSome_get?_iff {names : Naming} {x : ObjectId} :
    (names.get? x).isSome = true ↔ x ∈ names.entries.map Prod.fst := by
  rw [get?, List.lookup_isSome_iff, List.mem_map]
  simp only [beq_iff_eq, @eq_comm _ x]

/-- Objects looked up by number have these numbers. -/
theorem ids_of_mapM {r : Recording} (h : r.Sound) {ids : List ObjectId} {objects : List Object}
    (all : ids.mapM r.object = .ok objects) : objects.map Object.id = ids := by
  induction mapM_eq_ok.1 all with
  | nil => rfl
  | cons first _ ih =>
    rw [List.map_cons, ih (mapM_eq_ok.2 ‹_›), (h.objects (Recording.object_eq_ok.1 first)).1]

/-- Exactly the objects that are to be named have a name. -/
theorem isSome_get?_assign {r : Recording} (h : r.Sound) {ids : List ObjectId} {names : Naming}
    (assigned : assign r ids = .ok names) {x : ObjectId} :
    (names.get? x).isSome = true ↔ x ∈ ids := by
  obtain ⟨objects, all, made⟩ := bind_eq_ok.1 assigned
  rw [pure_eq_ok] at made
  rw [isSome_get?_iff, ← made, ofObjects, ids_number, List.map_map, ← ids_of_mapM h all]
  exact mem_ids_inOrder

end Reenact.Setup.Naming
