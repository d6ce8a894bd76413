import Reenact.Proofs.Refusal
import Reenact.Proofs.Recording.Soundness

/-!
# The end of a recording

Ending a recording takes last resumptions out of the lists that name them. References only become
fewer, and the entries themselves stay where they are with their moments, so a sound recording ends
as a sound one.
-/

namespace Reenact

namespace Recording

variable {r s : Recording}

/-- A generator without its last resumption refers to fewer calls. -/
theorem mem_callRefs_dropResumption {kind : ObjectKind} {id : CallId}
    (mem : id ∈ kind.dropResumption.callRefs) : id ∈ kind.callRefs := by
  cases kind with
  | generator activation calls => exact List.dropLast_subset _ mem
  | immutable | sequence | map | exception | library | unknown | user => exact mem

theorem Sound.dropResumption (h : r.Sound) (id : ObjectId) :
    (r.modifyKind id (·.dropResumption)).Sound := by
  refine h.modifyKind id (fun kind => ?_) (fun kind x mem => .inl ?_)
    fun kind x mem => .inl (mem_callRefs_dropResumption mem)
  · cases kind <;> rfl
  · cases kind with
    | generator activation calls => cases activation <;> exact mem
    | immutable | sequence | map | exception | library | unknown | user => exact mem

/-- Fewer names in the lists of calls are still names of what is there. -/
theorem Sound.unlist (h : r.Sound) {captured roots : List CallId} (fewer : captured ⊆ r.captured)
    (fewer' : roots ⊆ r.roots) :
    ({ r with captured := captured, roots := roots } : Recording).Sound :=
  h.relist rfl rfl rfl rfl fun grows =>
    { known := fun entry mem => (h.listed.known entry mem).mono grows
      generators := fun entry mem => (h.listed.generators entry mem).mono grows
      captured := fun id mem => (h.listed.captured id (fewer mem)).mono grows
      roots := fun id mem => (h.listed.roots id (fewer' mem)).mono grows
      rootEffects := fun id mem => (h.listed.rootEffects id mem).mono grows }

theorem Sound.detach (h : r.Sound) {id : CallId} (eq : r.detach id = .ok s) : s.Sound := by
  unfold Recording.detach at eq
  obtain ⟨call, -, eq⟩ := bind_eq_ok.1 eq
  split at eq
  · rename_i parent _
    rw [← pure_eq_ok.1 eq]
    refine h.modifyCall parent ⟨fun _ => rfl, fun _ => rfl, fun _ => rfl, fun _ => rfl⟩
      fun c _ whole => ?_
    exact { whole with
      subcalls := fun sub mem => whole.subcalls sub (List.mem_of_mem_filter mem)
      siblings := whole.siblings.filter _ }
  · rw [← pure_eq_ok.1 eq]
    exact h.unlist (List.Subset.refl _) (List.filter_subset_self ..)

theorem Sound.dropTrailing (h : r.Sound) (id : ObjectId) : (r.dropTrailing id).Sound := by
  unfold Recording.dropTrailing
  split
  · exact h
  · rename_i last _
    have dropped := h.dropResumption id
    dsimp only
    split
    · rename_i detached eq
      exact (dropped.detach eq).unlist (List.filter_subset_self ..) (List.Subset.refl _)
    · exact dropped.unlist (List.filter_subset_self ..) (List.Subset.refl _)

/-- A sound recording ends as a sound one. -/
theorem Sound.finish (h : r.Sound) (isExhausted : Value → Bool) : (r.finish isExhausted).Sound := by
  unfold Recording.finish
  split
  · exact h
  · have all : ((r.exhausted isExhausted).foldl Recording.dropTrailing r).Sound := by
      exact List.foldlRecOn _ _ h fun _ sound id _ => sound.dropTrailing id
    refine all.relist rfl rfl rfl rfl fun grows => ?_
    exact
      { known := fun _ mem => by cases mem
        generators := fun _ mem => by cases mem
        captured := fun id mem => (all.listed.captured id mem).mono grows
        roots := fun id mem => (all.listed.roots id mem).mono grows
        rootEffects := fun id mem => (all.listed.rootEffects id mem).mono grows }

/-! ## Calls at the end of a recording -/

end Recording

/-- A call without its subcalls. -/
def Call.alone (c : Call) : Call := { c with subcalls := [] }

namespace Recording

/-- Taking a resumption out of the lists that name it changes nothing else of any call. -/
theorem alone_dropTrailing (r : Recording) (x : ObjectId) (id : CallId) :
    ((r.dropTrailing x).call? id).map Call.alone = (r.call? id).map Call.alone := by
  unfold Recording.dropTrailing
  split
  · rfl
  · rename_i last _
    dsimp only
    split
    · rename_i detached eq
      show (detached.call? id).map Call.alone = _
      unfold Recording.detach at eq
      obtain ⟨call, -, eq⟩ := bind_eq_ok.1 eq
      split at eq
      · rename_i parent _
        rw [← pure_eq_ok.1 eq, call?_modifyCall]
        split
        · rename_i same
          rw [same, Option.map_map]
          rfl
        · rfl
      · rw [← pure_eq_ok.1 eq]
        rfl
    · rfl

/-- The end of a recording changes nothing of a call but its subcalls. -/
theorem alone_finish (r : Recording) (isExhausted : Value → Bool) (id : CallId) :
    ((r.finish isExhausted).call? id).map Call.alone = (r.call? id).map Call.alone := by
  unfold Recording.finish
  split
  · rfl
  · exact List.foldlRecOn
      (motive := fun s => (s.call? id).map Call.alone = (r.call? id).map Call.alone) _ _ rfl
      fun s same x _ => (alone_dropTrailing s x id).trans same

end Recording

end Reenact
