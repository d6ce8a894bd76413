import Reenact.Proofs.Setup.Closure

/-!
# What an object is made again from

An object is made again from its parts. An instance also takes the arguments of the constructor call
that it was made with, and a generator the arguments of its activation and the object whose method
made it. `ingredients` lists all of them with multiplicity, one list for each way in which an object
can hold another one.

On a sound recording the walk that builds the working set follows exactly these edges
(`needs_eq_ingredients`), so every statement about the working set is one about ingredients.
-/

namespace Reenact

namespace Setup

open Recording (call_eq_ok object_eq_ok)

/-- The constructor call that an instance was made with. -/
def constructorCall? (r : Recording) (o : Object) : Option Call :=
  match o.kind with
  | .user _ (some init) _ => r.call? init
  | _ => none

/-- The arguments of the constructor call of an instance. -/
def constructorInputs (r : Recording) (o : Object) : List ObjectId :=
  (constructorCall? r o).toList.flatMap fun c => c.input.values

/-- The arguments that a generator was activated with. -/
def activationArguments (o : Object) : List ObjectId :=
  o.kind.activation?.toList.flatMap fun a => a.args.values

/-- The object whose method made the generator. -/
def activationOwner (o : Object) : List ObjectId :=
  o.kind.activation?.toList.flatMap fun a =>
    match a.maker with
    | .userObject owner => [owner]
    | .function _ => []

/-- What an object is made again from, apart from its parts. It may have been recorded after the
object. -/
def lateIngredients (r : Recording) (o : Object) : List ObjectId :=
  constructorInputs r o ++ activationArguments o ++ activationOwner o

/-- What an object is made again from. -/
def ingredients (r : Recording) (o : Object) : List ObjectId :=
  o.parts ++ lateIngredients r o

variable {r : Recording} {id : ObjectId} {o : Object}

/-- What the walk through the working set follows are the ingredients. -/
theorem needs_eq_ingredients (h : r.Sound) (found : r.object? id = some o) :
    needs r o = .ok (ingredients r o) := by
  have callRefs := (h.objects found).2.callRefs
  unfold needs
  split
  · rename_i cls init uses kind
    rw [kind] at callRefs
    obtain ⟨c, known⟩ := callRefs init (List.mem_append_left _ (Option.mem_toList.2 rfl))
    rw [call_eq_ok.2 known]
    simp [ingredients, lateIngredients, constructorInputs, constructorCall?, activationArguments,
      activationOwner, Object.parts, ObjectKind.parts, ObjectKind.activation?, kind, known]
  · rename_i activation calls kind
    split <;> rename_i maker <;>
      simp [ingredients, lateIngredients, constructorInputs, constructorCall?, activationArguments,
        activationOwner, Object.parts, ObjectKind.parts, ObjectKind.activation?, kind, maker]
  · rename_i kind user generator
    have noCall : constructorCall? r o = none := by
      unfold constructorCall?
      split
      · rename_i cls init uses eq
        exact (user cls init uses eq).elim
      · rfl
    have noActivation : o.kind.activation? = none := by
      unfold ObjectKind.activation?
      split
      · rename_i activation calls eq
        cases activation with
        | none => rfl
        | some activation => exact (generator activation calls eq).elim
      · rfl
    simp [ingredients, lateIngredients, constructorInputs, activationArguments, activationOwner,
      Object.parts, noCall, noActivation]

/-- One step of the walk through the working set leads to the ingredients. -/
theorem leads_nextNeeded (h : r.Sound) {n m : Nat} : Graph.Leads (nextNeeded r) n m ↔
    ∃ o, r.object? ⟨n⟩ = some o ∧ ⟨m⟩ ∈ ingredients r o := by
  have step (o : Object) (found : r.object? ⟨n⟩ = some o) :
      nextNeeded r n = .ok (indices (ingredients r o)) :=
    bind_eq_ok.2 ⟨o, object_eq_ok.2 found, bind_eq_ok.2 ⟨_, needs_eq_ingredients h found, rfl⟩⟩
  constructor
  · rintro ⟨successors, answer, mem⟩
    obtain ⟨o, found, -⟩ := bind_eq_ok.1 answer
    have found := object_eq_ok.1 found
    rw [step o found] at answer
    cases answer
    obtain ⟨x, inside, rfl⟩ := List.mem_map.1 mem
    exact ⟨o, found, inside⟩
  · rintro ⟨o, found, mem⟩
    exact ⟨_, step o found, List.mem_map.2 ⟨_, mem, rfl⟩⟩

end Setup

end Reenact
