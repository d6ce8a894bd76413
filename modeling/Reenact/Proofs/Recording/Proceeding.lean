import Reenact.Proofs.Recording.Snapshot

/-!
# Values that operations record

An operation records the values that it is given, one after the other, and changes in between only what
was done with objects (`Session.LeavesValues`): it adds no object of its own and lets no handle stand for
another one. This is finer than `Operation.Does`, which does not tell what the objects are that are
added.

**The law** (`perform_proceeds`): an operation that does not end or erase the recording is made of such
steps, and records no values but its own.
-/

namespace Reenact

open ObjectKind (Gains)

/-- The values that an operation is given. -/
def Operation.values : Operation → List Value
  | serialize value => [value]
  | callFunction _ args _ => args.map Prod.snd
  | callMethod _ receiver args _ => receiver :: args.map Prod.snd
  | resume generator _ args receiver _ => generator :: receiver.toList ++ args.map Prod.snd
  | setOutcome .. | clearOutcome _ | complete _ | detach _ | addEffect .. | finish _ | erase => []

namespace Session

variable {s t u : Session}

/-! ## Changes that record no value -/

/-- No object is added, and handles stand for what they did. Of an object only what was done with it has
changed. -/
structure LeavesValues (s t : Session) : Prop where
  unlinked : t.project.unlinked = s.project.unlinked
  known : t.recording.known = s.recording.known
  size : t.recording.objects.size = s.recording.objects.size
  snapshots : s.recording.KeepsSnapshots (fun _ => Gains) t.recording

namespace LeavesValues

theorem refl (s : Session) : LeavesValues s s :=
  ⟨rfl, rfl, rfl, .refl _ fun _ => .same⟩

theorem lookup (h : s.LeavesValues t) (handle : Handle) :
    t.recording.lookup handle = s.recording.lookup handle := by
  rw [Recording.lookup, h.known, Recording.lookup]

end LeavesValues

theorem leavesValues_link {p : Project} (same : p.unlinked = s.project.unlinked) :
    s.LeavesValues { s with project := p } :=
  ⟨same, rfl, rfl, .refl _ fun _ => .same⟩

theorem leavesValues_amend {r : Recording} (same : s.recording.SameHeads r) :
    s.LeavesValues { s with recording := r } where
  unlinked := rfl
  known := same.known
  size := congrArg Array.size same.objects
  snapshots := same.keepsSnapshots fun _ => .same

theorem leavesValues_attempt (s : Session) (step : Recording → Except Fault Recording)
    (amends : ∀ r, step s.recording = .ok r → s.recording.SameHeads r) :
    s.LeavesValues (Recorder.attempt s step) := by
  unfold Recorder.attempt
  split
  · rename_i r answer
    exact leavesValues_amend (amends r answer)
  · exact .refl s

theorem leavesValues_pushCall (s : Session) (kind : CallKind) (definition : Definition)
    (input : Arguments) (caller : Option CallId) :
    s.LeavesValues (s.record fun r => (r.pushCall kind definition input caller).1) where
  unlinked := rfl
  known := Recording.known_pushCall ..
  size := congrArg Array.size (Recording.objects_pushCall ..)
  snapshots := Recording.keepsSnapshots_pushCall ..

theorem leavesValues_modifyKind {id : ObjectId} {f : ObjectKind → ObjectKind}
    (changes : ∀ o, s.recording.object? id = some o → o.kind.Gains (f o.kind)) :
    s.LeavesValues (s.record fun r => r.modifyKind id f) where
  unlinked := rfl
  known := rfl
  size := Recording.size_objects_modifyKind ..
  snapshots := Recording.keepsSnapshots_modifyKind _ _ changes fun _ => .same

/-! ## Steps of an operation -/

/-- One of the steps that record some values. -/
inductive Advances (values : List Value) (s : Session) : Session → Prop
  | records {v : Value} (mem : v ∈ values) : Advances values s (s.serialize v).1
  | leaves {t : Session} (left : s.LeavesValues t) : Advances values s t

/-- Any number of steps. -/
abbrev Proceeds (values : List Value) : Session → Session → Prop :=
  Relation.ReflTransGen (Advances values)

theorem Proceeds.trans {values : List Value} (first : s.Proceeds values t)
    (second : t.Proceeds values u) : s.Proceeds values u :=
  Relation.ReflTransGen.trans first second

theorem Proceeds.leaves {values : List Value} (h : s.Proceeds values t) (left : t.LeavesValues u) :
    s.Proceeds values u :=
  h.tail (.leaves left)

/-- What every step keeps, all of them keep. -/
theorem Proceeds.keeps {P : Session → Prop} {values : List Value} (h : s.Proceeds values t)
    (records : ∀ v ∈ values, ∀ s, P s → P (s.serialize v).1)
    (leaves : ∀ s t, s.LeavesValues t → P s → P t) (start : P s) : P t := by
  induction h with
  | refl => exact start
  | tail _ step ih =>
    cases step with
    | records mem => exact records _ mem _ ih
    | leaves left => exact leaves _ _ left ih

theorem serializeAll_proceeds {values listed : List Value} (mem : ∀ v ∈ listed, v ∈ values)
    (s : Session) : s.Proceeds values (s.serializeAll listed).1 := by
  unfold serializeAll
  induction listed generalizing s with
  | nil => exact .refl
  | cons v rest ih =>
    obtain ⟨first, others⟩ := List.forall_mem_cons.1 mem
    rw [thread_cons]
    exact .head (.records first) (ih others _)

theorem serializeArguments_proceeds {values : List Value} {args : NamedValues}
    (mem : ∀ v ∈ args.map Prod.snd, v ∈ values) (s : Session) :
    s.Proceeds values (s.serializeArguments args).1 :=
  serializeAll_proceeds mem s

theorem callFunction_proceeds (s : Session) (function : FunctionId) (args : NamedValues)
    (caller : Option CallId) : s.Proceeds (Operation.callFunction function args caller).values
      (s.callFunction function args caller).1 :=
  ((serializeArguments_proceeds (fun _ mem => mem) s).leaves (leavesValues_pushCall ..)).leaves
    (leavesValues_link (Project.unlinked_linkFunction ..))

theorem callMethod_proceeds (s : Session) (method : MethodId) (receiver : Value)
    (args : NamedValues) (caller : Option CallId) :
    s.Proceeds (Operation.callMethod method receiver args caller).values
      (s.callMethod method receiver args caller).1 := by
  have first : s.Proceeds (Operation.callMethod method receiver args caller).values
      (s.serialize receiver).1 := .single (.records List.mem_cons_self)
  unfold callMethod
  dsimp only
  split
  · exact first
  · split
    · have called := (first.trans (serializeArguments_proceeds
        (fun v (mem : v ∈ args.map Prod.snd) => List.mem_cons_of_mem _ mem) _)).leaves <|
          leavesValues_pushCall _ (.method (s.serialize receiver).2) (.method method)
            ((s.serialize receiver).1.serializeArguments args).2 caller
      split
      · exact called
      · exact called.leaves
          (leavesValues_modifyKind fun o _ => ObjectKind.gains_addCall ..)
    · exact first

section Resume

variable {values : List Value}

theorem makerOf_proceeds (s : Session) (definition : Definition) {receiver : Option Value}
    (mem : ∀ v ∈ receiver, v ∈ values) : s.Proceeds values (s.makerOf definition receiver).1 := by
  unfold makerOf
  split
  · exact .refl
  · rename_i receiver
    have first : s.Proceeds values (s.serialize receiver).1 := .single (.records (mem _ rfl))
    dsimp only
    split
    · exact first
    · split <;> exact first
  · exact .refl

theorem activate_proceeds {generator : ObjectId} {o : Object} {calls : List CallId}
    (found : s.recording.object? generator = some o) (unmade : o.kind = .generator none calls)
    (definition : Definition) {args : NamedValues} {receiver : Option Value}
    (mem : ∀ v ∈ receiver, v ∈ values) (listed : ∀ v ∈ args.map Prod.snd, v ∈ values) :
    s.Proceeds values (s.activate generator definition args receiver).1 := by
  have first := makerOf_takes s definition receiver
  have advanced := makerOf_proceeds s definition mem
  unfold activate
  split
  · rename_i eq
    rw [eq] at advanced
    exact advanced
  · rename_i t maker eq
    rw [eq] at first advanced
    have still := (serializeArguments_takes t args).object? (first.object? found)
    have made := (advanced.trans (serializeArguments_proceeds listed t)).leaves <|
      leavesValues_modifyKind (f := (·.activate ⟨definition, (t.serializeArguments args).2, maker⟩))
        fun o' there => by
          cases there.symm.trans still
          exact ObjectKind.gains_activate unmade _
    dsimp only
    split
    · exact made.leaves (leavesValues_link (Project.unlinked_linkFunction ..))
    · exact made.leaves (leavesValues_modifyKind fun o _ => ObjectKind.gains_addGenerator ..)

end Resume

theorem resume_proceeds (s : Session) (generator : Value) (definition : Definition)
    (args : NamedValues) (receiver : Option Value) (caller : Option CallId) :
    s.Proceeds (Operation.resume generator definition args receiver caller).values
      (s.resume generator definition args receiver caller).1 := by
  have first : s.Proceeds (Operation.resume generator definition args receiver caller).values
      (s.serialize generator).1 := .single (.records List.mem_cons_self)
  have resumed {t : Session} (h : s.Proceeds
      (Operation.resume generator definition args receiver caller).values t) (id : ObjectId) :=
    (h.leaves (leavesValues_pushCall t (.resumption id) definition .empty caller)).leaves
      (leavesValues_modifyKind (f := (·.addResumption ⟨t.recording.calls.size⟩))
        fun o (_ : Recording.object? _ id = some o) => ObjectKind.gains_addResumption ..)
  unfold resume
  dsimp only
  split
  · rename_i activation calls eq
    obtain ⟨o, found, eq⟩ := Option.map_eq_some_iff.1 eq
    cases activation with
    | some activation =>
      dsimp only
      rw [Recording.pushCall_id]
      exact resumed first _
    | none =>
      have made : s.Proceeds (Operation.resume generator definition args receiver caller).values
          ((s.serialize generator).1.activate (s.serialize generator).2 definition args receiver).1 :=
        first.trans <| activate_proceeds found eq definition
          (fun v mem => by simp [Operation.values, Option.mem_def.1 mem])
          (fun v mem => List.mem_cons_of_mem _ (List.mem_append_right _ mem))
      dsimp only
      split
      · exact made
      · rw [Recording.pushCall_id]
        exact resumed made _
  · exact first

/-- An operation that neither ends nor erases the recording records its values and nothing else. -/
theorem perform_proceeds (s : Session) (op : Operation) (keeps : op.keepsHandles) :
    s.Proceeds op.values (s.perform op) := by
  cases op with
  | serialize v => exact .single (.records List.mem_cons_self)
  | callFunction function args caller => exact callFunction_proceeds s function args caller
  | callMethod method receiver args caller => exact callMethod_proceeds s method receiver args caller
  | resume generator definition args receiver caller =>
    exact resume_proceeds s generator definition args receiver caller
  | setOutcome id outcome =>
    exact .single (.leaves (leavesValues_attempt s (·.setOutcome id outcome)
      fun _ => Recording.sameHeads_setOutcome))
  | clearOutcome id =>
    exact .single (.leaves (leavesValues_attempt s (·.clearOutcome id)
      fun _ => Recording.sameHeads_clearOutcome))
  | complete id =>
    exact .single (.leaves (leavesValues_attempt s (·.complete id)
      fun _ => Recording.sameHeads_complete))
  | detach id =>
    exact .single (.leaves (leavesValues_attempt s (·.detach id)
      fun _ => Recording.sameHeads_detach))
  | addEffect change owner =>
    exact .single (.leaves (leavesValues_amend (Recording.sameHeads_pushEffect ..)))
  | finish | erase => cases keeps

end Session

end Reenact
