import Reenact.Proofs.Recording.Taking

/-!
# Recording calls

A call is recorded in three steps: its values are noted, the call is added, and what the recording
knows of the receiver or generator is brought up to date, which is noting again. `Session.Opens` says
that a session came from another in this way. A call that is refused has noted values and nothing
else (`Session.OpensOrNotes`).
-/

namespace Reenact

namespace Recording

variable {r : Recording}

theorem keeps_addCall {receiver : ObjectId} {id : CallId} (known : r.HasCallOn receiver id)
    (isConstructor : Bool) : r.Keeps receiver (·.addCall id isConstructor) where
  becomes o _ := by
    cases o.kind with
    | user cls initCall uses =>
      refine .used fun made => ?_
      rw [Option.isNone_eq_false_iff.2 (Option.isSome_iff_ne_none.2 made), Bool.and_false]
      rfl
    | immutable | sequence | map | exception | library | unknown | generator => exact .same _
  parts kind := by cases kind <;> rfl
  objectRefs kind x mem := by
    cases kind with
    | user cls initCall uses =>
      simp only [ObjectKind.addCall, ObjectKind.objectRefs, List.filterMap_append,
        List.filterMap_cons, List.filterMap_nil, List.append_nil] at mem
      exact .inl mem
    | immutable | sequence | map | exception | library | unknown | generator => exact .inl mem
  callRefs kind x mem := by
    cases kind with
    | user cls initCall uses =>
      simp only [ObjectKind.addCall, ObjectKind.callRefs, List.filterMap_append,
        List.mem_append] at mem
      rcases mem with mem | mem | mem
      · split at mem
        · simp only [Option.toList_some, List.mem_singleton] at mem
          exact .inr (mem ▸ known)
        · exact .inl (List.mem_append_left _ mem)
      · exact .inl (List.mem_append_right _ mem)
      · simp only [List.filterMap_cons, List.filterMap_nil, List.mem_singleton] at mem
        exact .inr (mem ▸ known)
    | immutable | sequence | map | exception | library | unknown | generator => exact .inl mem

theorem keeps_addGenerator (owner : ObjectId) {id : ObjectId} (known : r.HasObject id) :
    r.Keeps owner (·.addGenerator id) where
  becomes o _ := by
    cases o.kind with
    | user cls initCall uses => exact .used fun _ => rfl
    | immutable | sequence | map | exception | library | unknown | generator => exact .same _
  parts kind := by cases kind <;> rfl
  objectRefs kind x mem := by
    cases kind with
    | user cls initCall uses =>
      simp only [ObjectKind.addGenerator, ObjectKind.objectRefs, List.filterMap_append,
        List.mem_append] at mem
      rcases mem with mem | mem
      · exact .inl mem
      · simp only [List.filterMap_cons, List.filterMap_nil, List.mem_singleton] at mem
        exact .inr (mem ▸ known)
    | immutable | sequence | map | exception | library | unknown | generator => exact .inl mem
  callRefs kind x mem := by
    cases kind with
    | user cls initCall uses =>
      simp only [ObjectKind.addGenerator, ObjectKind.callRefs, List.filterMap_append,
        List.filterMap_cons, List.filterMap_nil, List.append_nil] at mem
      exact .inl mem
    | immutable | sequence | map | exception | library | unknown | generator => exact .inl mem

theorem keeps_addResumption {generator : ObjectId} {id : CallId}
    (known : r.HasCallOn generator id) : r.Keeps generator (·.addResumption id) where
  becomes o _ := by
    cases o.kind with
    | generator activation calls => exact .resumed fun _ => rfl
    | immutable | sequence | map | exception | library | unknown | user => exact .same _
  parts kind := by cases kind <;> rfl
  objectRefs kind x mem := by
    cases kind with
    | generator activation calls => cases activation <;> exact .inl mem
    | immutable | sequence | map | exception | library | unknown | user => exact .inl mem
  callRefs kind x mem := by
    cases kind with
    | generator activation calls =>
      rcases List.mem_append.1 mem with mem | mem
      · exact .inl mem
      · exact .inr (List.mem_singleton.1 mem ▸ known)
    | immutable | sequence | map | exception | library | unknown | user => exact .inl mem

/-- What made a generator is part of the recording, or a function of the project. -/
def HasMaker (r : Recording) : Maker → Prop
  | .function _ => True
  | .userObject owner => r.HasObject owner

theorem HasMaker.mono {r s : Recording} {maker : Maker} (grows : r.Grows s) (h : r.HasMaker maker) :
    s.HasMaker maker := by
  cases maker with
  | function => trivial
  | userObject owner => exact HasObject.mono grows h

/-- A generator that was not made yet is made once. -/
theorem keeps_activate {generator : ObjectId} {activation : Activation}
    (unmade : ∀ o, r.object? generator = some o → o.kind.activation? = none)
    (args : ∀ id ∈ activation.args.values, r.HasObject id) (maker : r.HasMaker activation.maker) :
    r.Keeps generator (·.activate activation) where
  becomes o found := by
    have none := unmade o found
    cases eq : o.kind with
    | generator old calls =>
      rw [eq] at none
      exact .resumed fun made => absurd none made
    | immutable | sequence | map | exception | library | unknown | user => exact .same _
  parts kind := by cases kind <;> rfl
  objectRefs kind x mem := by
    cases kind with
    | generator old calls =>
      refine .inr ?_
      rcases List.mem_append.1 mem with mem | mem
      · exact args x mem
      · cases eq : activation.maker with
        | function => simp [eq] at mem
        | userObject owner =>
          simp only [eq, List.mem_singleton] at mem
          rw [eq] at maker
          exact mem ▸ maker
    | immutable | sequence | map | exception | library | unknown | user => exact .inl mem
  callRefs kind x mem := by
    cases kind with
    | generator old calls => exact .inl mem
    | immutable | sequence | map | exception | library | unknown | user => exact .inl mem

end Recording

namespace Session

variable {s : Session} {caller : Option CallId}

/-- The second session came from the first by recording one call, which starts from objects that are
recorded before it. -/
def Opens (s : Session) (caller : Option CallId) (id : CallId) (t : Session) : Prop :=
  id = ⟨s.recording.calls.size⟩ ∧ ∃ (before : Session) (kind : CallKind) (definition : Definition)
    (input : Arguments), s.Notes before ∧
    (∀ x ∈ (before.recording.newCall kind definition input caller).startsFrom,
      before.recording.HasObject x) ∧
    Notes { before with
      recording := (before.recording.pushCall kind definition input caller).1 } t

/-- A call that was just recorded has neither an outcome nor an end. -/
theorem Opens.call? {id : CallId} {t : Session} (h : s.Opens caller id t) :
    ∃ c, t.recording.call? id = some c ∧ c.outcome = none ∧ c.completedAt = none := by
  obtain ⟨rfl, before, kind, definition, input, notes, -, after⟩ := h
  refine ⟨before.recording.newCall kind definition input caller, ?_, rfl, rfl⟩
  rw [after.call?, Recording.call?_pushCall, ← notes.sameCalls.calls, if_pos rfl]

/-- A call is recorded, or it is refused after its values were noted. -/
def OpensOrNotes (s : Session) (caller : Option CallId) (result : Session × Except Fault CallId) :
    Prop :=
  (∃ id, result.2 = .ok id ∧ s.Opens caller id result.1) ∨
    ∃ fault, result.2 = .error fault ∧ s.Notes result.1

theorem callFunction_opens (function : FunctionId) (args : List (String × Value))
    (caller : Option CallId) (sound : s.recording.Sound) :
    s.Opens caller (s.callFunction function args caller).2
      (s.callFunction function args caller).1 := by
  obtain ⟨notes, there⟩ := serializeArguments_notes args sound
  refine ⟨?_, (s.serializeArguments args).1, .function, .function function,
    (s.serializeArguments args).2, notes, ?_, ?_⟩
  · simp only [callFunction, Recording.pushCall_id, notes.sameCalls.calls]
  · intro x mem
    simp only [Call.startsFrom, Recording.newCall, Call.receiver, Call.generator,
      Option.toList_none, List.append_nil] at mem
    exact there x mem
  · exact .linked (.refl _) (Project.unlinked_linkFunction ..)

/-- Recording a call of a method of the project is refused when the receiver is no instance of one of
its classes, and in no other case. -/
theorem callMethod_opensOrNotes {method : MethodId} {m : Method}
    (found : s.project.method? method = .ok m) (receiver : Value) (args : List (String × Value))
    (caller : Option CallId) (sound : s.recording.Sound) :
    s.OpensOrNotes caller (s.callMethod method receiver args caller) := by
  obtain ⟨first, known⟩ := serialize_notes receiver sound
  unfold callMethod
  dsimp only
  split
  · exact .inr ⟨_, rfl, first⟩
  · split
    · obtain ⟨second, there⟩ := serializeArguments_notes args (first.sound sound)
      have notes := first.trans second
      have found' : ((s.serialize receiver).1.serializeArguments args).1.project.method? method =
          .ok m := by rw [Project.method?_congr notes.unlinked, found]
      rw [found']
      refine .inl ⟨_, rfl, ?_, _, _, _, _, notes, ?_, .altered (.refl _) _ ?_⟩
      · rw [Recording.pushCall_id, notes.sameCalls.calls]
      · intro x mem
        simp only [Call.startsFrom, Recording.newCall, Call.receiver, Call.generator,
          Option.toList_some, Option.toList_none, List.append_nil, List.mem_append,
          List.mem_singleton] at mem
        rcases mem with mem | rfl
        · exact there x mem
        · exact known.mono second.grows
      · exact Recording.keeps_addCall (Recording.hasCallOn_pushCall _ rfl ..) _
    · exact .inr ⟨_, rfl, first⟩

/-- The maker of a generator is recorded, or refused after its value was noted. -/
theorem makerOf_notes (definition : Definition) (receiver : Option Value)
    (sound : s.recording.Sound) : s.Notes (s.makerOf definition receiver).1 ∧
      ∀ maker, (s.makerOf definition receiver).2 = .ok maker →
        (s.makerOf definition receiver).1.recording.HasMaker maker := by
  unfold makerOf
  split
  · refine ⟨.refl s, ?_⟩
    rintro _ ⟨⟩
    trivial
  · rename_i receiver
    obtain ⟨notes, known⟩ := serialize_notes receiver sound
    dsimp only
    split
    · refine ⟨notes, ?_⟩
      rintro _ ⟨⟩
    · split
      · refine ⟨notes, ?_⟩
        rintro _ ⟨⟩
        exact known
      · refine ⟨notes, ?_⟩
        rintro _ ⟨⟩
  · refine ⟨.refl s, ?_⟩
    rintro _ ⟨⟩

/-- Recording how a generator was made, which was not known before, only notes values, whether or not it
is refused. -/
theorem activate_notes {generator : ObjectId} {o : Object}
    (found : s.recording.object? generator = some o) (unmade : o.kind.activation? = none)
    (definition : Definition) (args : List (String × Value)) (receiver : Option Value)
    (sound : s.recording.Sound) : s.Notes (s.activate generator definition args receiver).1 := by
  obtain ⟨first, made⟩ := makerOf_notes definition receiver sound
  have taken := makerOf_takes s definition receiver
  unfold activate
  split
  · rename_i eq
    rw [eq] at first
    exact first
  · rename_i t maker eq
    rw [eq] at first made taken
    have made := made maker rfl
    obtain ⟨second, there⟩ := serializeArguments_notes args (first.sound sound)
    have notes := first.trans second
    have still := (serializeArguments_takes t args).object? (taken.object? found)
    have altered : s.Notes (((t.serializeArguments args).1).record fun r => r.modifyKind generator
        (·.activate ⟨definition, (t.serializeArguments args).2, maker⟩)) :=
      .altered notes generator
        (Recording.keeps_activate (by rintro _ found'; cases still.symm.trans found'; exact unmade)
          there (made.mono second.grows))
    dsimp only
    split
    · exact .linked altered (Project.unlinked_linkFunction ..)
    · refine .altered altered _ (Recording.keeps_addGenerator _ ?_)
      exact (Recording.HasObject.of_object? still).mono (Recording.grows_modifyKind ..)

/-- One more resumption of a generator of the recording. -/
theorem opens_resumption {t : Session} (notes : s.Notes t) {generator : ObjectId}
    (known : t.recording.HasObject generator) (definition : Definition) (caller : Option CallId) :
    let pushed := t.recording.pushCall (.resumption generator) definition .empty caller
    s.Opens caller pushed.2 ((⟨t.project, pushed.1⟩ : Session).record fun r =>
      r.modifyKind generator (·.addResumption pushed.2)) := by
  refine ⟨?_, t, _, _, _, notes, ?_, .altered (.refl _) _ ?_⟩
  · rw [Recording.pushCall_id, notes.sameCalls.calls]
  · intro x mem
    simp only [Call.startsFrom, Recording.newCall, Call.receiver, Call.generator,
      Option.toList_some, Option.toList_none, List.append_nil, List.mem_append,
      List.mem_singleton, Arguments.values, Arguments.empty, List.map_nil, List.not_mem_nil,
      false_or] at mem
    exact mem ▸ known
  · exact Recording.keeps_addResumption (Recording.hasCallOn_pushCall _ rfl ..)

/-- Recording a resumption is refused when the value is no generator or its maker is refused. -/
theorem resume_opensOrNotes (generator : Value) (definition : Definition)
    (args : List (String × Value)) (receiver : Option Value) (caller : Option CallId)
    (sound : s.recording.Sound) :
    s.OpensOrNotes caller (s.resume generator definition args receiver caller) := by
  obtain ⟨first, known⟩ := serialize_notes generator sound
  unfold resume
  dsimp only
  split
  · rename_i activation calls found
    cases activation with
    | some activation => exact .inl ⟨_, rfl, opens_resumption first known definition caller⟩
    | none =>
      obtain ⟨o, there, eq⟩ := Option.map_eq_some_iff.1 found
      have unmade : o.kind.activation? = none := by rw [eq]; rfl
      have second := activate_notes there unmade definition args receiver (first.sound sound)
      have notes := first.trans second
      dsimp only
      split
      · exact .inr ⟨_, rfl, notes⟩
      · exact .inl ⟨_, rfl, opens_resumption notes (known.mono second.grows) definition caller⟩
  · exact .inr ⟨_, rfl, first⟩

end Session

end Reenact
