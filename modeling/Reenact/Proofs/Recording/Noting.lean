import Reenact.Proofs.Project.Definitions
import Reenact.Proofs.Recording.Soundness

/-!
# Noting values

Whatever a session does with a value comes down to four things: it adds an object, it changes what is
particular to an object, or it links the project. `Session.Notes` says that one session came from
another by any number of these. Calls, side effects and the lists that name them are the same on both
sides, and soundness passes from one to the other; both are proved once, by induction on
`Session.Notes`, and no later proof opens the recording of a value again.

**The law** (`serialize_notes`): recording a value notes something and answers with an object that is
part of the recording.
-/

namespace Reenact

namespace Arguments

theorem mem_insertArgument {name : String} {id : ObjectId} {l : List (String × ObjectId)}
    {entry : String × ObjectId} (mem : entry ∈ insertArgument name id l) :
    entry = (name, id) ∨ entry ∈ l := by
  induction l with
  | nil => exact .inl (List.mem_singleton.1 mem)
  | cons head rest ih =>
    unfold insertArgument at mem
    split at mem
    · exact List.mem_cons.1 mem
    · split at mem
      · rcases List.mem_cons.1 mem with rfl | mem
        · exact .inl rfl
        · exact .inr (List.mem_cons_of_mem _ mem)
      · rcases List.mem_cons.1 mem with rfl | mem
        · exact .inr List.mem_cons_self
        · exact (ih mem).imp_right (List.mem_cons_of_mem _)

/-- The arguments of a list are objects of the list. -/
theorem values_ofList_subset (l : List (String × ObjectId)) :
    (ofList l).values ⊆ l.map Prod.snd := by
  have general : ∀ (l : List (String × ObjectId)) (a : Arguments),
      ∀ entry ∈ (l.foldl (fun a entry => a.insert entry.1 entry.2) a).entries,
        entry ∈ a.entries ∨ entry ∈ l := by
    intro l
    induction l with
    | nil => exact fun a entry mem => .inl mem
    | cons head rest ih =>
      intro a entry mem
      rcases ih _ entry mem with mem | mem
      · rcases mem_insertArgument mem with rfl | mem
        · exact .inr List.mem_cons_self
        · exact .inl mem
      · exact .inr (List.mem_cons_of_mem _ mem)
  intro id mem
  obtain ⟨entry, inside, rfl⟩ := List.mem_map.1 mem
  rcases general l empty entry inside with mem | mem
  · cases mem
  · exact List.mem_map_of_mem mem

end Arguments

/-- A later state of what is particular to an object. Instances and generators may have been used
since; an instance keeps its constructor call once it has one, and a generator its activation. -/
inductive ObjectKind.Becomes : ObjectKind → ObjectKind → Prop
  | same (kind : ObjectKind) : Becomes kind kind
  | used {cls : ClassId} {initCall initCall' : Option CallId} {uses uses' : List Use}
      (kept : initCall ≠ none → initCall' = initCall) :
      Becomes (.user cls initCall uses) (.user cls initCall' uses')
  | resumed {activation activation' : Option Activation} {calls calls' : List CallId}
      (kept : activation ≠ none → activation' = activation) :
      Becomes (.generator activation calls) (.generator activation' calls')

/-- The object that a call is made on: the receiver of a method, or the generator resumed. -/
def CallKind.subject? : CallKind → Option ObjectId
  | function => none
  | method receiver => some receiver
  | resumption generator => some generator

namespace Recording

/-- The call is part of the recording, and was made on the object. -/
def HasCallOn (r : Recording) (id : ObjectId) (call : CallId) : Prop :=
  ∃ c, r.call? call = some c ∧ c.kind.subject? = some id

theorem HasCallOn.hasCall {r : Recording} {id : ObjectId} {call : CallId}
    (h : r.HasCallOn id call) : r.HasCall call :=
  h.imp fun _ found => found.1

/-- A new call is made on the object that its kind tells. -/
theorem hasCallOn_pushCall (r : Recording) {kind : CallKind} {id : ObjectId}
    (subject : kind.subject? = some id) (definition : Definition) (input : Arguments)
    (caller : Option CallId) : (r.pushCall kind definition input caller).1.HasCallOn id
      (r.pushCall kind definition input caller).2 :=
  ⟨r.newCall kind definition input caller, by rw [call?_pushCall, pushCall_id, if_pos rfl], subject⟩

/-- Another way to look at what is particular to the object: a later state of it that keeps its parts,
and refers to nothing that the recording lacks and to no calls but those made on the object. -/
structure Keeps (r : Recording) (id : ObjectId) (f : ObjectKind → ObjectKind) : Prop where
  becomes : ∀ o, r.object? id = some o → o.kind.Becomes (f o.kind)
  parts : ∀ kind, (f kind).parts = kind.parts
  objectRefs : ∀ kind, ∀ x ∈ (f kind).objectRefs, x ∈ kind.objectRefs ∨ r.HasObject x
  callRefs : ∀ kind, ∀ x ∈ (f kind).callRefs, x ∈ kind.callRefs ∨ r.HasCallOn id x

/-- A kind of object that refers to nothing but its parts, which the recording has. -/
structure IsFresh (r : Recording) (kind : ObjectKind) : Prop where
  parts : ∀ id ∈ kind.parts, r.HasObject id
  objectRefs : kind.objectRefs = []
  callRefs : kind.callRefs = []

/-- A kind that refers to nothing at all. -/
theorem IsFresh.leaf {r : Recording} {kind : ObjectKind} (parts : kind.parts = [])
    (objectRefs : kind.objectRefs = []) (callRefs : kind.callRefs = []) : r.IsFresh kind where
  parts id mem := by
    rw [parts] at mem
    cases mem
  objectRefs := objectRefs
  callRefs := callRefs

end Recording

namespace Session

/-- The second session came from the first by adding and changing objects and by linking. -/
inductive Notes : Session → Session → Prop
  | refl (s : Session) : Notes s s
  | stray {s t : Session} (before : Notes s t) (v : Value) : Notes s (t.pushStray v).1
  | known {s t : Session} (before : Notes s t) (v : Value) {kind : ObjectKind}
      (fresh : t.recording.IsFresh kind) : Notes s (t.pushKnown v kind).1
  | altered {s t : Session} (before : Notes s t) (id : ObjectId) {f : ObjectKind → ObjectKind}
      (keeps : t.recording.Keeps id f) : Notes s (t.record (·.modifyKind id f))
  | linked {s t : Session} (before : Notes s t) {p : Project}
      (same : p.unlinked = t.project.unlinked) : Notes s { t with project := p }

/-! ## What noting leaves alone -/

theorem pushKnown_id (s : Session) (v : Value) (kind : ObjectKind) :
    (s.pushKnown v kind).2 = ⟨s.recording.objects.size⟩ := by
  unfold pushKnown
  dsimp only
  split <;> rfl

/-- What a new object that its handle stands for does to the recording: besides the object, only the
lists of handles and generators change. -/
theorem pushKnown_recording (s : Session) (v : Value) (kind : ObjectKind) :
    (s.pushKnown v kind).1.recording =
        (s.recording.pushObject v kind).1.remember v.handle ⟨s.recording.objects.size⟩ ∨
      (s.pushKnown v kind).1.recording =
        { (s.recording.pushObject v kind).1.remember v.handle ⟨s.recording.objects.size⟩ with
          generators := s.recording.generators ++ [(⟨s.recording.objects.size⟩, v)] } := by
  unfold pushKnown
  dsimp only
  split
  · exact .inl rfl
  · exact .inr rfl
  · exact .inl rfl

theorem pushKnown_unlinked (s : Session) (v : Value) (kind : ObjectKind) :
    (s.pushKnown v kind).1.project.unlinked = s.project.unlinked := by
  unfold pushKnown
  dsimp only
  split
  · exact Project.unlinked_linkClass ..
  · rfl
  · rfl

/-- Both recordings have the same calls and side effects, and the same lists of them. -/
structure SameCalls (r s : Recording) : Prop where
  calls : s.calls = r.calls
  effects : s.effects = r.effects
  captured : s.captured = r.captured
  roots : s.roots = r.roots
  rootEffects : s.rootEffects = r.rootEffects

theorem SameCalls.refl (r : Recording) : SameCalls r r := ⟨rfl, rfl, rfl, rfl, rfl⟩

theorem SameCalls.trans {r s t : Recording} (first : SameCalls r s) (second : SameCalls s t) :
    SameCalls r t :=
  ⟨second.calls.trans first.calls, second.effects.trans first.effects,
    second.captured.trans first.captured, second.roots.trans first.roots,
    second.rootEffects.trans first.rootEffects⟩

variable {s t u : Session}

theorem Notes.trans (first : s.Notes t) (second : t.Notes u) : s.Notes u := by
  induction second with
  | refl => exact first
  | stray _ v ih => exact .stray ih v
  | known _ v fresh ih => exact .known ih v fresh
  | altered _ id keeps ih => exact .altered ih id keeps
  | linked _ same ih => exact .linked ih same

theorem Notes.sameCalls (h : s.Notes t) : SameCalls s.recording t.recording := by
  induction h with
  | refl => exact .refl _
  | stray _ v ih => exact ih.trans ⟨rfl, rfl, rfl, rfl, rfl⟩
  | @known t _ v kind _ ih =>
    refine ih.trans ?_
    rcases pushKnown_recording t v kind with eq | eq <;> rw [eq] <;> exact ⟨rfl, rfl, rfl, rfl, rfl⟩
  | altered _ id keeps ih => exact ih.trans ⟨rfl, rfl, rfl, rfl, rfl⟩
  | linked _ same ih => exact ih

theorem Notes.call? (h : s.Notes t) (id : CallId) : t.recording.call? id = s.recording.call? id := by
  rw [Recording.call?, h.sameCalls.calls, Recording.call?]

theorem Notes.unlinked (h : s.Notes t) : t.project.unlinked = s.project.unlinked := by
  induction h with
  | refl => rfl
  | stray _ v ih => exact ih
  | known _ v fresh ih => exact (pushKnown_unlinked ..).trans ih
  | altered _ id keeps ih => exact ih
  | linked _ same ih => exact same.trans ih

theorem Notes.sound (h : s.Notes t) (sound : s.recording.Sound) : t.recording.Sound := by
  induction h with
  | refl => exact sound
  | stray _ v ih =>
    exact ih.pushObject v (fun _ mem => by cases mem) rfl rfl
  | @known t _ v kind fresh ih =>
    have pushed := ih.pushObject v fresh.parts fresh.objectRefs fresh.callRefs
    have there : (t.recording.pushObject v kind).1.HasObject ⟨t.recording.objects.size⟩ :=
      Recording.hasObject_iff.2 (by simp)
    have remembered := pushed.remember v.handle there
    rcases pushKnown_recording t v kind with eq | eq <;> rw [eq]
    · exact remembered
    · exact remembered.listGenerator v there
  | altered _ id keeps ih =>
    exact ih.modifyKind id keeps.parts keeps.objectRefs fun kind x mem =>
      (keeps.callRefs kind x mem).imp_right Recording.HasCallOn.hasCall
  | linked _ same ih => exact ih

theorem Notes.grows (h : s.Notes t) : s.recording.Grows t.recording := by
  induction h with
  | refl => exact .refl _
  | stray _ v ih => exact ih.trans (Recording.grows_pushObject ..)
  | @known t _ v kind fresh ih =>
    have pushed := ih.trans (Recording.grows_pushObject t.recording v kind)
    rcases pushKnown_recording t v kind with eq | eq <;> rw [eq] <;>
      exact ⟨pushed.objects, pushed.calls, pushed.effects⟩
  | altered _ id keeps ih => exact ih.trans (Recording.grows_modifyKind ..)
  | linked _ same ih => exact ih

/-! ## Recording values -/

theorem mem_pairUp {ids : List ObjectId} {id : ObjectId}
    (mem : id ∈ (Outline.pairUp ids).flatMap fun entry => [entry.1, entry.2]) : id ∈ ids := by
  fun_induction Outline.pairUp ids with
  | case1 key value rest ih =>
    simp only [List.flatMap_cons, List.mem_append, List.mem_cons, List.not_mem_nil, or_false] at mem
    rcases mem with (rfl | rfl) | mem
    · exact List.mem_cons_self
    · exact List.mem_cons_of_mem _ List.mem_cons_self
    · exact List.mem_cons_of_mem _ (List.mem_cons_of_mem _ (ih mem))
  | case2 => cases mem

/-- What a value becomes without recording parts: a literal, something unknown, an instance on which
nothing was done, or a generator that was neither made nor resumed. -/
theorem outline_whole_cases {p : Project} {v : Value} {kind : ObjectKind}
    (h : p.outline v = .whole kind) :
    (∃ code imports, kind = .immutable code imports) ∨ (∃ hint, kind = .unknown hint) ∨
      (∃ cls, kind = .user cls none []) ∨ kind = .generator none [] := by
  have plain : v.plainOutline = .whole kind →
      (∃ code imports, kind = .immutable code imports) ∨ (∃ hint, kind = .unknown hint) := by
    intro h
    unfold Value.plainOutline at h
    split at h
    · cases h
      exact .inl ⟨_, _, rfl⟩
    · cases h
    · cases h
    · cases h
    · split at h
      · cases h
        exact .inr ⟨_, rfl⟩
      · split at h <;> cases h
        exact .inr ⟨_, rfl⟩
    all_goals
      cases h
      exact .inr ⟨_, rfl⟩
  unfold Project.outline at h
  split at h
  · cases h
    exact .inr (.inr (.inr rfl))
  · split at h
    · cases h
      exact .inr (.inr (.inl ⟨_, rfl⟩))
    · rcases plain h with made | hint
      · exact .inl made
      · exact .inr (.inl hint)

/-- What a value becomes, without its parts, refers to nothing. -/
theorem isFresh_whole {p : Project} {v : Value} {kind : ObjectKind}
    (h : p.outline v = .whole kind) (r : Recording) : r.IsFresh kind := by
  rcases outline_whole_cases h with ⟨code, imports, rfl⟩ | ⟨hint, rfl⟩ | ⟨cls, rfl⟩ | rfl <;>
    exact .leaf rfl rfl rfl

/-- What a value becomes, with parts that the recording has, refers to nothing else. -/
theorem isFresh_build {p : Project} {v : Value} {ids : List ObjectId} {r : Recording}
    (known : ∀ id ∈ ids, r.HasObject id) : r.IsFresh ((p.outline v).build ids) := by
  cases h : p.outline v with
  | whole kind => exact isFresh_whole h r
  | sequence | exception | library => exact ⟨known, rfl, rfl⟩
  | map => exact ⟨fun id mem => known id (mem_pairUp mem), rfl, rfl⟩

/-- Recording the members of a list one after the other notes something and answers with objects that
are part of the recording, if recording each one does. -/
theorem thread_notes {α : Type} {step : Session → α → Session × ObjectId} {l : List α}
    (each : ∀ a ∈ l, ∀ s : Session, s.recording.Sound →
      s.Notes (step s a).1 ∧ (step s a).1.recording.HasObject (step s a).2)
    (sound : s.recording.Sound) :
    s.Notes (thread step s l).1 ∧
      ∀ id ∈ (thread step s l).2, (thread step s l).1.recording.HasObject id := by
  induction l generalizing s with
  | nil => exact ⟨.refl s, fun _ mem => by cases mem⟩
  | cons a rest ih =>
    obtain ⟨first, there⟩ := each a List.mem_cons_self s sound
    obtain ⟨others, all⟩ := ih (fun b mem => each b (List.mem_cons_of_mem _ mem)) (first.sound sound)
    rw [thread_cons]
    refine ⟨first.trans others, fun id mem => ?_⟩
    rcases List.mem_cons.1 mem with rfl | mem
    · exact there.mono others.grows
    · exact all id mem

theorem serializeWithin_notes (around : List Handle) (v : Value) (sound : s.recording.Sound) :
    s.Notes (s.serializeWithin around v).1 ∧
      (s.serializeWithin around v).1.recording.HasObject (s.serializeWithin around v).2 := by
  -- parts are smaller than what they are part of
  induction h : sizeOf v using Nat.strongRecOn generalizing v s around with
  | _ size ih =>
    rw [serializeWithin_eq]
    split
    · rename_i id found
      obtain ⟨before, rest, split, -⟩ := List.lookup_eq_some_iff.1 found
      exact ⟨.refl s, sound.listed.known (v.handle, id) (by rw [split]; simp)⟩
    · split
      · exact ⟨.stray (.refl s) v, Recording.hasObject_iff.2 (by simp [pushStray])⟩
      · obtain ⟨parts, there⟩ := thread_notes (l := (s.project.outline v).parts)
          (fun w mem s sound => ih (sizeOf w)
            (h ▸ Value.sizeOf_lt_of_mem_held (Project.mem_held_of_mem_parts mem))
            (v.handle :: around) w sound rfl) sound
        refine ⟨.known parts v (isFresh_build there), ?_⟩
        rw [pushKnown_id]
        refine Recording.hasObject_iff.2 ?_
        rcases pushKnown_recording (thread (serializeWithin (v.handle :: around)) s
          (s.project.outline v).parts).1 v ((s.project.outline v).build _) with eq | eq <;>
          rw [eq] <;> simp [Recording.remember]

/-- Recording a value notes something and answers with an object of the recording. -/
theorem serialize_notes (v : Value) (sound : s.recording.Sound) :
    s.Notes (s.serialize v).1 ∧ (s.serialize v).1.recording.HasObject (s.serialize v).2 :=
  serializeWithin_notes [] v sound

theorem serializeAll_notes (values : List Value) (sound : s.recording.Sound) :
    s.Notes (s.serializeAll values).1 ∧
      ∀ id ∈ (s.serializeAll values).2, (s.serializeAll values).1.recording.HasObject id :=
  thread_notes (fun v _ _ sound => serialize_notes v sound) sound

theorem serializeArguments_notes (args : List (String × Value)) (sound : s.recording.Sound) :
    s.Notes (s.serializeArguments args).1 ∧
      ∀ id ∈ (s.serializeArguments args).2.values,
        (s.serializeArguments args).1.recording.HasObject id := by
  obtain ⟨notes, there⟩ := serializeAll_notes (args.map Prod.snd) sound
  refine ⟨notes, fun id mem => there id ?_⟩
  obtain ⟨entry, inside, rfl⟩ := List.mem_map.1 (Arguments.values_ofList_subset _ mem)
  exact (List.of_mem_zip inside).2

end Session

end Reenact
