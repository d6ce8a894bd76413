import Reenact.Proofs.Recording.Identity
import Reenact.Proofs.Recording.Methods

/-!
# What is new in a recording

A handle that comes to stand for an object stands for a new one (`Recording.NamesNew`): whatever a
session notes, no handle is ever given an object that was there before. So a value whose handle
stood for nothing becomes an object of its own (`Session.not_hasObject_serialize`).

Arguments can be new as well: those of a call, and those of a generator once it is made
(`Session.MakesWith`).
-/

namespace Reenact

/-! ## Handles of new objects -/

namespace Recording

variable {r s t : Recording}

/-- A handle of the second recording stood for its object in the first one, or the object is new. -/
def NamesNew (r s : Recording) : Prop :=
  ∀ (h : Handle) (id : ObjectId), s.lookup h = some id → r.lookup h = some id ∨ ¬r.HasObject id

theorem namesNew_of_known (same : s.known = r.known) : r.NamesNew s := by
  intro h id found
  rw [lookup, same] at found
  exact .inl found

theorem NamesNew.trans (first : r.NamesNew s) (grows : r.Grows s) (second : s.NamesNew t) :
    r.NamesNew t := by
  intro h id found
  rcases second h id found with there | new
  · exact first h id there
  · exact .inr fun old => new (old.mono grows)

/-- A handle that stood for nothing stands for a new object. -/
theorem NamesNew.not_hasObject (names : r.NamesNew s) {h : Handle} {id : ObjectId}
    (unknown : r.lookup h = none) (found : s.lookup h = some id) : ¬r.HasObject id := by
  refine (names h id found).resolve_left fun old => ?_
  rw [unknown] at old
  cases old

end Recording

namespace Session

open Recording (namesNew_of_known)

variable {s t : Session}

theorem Notes.namesNew (h : s.Notes t) : s.recording.NamesNew t.recording := by
  induction h with
  | refl => exact namesNew_of_known rfl
  | @known t before v kind fresh ih =>
    intro g id found
    rw [lookup_pushKnown] at found
    split at found
    · -- the new object has the next number
      cases found
      exact .inr fun old => Nat.lt_irrefl _ (Recording.hasObject_iff.1 (old.mono before.grows))
    · exact ih g id found
  | stray _ v ih => exact ih
  | altered _ id keeps ih => exact ih
  | linked _ same ih => exact ih

/-- Noting values, and then a change that concerns no handles. -/
theorem Notes.namesNew_of_known (notes : s.Notes t) {r : Recording}
    (same : r.known = t.recording.known) : s.recording.NamesNew r :=
  notes.namesNew.trans notes.grows (Recording.namesNew_of_known same)

/-- A value whose handle stands for nothing becomes a new object. -/
theorem not_hasObject_serialize (sound : s.recording.Sound) {v : Value}
    (unknown : s.recording.lookup v.handle = none) : ¬s.recording.HasObject (s.serialize v).2 :=
  (serialize_notes v sound).1.namesNew.not_hasObject unknown (lookup_serialize s v)

theorem Opens.namesNew {caller : Option CallId} {id : CallId} (opens : s.Opens caller id t) :
    s.recording.NamesNew t.recording := by
  obtain ⟨-, before, kind, definition, input, notes, -, after⟩ := opens
  exact (notes.namesNew_of_known (Recording.known_pushCall ..)).trans
    (notes.grows.trans (Recording.grows_pushCall ..)) after.namesNew

end Session

/-! ## Arguments of new generators -/

namespace Recording

variable {r s t : Recording}

/-- Every generator that is made in the second recording was made in the first one. -/
def MakesNone (r s : Recording) : Prop :=
  ∀ x o activation, s.object? x = some o → o.kind.activation? = some activation →
    ∃ o', r.object? x = some o' ∧ o'.kind.activation? = some activation

theorem MakesNone.trans (first : r.MakesNone s) (second : s.MakesNone t) : r.MakesNone t := by
  intro x o activation found made
  obtain ⟨o', there, made'⟩ := second x o activation found made
  exact first x o' activation there made'

theorem makesNone_of_objects (same : s.objects = r.objects) : r.MakesNone s := by
  intro x o activation found made
  rw [object?, same] at found
  exact ⟨o, found, made⟩

theorem makesNone_modifyKind (r : Recording) (id : ObjectId) {f : ObjectKind → ObjectKind}
    (keeps : ∀ kind, (f kind).activation? = kind.activation?) : r.MakesNone (r.modifyKind id f) := by
  intro x o activation found made
  rw [object?_modifyKind] at found
  split at found
  · rename_i same
    obtain ⟨o', there, rfl⟩ := Option.map_eq_some_iff.1 found
    exact ⟨o', same ▸ there, (keeps o'.kind).symm.trans made⟩
  · exact ⟨o, found, made⟩

end Recording

namespace ObjectKind

theorem activation?_addCall (id : CallId) (isConstructor : Bool) (kind : ObjectKind) :
    (kind.addCall id isConstructor).activation? = kind.activation? := by
  cases kind <;> rfl

theorem activation?_addGenerator (id : ObjectId) (kind : ObjectKind) :
    (kind.addGenerator id).activation? = kind.activation? := by
  cases kind <;> rfl

theorem activation?_addResumption (id : CallId) (kind : ObjectKind) :
    (kind.addResumption id).activation? = kind.activation? := by
  cases kind <;> rfl

theorem activation?_activate {activation activation' : Activation} {kind : ObjectKind}
    (made : (kind.activate activation).activation? = some activation') : activation' = activation := by
  cases kind with
  | generator => exact (Option.some.inj made).symm
  | _ => cases made

end ObjectKind

namespace Session

open Recording (MakesNone makesNone_of_objects makesNone_modifyKind)

variable {s t u : Session} {args : NamedValues}

/-- Objects that are taken in are no generators that were made. -/
theorem Takes.makesNone {around : List Handle} (h : s.Takes around t) :
    s.recording.MakesNone t.recording := by
  intro x o activation found made
  cases old : s.recording.object? x with
  | none =>
    have unused := h.isUnused old found
    cases kind : o.kind with
    | generator activation' calls =>
      rw [kind] at unused made
      rw [unused.1] at made
      cases made
    | _ =>
      rw [kind] at made
      cases made
  | some o' =>
    cases (h.object? old).symm.trans found
    exact ⟨o, rfl, made⟩

/-- Every generator that was made in between was made with the arguments. -/
def MakesWith (s : Session) (args : NamedValues) (t : Session) : Prop :=
  ∀ x o activation, t.recording.object? x = some o → o.kind.activation? = some activation →
    (∃ o', s.recording.object? x = some o' ∧ o'.kind.activation? = some activation) ∨
      ∃ entries, activation.args = .ofList entries ∧ List.Forall₂ t.recording.Knows args entries

theorem makesWith_of_makesNone (none : s.recording.MakesNone t.recording) : s.MakesWith args t :=
  fun x o activation found made => .inl (none x o activation found made)

theorem MakesWith.after (none : s.recording.MakesNone t.recording) (h : t.MakesWith args u) :
    s.MakesWith args u := by
  intro x o activation found made
  rcases h x o activation found made with ⟨o', there, made'⟩ | given
  · exact .inl (none x o' activation there made')
  · exact .inr given

/-- A change of the recording that makes no generator and concerns no handles. -/
theorem MakesWith.before (h : s.MakesWith args t) (none : t.recording.MakesNone u.recording)
    (same : u.recording.known = t.recording.known) : s.MakesWith args u := by
  intro x o activation found made
  obtain ⟨o', there, made'⟩ := none x o activation found made
  rcases h x o' activation there made' with old | ⟨entries, input, known⟩
  · exact .inl old
  · refine .inr ⟨entries, input, known.imp fun _ _ ⟨name, there⟩ => ⟨name, ?_⟩⟩
    rw [Recording.lookup, same]
    exact there

theorem makesWith_activate (s : Session) (generator : ObjectId) (definition : Definition)
    (args : NamedValues) (receiver : Option Value) :
    s.MakesWith args (s.activate generator definition args receiver).1 := by
  have first := (makerOf_takes s definition receiver).makesNone
  unfold activate
  split
  · rename_i eq
    rw [eq] at first
    exact makesWith_of_makesNone first
  · rename_i t maker eq
    rw [eq] at first
    obtain ⟨entries, input, known⟩ := knows_serializeArguments t args
    have taken := (serializeArguments_takes t args).makesNone
    have made : s.MakesWith args ((t.serializeArguments args).1.record fun r =>
        r.modifyKind generator (·.activate ⟨definition, (t.serializeArguments args).2, maker⟩)) := by
      refine MakesWith.after first fun x o activation found made => ?_
      rw [record, Recording.object?_modifyKind] at found
      split at found
      · obtain ⟨o', -, rfl⟩ := Option.map_eq_some_iff.1 found
        obtain rfl := ObjectKind.activation?_activate made
        exact .inr ⟨entries, input, known⟩
      · exact .inl (taken x o activation found made)
    dsimp only
    split
    · exact made.before (makesNone_of_objects rfl) rfl
    · exact made.before (makesNone_modifyKind _ _ (ObjectKind.activation?_addGenerator _)) rfl

theorem makesWith_resume (s : Session) (generator : Value) (definition : Definition)
    (args : NamedValues) (receiver : Option Value) (caller : Option CallId) :
    s.MakesWith args (s.resume generator definition args receiver caller).1 := by
  have first := (serialize_takes s generator).makesNone
  have resumed {t : Session} (h : s.MakesWith args t) (x : ObjectId) (id : CallId) :
      s.MakesWith args ((⟨t.project, (t.recording.pushCall (.resumption x) definition .empty
        caller).1⟩ : Session).record fun r => r.modifyKind x (·.addResumption id)) := by
    have pushed : s.MakesWith args
        ⟨t.project, (t.recording.pushCall (.resumption x) definition .empty caller).1⟩ :=
      h.before (makesNone_of_objects (Recording.objects_pushCall ..)) (Recording.known_pushCall ..)
    exact pushed.before (makesNone_modifyKind _ _ (ObjectKind.activation?_addResumption _)) rfl
  unfold resume
  dsimp only
  split
  · rename_i activation calls kind
    cases activation with
    | some activation => exact resumed (makesWith_of_makesNone first) _ _
    | none =>
      have made := MakesWith.after first
        (makesWith_activate (s.serialize generator).1 (s.serialize generator).2 definition args receiver)
      dsimp only
      split
      · exact made
      · exact resumed made _ _
  · exact makesWith_of_makesNone first

/-- A call makes no generator. -/
theorem makesNone_callMethod (s : Session) (method : MethodId) (receiver : Value)
    (args : NamedValues) (caller : Option CallId) :
    s.recording.MakesNone (s.callMethod method receiver args caller).1.recording := by
  have first := serialize_takes s receiver
  unfold callMethod
  dsimp only
  split
  · exact first.makesNone
  · split
    · have called := (first.trans (serializeArguments_takes _ args)).makesNone.trans <|
        makesNone_of_objects (Recording.objects_pushCall _ (.method (s.serialize receiver).2)
          (.method method) ((s.serialize receiver).1.serializeArguments args).2 caller)
      split
      · exact called
      · exact called.trans (makesNone_modifyKind _ _ (ObjectKind.activation?_addCall _ _))
    · exact first.makesNone

end Session

end Reenact
