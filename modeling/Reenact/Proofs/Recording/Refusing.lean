import Reenact.Proofs.Recording.Linking
import Reenact.Proofs.Recording.Reachable

/-!
# Operations that are refused

An operation on a call checks that the call is there before it does anything. To record a call on an
instance, or one of a generator, the value has to be looked at first, and only values that were recorded
can be looked at: the fault names the object that was found wanting, so that object stays.

What an operation looks at before it is refused is `Operation.looksAt`. Arguments and calls are never
among it.

**The law** (`perform_of_refuses`): an operation that is refused records the values it looked at and does
nothing else. So it changes nothing exactly when they had been recorded already.
-/

namespace Reenact

/-- What an operation looks at before it is refused with that fault, in order. -/
def Operation.looksAt (fault : Fault) : Operation → List Value
  | callMethod _ receiver _ _ => [receiver]
  | resume generator _ _ receiver _ =>
    match fault with
    | .notAnInstance _ => generator :: receiver.toList
    | _ => [generator]
  | _ => []

namespace Session

variable {around : List Handle} {s t : Session} {op : Operation} {fault : Fault} {v : Value}
  {values : List Value}

/-- The operation is refused with that fault. -/
inductive Refuses (s : Session) : Operation → Fault → Prop
  | callMethod {method : MethodId} {receiver : Value} {args : NamedValues} {caller : Option CallId}
      {fault : Fault} (answer : (s.callMethod method receiver args caller).2 = .error fault) :
      Refuses s (.callMethod method receiver args caller) fault
  | resume {generator : Value} {definition : Definition} {args : NamedValues}
      {receiver : Option Value} {caller : Option CallId} {fault : Fault}
      (answer : (s.resume generator definition args receiver caller).2 = .error fault) :
      Refuses s (.resume generator definition args receiver caller) fault
  | setOutcome {id : CallId} {outcome : Outcome} {fault : Fault}
      (answer : s.recording.setOutcome id outcome = .error fault) :
      Refuses s (.setOutcome id outcome) fault
  | clearOutcome {id : CallId} {fault : Fault} (answer : s.recording.clearOutcome id = .error fault) :
      Refuses s (.clearOutcome id) fault
  | complete {id : CallId} {fault : Fault} (answer : s.recording.complete id = .error fault) :
      Refuses s (.complete id) fault
  | detach {id : CallId} {fault : Fault} (answer : s.recording.detach id = .error fault) :
      Refuses s (.detach id) fault

/-- Nothing that a recording or its project keeps is different. -/
structure Unchanged (s t : Session) : Prop where
  objects : t.recording.objects = s.recording.objects
  known : t.recording.known = s.recording.known
  calls : SameCalls s.recording t.recording
  lastMoment : t.recording.lastMoment = s.recording.lastMoment
  project : t.project = s.project

/-! ## Recording values that may have been recorded -/

theorem serialize_of_lookup {id : ObjectId} (found : s.recording.lookup v.handle = some id) :
    s.serialize v = (s, id) := by
  rw [serialize, serializeWithin_eq, found]

/-- Recording a value that was not recorded adds objects. -/
theorem size_lt_serialize (free : s.recording.lookup v.handle = none) :
    s.recording.objects.size < (s.serialize v).1.recording.objects.size := by
  have parts : s.Takes [v.handle]
      (thread (serializeWithin [v.handle]) s (s.project.outline v).parts).1 :=
    thread_takes (fun w _ s => serializeWithin_takes [v.handle] s w) s
  rw [serialize, serializeWithin_eq, free]
  simp only [List.not_mem_nil, if_false, size_objects_pushKnown]
  exact Nat.lt_succ_of_le parts.size_le

/-- Recording values changes nothing exactly when each of them had an object. -/
theorem serializeAll_eq_self_iff :
    (s.serializeAll values).1 = s ↔ ∀ v ∈ values, ∃ id, s.recording.lookup v.handle = some id := by
  induction values with
  | nil => exact iff_of_true rfl nofun
  | cons v rest ih =>
    rw [List.forall_mem_cons, ← ih, serializeAll, thread_cons]
    cases known : s.recording.lookup v.handle with
    | some id =>
      rw [serialize_of_lookup known]
      exact (and_iff_right ⟨id, rfl⟩).symm
    | none =>
      refine iff_of_false (fun same => ?_) (by rintro ⟨⟨_, ⟨⟩⟩, -⟩)
      -- the objects of the first value are still there at the end
      have grows := (serializeAll_takes (s.serialize v).1 rest).size_le
      rw [serializeAll, same] at grows
      exact absurd (size_lt_serialize known) (Nat.not_lt.2 grows)

/-! ## What recording values links -/

/-- The link leads from a class to an instance that had not been recorded. -/
def IsToNewInstance (s : Session) (place : Place) (l : Link) : Prop :=
  ∃ cls id, place = .class cls ∧ l = ⟨s.recording.id, .userObject id⟩ ∧ ¬s.recording.HasObject id

/-- What leads from a place is what did so before, and then links to new instances. -/
def LinksInstances (s t : Session) (place : Place) : Prop :=
  ∃ added, t.project.linksAt place = s.project.linksAt place ++ added ∧
    ∀ l ∈ added, s.IsToNewInstance place l

theorem linksInstances_refl (s : Session) (place : Place) : s.LinksInstances s place :=
  ⟨[], (List.append_nil _).symm, nofun⟩

theorem Takes.id (h : s.Takes around t) : t.recording.id = s.recording.id := by
  induction h with
  | refl => rfl
  | stray _ v ih => exact ih
  | @known t _ v kind _ _ _ ih =>
    rcases pushKnown_recording t v kind with eq | eq <;> rw [eq] <;> exact ih

/-- A new object is linked from its class if it is an instance. -/
theorem linksAt_pushKnown (s : Session) (v : Value) (kind : ObjectKind) (place : Place) :
    s.LinksInstances (s.pushKnown v kind).1 place := by
  have new : ¬s.recording.HasObject ⟨s.recording.objects.size⟩ :=
    fun there => Nat.lt_irrefl _ (Recording.hasObject_iff.1 there)
  cases kind with
  | user cls initCall uses =>
    by_cases there : s.project.HasPlace (.class cls)
    · refine ⟨_, Project.linksAt_link there _ place, fun l mem => ?_⟩
      split at mem
      · rename_i same
        exact ⟨cls, _, same, List.mem_singleton.1 mem, new⟩
      · cases mem
    · have stays : (s.pushKnown v (.user cls initCall uses)).1.project = s.project :=
        Project.link_of_not_hasPlace there _
      rw [LinksInstances, stays]
      exact linksInstances_refl s place
  | _ => exact linksInstances_refl s place

theorem Takes.linksInstances (h : s.Takes around t) (place : Place) : s.LinksInstances t place := by
  induction h with
  | refl => exact linksInstances_refl s place
  | stray _ v ih => exact ih
  | @known t before v kind _ _ _ ih =>
    obtain ⟨old, eq, instances⟩ := ih
    obtain ⟨added, eq', instances'⟩ := linksAt_pushKnown t v kind place
    refine ⟨old ++ added, by rw [eq', eq, List.append_assoc], fun l mem => ?_⟩
    rcases List.mem_append.1 mem with mem | mem
    · exact instances l mem
    · obtain ⟨cls, id, rfl, rfl, new⟩ := instances' l mem
      refine ⟨cls, id, rfl, by rw [before.id], fun ⟨o, found⟩ => new ⟨o, before.object? found⟩⟩

/-! ## Recording values and nothing else -/

/-- The second session came from the first by recording these values. -/
structure RecordsOnly (s : Session) (values : List Value) (t : Session) : Prop where
  records : t = (s.serializeAll values).1
  /-- Calls, side effects and their lists are the same. -/
  calls : SameCalls s.recording t.recording
  /-- What was recorded is as it was. -/
  objects : ∀ id o, s.recording.object? id = some o → t.recording.object? id = some o
  lookups : ∀ h id, s.recording.lookup h = some id → t.recording.lookup h = some id
  unlinked : t.project.unlinked = s.project.unlinked
  links : ∀ place, s.LinksInstances t place
  /-- Nothing is different exactly when the values had been recorded already. -/
  same : t = s ↔ ∀ v ∈ values, ∃ id, s.recording.lookup v.handle = some id

theorem recordsOnly_serializeAll (s : Session) (values : List Value) :
    s.RecordsOnly values (s.serializeAll values).1 :=
  have taken := serializeAll_takes s values
  { records := rfl
    calls := taken.sameCalls
    objects := fun _ _ => taken.object?
    lookups := fun _ _ => taken.lookup
    unlinked := taken.unlinked
    links := taken.linksInstances
    same := serializeAll_eq_self_iff }

/-! ## What each operation leaves -/

/-- A method is missing because an identifier stands for nothing. -/
theorem dangling_of_method? {p : Project} {id : MethodId} (missing : p.method? id = .error fault) :
    ∃ reference, fault = .dangling reference := by
  unfold Project.method? Project.class? at missing
  split at missing
  · simp only [bind, Except.bind] at missing
    split at missing
    · cases missing
    · exact ⟨_, (Except.error.inj missing).symm⟩
  · exact ⟨_, (Except.error.inj missing).symm⟩

/-- A call of a method that is refused leaves its receiver. -/
theorem callMethod_of_error {method : MethodId} {receiver : Value} {args : NamedValues}
    {caller : Option CallId} (returned : ∀ reference, fault ≠ .dangling reference)
    (answer : (s.callMethod method receiver args caller).2 = .error fault) :
    (s.callMethod method receiver args caller).1 = (s.serialize receiver).1 ∧
      ∀ id, fault = .notAnInstance id → (s.serialize receiver).1.recording.HasObject id := by
  unfold callMethod at answer ⊢
  dsimp only at answer ⊢
  split at answer
  · exact absurd (Except.error.inj answer).symm (returned _)
  · rename_i o found
    split at answer
    · split at answer
      · rename_i missing
        obtain ⟨reference, eq⟩ := dangling_of_method? missing
        exact absurd ((Except.error.inj answer).symm.trans eq) (returned reference)
      · cases answer
    · rename_i other
      cases answer
      rw [if_neg other]
      refine ⟨rfl, ?_⟩
      rintro _ ⟨⟩
      exact ⟨o, found⟩

/-- No maker is told because the receiver is no instance, or because there is none. -/
theorem makerOf_of_error {definition : Definition} {receiver : Option Value}
    (returned : ∀ reference, fault ≠ .dangling reference)
    (answer : (s.makerOf definition receiver).2 = .error fault) :
    (∃ v id, receiver = some v ∧ fault = .notAnInstance id ∧
        (s.makerOf definition receiver).1 = (s.serialize v).1 ∧
        (s.serialize v).1.recording.HasObject id) ∨
      ∃ text, fault = .invalidOperation text ∧ (s.makerOf definition receiver).1 = s := by
  unfold makerOf at answer ⊢
  split at answer
  · cases answer
  · rename_i v
    dsimp only at answer ⊢
    split at answer
    · exact absurd (Except.error.inj answer).symm (returned _)
    · rename_i o found
      split at answer
      · cases answer
      · rename_i other
        cases answer
        rw [if_neg other]
        exact .inl ⟨v, _, rfl, rfl, rfl, o, found⟩
  · cases answer
    exact .inr ⟨_, rfl, rfl⟩

/-- How a generator was made cannot be told only when its maker cannot. -/
theorem activate_of_error {generator : ObjectId} {definition : Definition} {args : NamedValues}
    {receiver : Option Value}
    (answer : (s.activate generator definition args receiver).2 = .error fault) :
    (s.makerOf definition receiver).2 = .error fault ∧
      (s.activate generator definition args receiver).1 = (s.makerOf definition receiver).1 := by
  unfold activate at answer ⊢
  split at answer
  · rename_i t fault' refused
    cases answer
    rw [refused]
    exact ⟨rfl, rfl⟩
  · dsimp only at answer
    split at answer <;> cases answer

/-- A resumption that is refused leaves the generator, and the receiver if that is no instance. -/
theorem resume_of_error {generator : Value} {definition : Definition} {args : NamedValues}
    {receiver : Option Value} {caller : Option CallId}
    (returned : ∀ reference, fault ≠ .dangling reference)
    (answer : (s.resume generator definition args receiver caller).2 = .error fault) :
    (s.resume generator definition args receiver caller).1 =
        (s.serializeAll ((Operation.resume generator definition args receiver caller).looksAt fault)).1 ∧
      ∀ id, fault = .notAnInstance id →
        (s.serializeAll ((Operation.resume generator definition args receiver caller).looksAt
          fault)).1.recording.HasObject id := by
  unfold resume at answer ⊢
  dsimp only at answer ⊢
  split at answer
  · rename_i activation calls eq
    cases activation with
    | some activation => cases answer
    | none =>
      dsimp only at answer ⊢
      split at answer
      · rename_i fault' refused
        cases answer
        obtain ⟨unmade, left⟩ := activate_of_error refused
        dsimp only
        rw [left]
        rcases makerOf_of_error returned unmade with
          ⟨v, id, rfl, rfl, recorded, there⟩ | ⟨text, rfl, kept⟩
        · rw [recorded]
          refine ⟨rfl, ?_⟩
          rintro _ ⟨⟩
          exact there
        · rw [kept]
          exact ⟨rfl, nofun⟩
      · cases answer
  · cases answer
    exact ⟨rfl, nofun⟩

/-- A change of a call is refused only when the call is not there. -/
theorem unknownCall_of_error {r : Recording} {id : CallId} {change : Call → Except Fault Recording}
    (done : ∀ c, ∃ t, change c = .ok t) (answer : r.findCall id >>= change = .error fault) :
    fault = .unknownCall id := by
  unfold Recording.findCall at answer
  split at answer
  · rename_i c found
    obtain ⟨t, eq⟩ := done c
    cases eq.symm.trans answer
  · exact (Except.error.inj answer).symm

/-- A change of a call that is refused leaves nothing. -/
theorem attempt_of_error (step : Recording → Except Fault Recording) {id : CallId}
    (unknown : fault = .unknownCall id) (answer : step s.recording = .error fault) :
    Recorder.attempt s step = s ∧ ∀ id, fault = .notAnInstance id → s.recording.HasObject id := by
  rw [Recorder.attempt, answer, unknown]
  exact ⟨rfl, nofun⟩

/-! A method called on a number, which is no instance. -/

namespace OnNumber

/-- A class with one method. -/
def project : Project where
  root := "/p"
  functions := #[]
  classes := #[⟨"Box", "m", [⟨"get", ["self"], false⟩], [], []⟩]

def number : Value := .literal ⟨.observed 1, "int", "builtins", []⟩ (.int 3)

def get : Operation := .callMethod ⟨⟨0⟩, 0⟩ number [] none

theorem refuses : (start project ⟨0⟩).Refuses get (.notAnInstance ⟨0⟩) :=
  .callMethod (by decide +kernel)

end OnNumber

/-- An operation that is refused records what it looked at and does nothing else, and the object that
the fault names is recorded. An identifier that had to be valid and is not stops the program, so no
operation is refused with that. -/
theorem perform_of_refuses (refused : s.Refuses op fault)
    (returned : ∀ reference, fault ≠ .dangling reference) :
    s.RecordsOnly (op.looksAt fault) (s.perform op) ∧
      ∀ id, fault = .notAnInstance id → (s.perform op).recording.HasObject id := by
  have all : s.perform op = (s.serializeAll (op.looksAt fault)).1 ∧
      ∀ id, fault = .notAnInstance id →
        (s.serializeAll (op.looksAt fault)).1.recording.HasObject id := by
    cases refused with
    | callMethod answer => exact callMethod_of_error returned answer
    | resume answer => exact resume_of_error returned answer
    | @setOutcome id outcome _ answer =>
      exact attempt_of_error (·.setOutcome id outcome)
        (unknownCall_of_error (fun _ => ⟨_, rfl⟩) answer) answer
    | @clearOutcome id _ answer =>
      exact attempt_of_error (·.clearOutcome id)
        (unknownCall_of_error (fun _ => ⟨_, rfl⟩) answer) answer
    | @complete id _ answer =>
      exact attempt_of_error (·.complete id)
        (unknownCall_of_error (fun _ => ⟨_, rfl⟩) answer) answer
    | @detach id _ answer =>
      refine attempt_of_error (·.detach id) (unknownCall_of_error (fun c => ?_) answer) answer
      cases c.caller with
      | none => exact ⟨_, rfl⟩
      | some => exact ⟨_, rfl⟩
  rw [all.1]
  exact ⟨recordsOnly_serializeAll s _, all.2⟩

theorem perform_of_refuses_onNumber :
    (start OnNumber.project ⟨0⟩).Refuses OnNumber.get (.notAnInstance ⟨0⟩) ∧
      (∀ reference, Fault.notAnInstance ⟨0⟩ ≠ .dangling reference) ∧
      (start OnNumber.project ⟨0⟩).RecordsOnly [OnNumber.number]
        ((start OnNumber.project ⟨0⟩).perform OnNumber.get) ∧
      ((start OnNumber.project ⟨0⟩).perform OnNumber.get).recording.HasObject ⟨0⟩ := by
  obtain ⟨records, there⟩ := perform_of_refuses OnNumber.refuses nofun
  exact ⟨OnNumber.refuses, nofun, records, there ⟨0⟩ rfl⟩

/-- An operation that is refused may change the recording. -/
theorem not_unchanged_of_refuses : ¬∀ (s : Session) (op : Operation) (fault : Fault),
    s.recording.IsReachable → s.Refuses op fault → (∀ reference, fault ≠ .dangling reference) →
      s.Unchanged (s.perform op) := by
  intro unchanged
  have same := (unchanged _ _ _ (.start ⟨0⟩) OnNumber.refuses nofun).objects
  have size : ((start OnNumber.project ⟨0⟩).perform OnNumber.get).recording.objects.size = 1 := by
    decide +kernel
  rw [same] at size
  cases size

/-- Only the number is there. -/
example : ((start OnNumber.project ⟨0⟩).perform OnNumber.get).recording.objects.map Object.kind =
    #[.immutable "3" .empty] := by
  decide +kernel

end Session

end Reenact
