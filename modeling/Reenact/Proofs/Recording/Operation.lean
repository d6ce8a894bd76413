import Mathlib.Logic.Relation
import Reenact.Proofs.Refusal
import Reenact.Proofs.Recording.Taking
import Reenact.Trace.Recorder

/-!
# Operations of a session

Everything that can be done to a session, in any order and with any values: nothing here asks for the
order in which a running program does it, nor for a sound recording. An operation that is refused
leaves behind what it had recorded until then.

Each operation comes down to a few changes, each of which takes values in, links the project, touches
of calls only how they went, adds a call, or keeps the books of an instance or of a generator
(`Operation.Does`).

**The law** (`perform_does`): an operation that does not end or erase the recording makes any number of
these changes and nothing else.
-/

namespace Reenact

/-- Something that can be done to a session. -/
inductive Operation where
  | serialize (value : Value)
  | callFunction (function : FunctionId) (args : NamedValues) (caller : Option CallId)
  | callMethod (method : MethodId) (receiver : Value) (args : NamedValues) (caller : Option CallId)
  /-- Resumes a generator. -/
  | resume (generator : Value) (definition : Definition) (args : NamedValues)
      (receiver : Option Value) (caller : Option CallId)
  | setOutcome (id : CallId) (outcome : Outcome)
  | clearOutcome (id : CallId)
  | complete (id : CallId)
  /-- Takes a call out of the call graph. -/
  | detach (id : CallId)
  | addEffect (change : Change) (owner : Option CallId)
  /-- Ends the recording. -/
  | finish (isExhausted : Value → Bool)
  /-- Takes everything back. -/
  | erase

namespace Operation

/-- Whether the operation leaves it open which object a handle stands for: neither the end of a
recording nor its erasure does. -/
def keepsHandles : Operation → Bool
  | finish _ | erase => false
  | _ => true

/-- Whether the operation leaves the objects of the recording in place. -/
def keepsObjects : Operation → Bool
  | erase => false
  | _ => true

/-- What the operation calls or resumes is defined by the project. -/
def IsDefinedIn (p : Project) : Operation → Prop
  | callFunction function _ _ | resume _ (.function function) _ _ _ =>
    ∃ f, p.function? function = .ok f
  | callMethod method _ _ _ | resume _ (.method method) _ _ _ => ∃ m, p.method? method = .ok m
  | _ => True

/-- Links do not matter to what a project defines. -/
theorem IsDefinedIn.congr {p q : Project} (same : p.unlinked = q.unlinked) {op : Operation}
    (h : op.IsDefinedIn p) : op.IsDefinedIn q := by
  have method {id : MethodId} (h : ∃ m, p.method? id = .ok m) : ∃ m, q.method? id = .ok m := by
    rwa [Project.method?_congr same] at h
  cases op with
  | callFunction => exact Project.exists_function?_congr same h
  | callMethod => exact method h
  | resume generator definition =>
    cases definition with
    | function => exact Project.exists_function?_congr same h
    | method => exact method h
  | _ => trivial

end Operation

namespace Session

/-- The session after an operation. -/
def perform (s : Session) : Operation → Session
  | .serialize v => (s.serialize v).1
  | .callFunction function args caller => (s.callFunction function args caller).1
  | .callMethod method receiver args caller => (s.callMethod method receiver args caller).1
  | .resume generator definition args receiver caller =>
    (s.resume generator definition args receiver caller).1
  | .setOutcome id outcome => Recorder.attempt s fun r => r.setOutcome id outcome
  | .clearOutcome id => Recorder.attempt s fun r => r.clearOutcome id
  | .complete id => Recorder.attempt s fun r => r.complete id
  | .detach id => Recorder.attempt s fun r => r.detach id
  | .addEffect change owner => (s.addEffect change owner).1
  | .finish isExhausted => s.finish isExhausted
  | .erase => s.erase

/-- The session after operations in order. -/
def performAll (s : Session) (ops : List Operation) : Session := ops.foldl perform s

/-- What every operation keeps, all of them keep. -/
theorem performAll_induction {P : Session → Prop} {s : Session} {ops : List Operation} (start : P s)
    (step : ∀ op ∈ ops, ∀ t, P t → P (t.perform op)) : P (s.performAll ops) := by
  induction ops generalizing s with
  | nil => exact start
  | cons op rest ih =>
    exact ih (step op List.mem_cons_self s start)
      fun later mem => step later (List.mem_cons_of_mem _ mem)

end Session

/-- What a call was when it started. -/
def Call.opening (c : Call) : Call :=
  { c with outcome := none, effects := [], subcalls := [], completedAt := none }

namespace Recording

variable {r s : Recording}

/-- The second recording came from the first by changes of how calls went. Objects are the same, and
so are the calls as far as they were there when they started. -/
structure SameHeads (r s : Recording) : Prop where
  objects : s.objects = r.objects
  known : s.known = r.known
  generators : s.generators = r.generators
  captured : s.captured = r.captured
  openings : ∀ id, (s.call? id).map Call.opening = (r.call? id).map Call.opening
  effects : ∀ {id e}, r.effect? id = some e → s.effect? id = some e
  /-- A side effect that was not there carries its own number. -/
  numbered : ∀ {id e}, s.effect? id = some e → r.effect? id = some e ∨ e.id = id

/-- What calls were when they started tells what they call. -/
theorem SameHeads.kinds (h : r.SameHeads s) (id : CallId) :
    (s.call? id).map Call.kind = (r.call? id).map Call.kind := by
  have same := congrArg (Option.map Call.kind) (h.openings id)
  simp only [Option.map_map] at same
  exact same

theorem SameHeads.definitions (h : r.SameHeads s) (id : CallId) :
    (s.call? id).map Call.definition = (r.call? id).map Call.definition := by
  have same := congrArg (Option.map Call.definition) (h.openings id)
  simp only [Option.map_map] at same
  exact same

theorem SameHeads.trans {t : Recording} (first : r.SameHeads s) (second : s.SameHeads t) :
    r.SameHeads t where
  objects := second.objects.trans first.objects
  known := second.known.trans first.known
  generators := second.generators.trans first.generators
  captured := second.captured.trans first.captured
  openings id := (second.openings id).trans (first.openings id)
  effects found := second.effects (first.effects found)
  numbered found := (second.numbered found).elim first.numbered .inr

theorem sameHeads_tick (r : Recording) : r.SameHeads r.tick :=
  ⟨rfl, rfl, rfl, rfl, fun _ => rfl, fun found => found, fun found => .inl found⟩

/-- A change of a call that keeps what it was when it started. -/
theorem sameHeads_modifyCall (r : Recording) (id : CallId) {f : Call → Call}
    (opening : ∀ c, (f c).opening = c.opening) : r.SameHeads (r.modifyCall id f) where
  objects := rfl
  known := rfl
  generators := rfl
  captured := rfl
  openings other := by
    rw [call?_modifyCall]
    split
    · rename_i same
      rw [same, Option.map_map]
      exact congrArg (Option.map · _) (funext opening)
    · rfl
  effects found := found
  numbered found := .inl found

theorem sameHeads_setOutcome {id : CallId} {outcome : Outcome} (h : r.setOutcome id outcome = .ok s) :
    r.SameHeads s := by
  obtain ⟨c, -, h⟩ := bind_eq_ok.1 h
  rw [← pure_eq_ok.1 h]
  exact sameHeads_modifyCall r id fun _ => rfl

theorem sameHeads_clearOutcome {id : CallId} (h : r.clearOutcome id = .ok s) : r.SameHeads s := by
  obtain ⟨c, -, h⟩ := bind_eq_ok.1 h
  rw [← pure_eq_ok.1 h]
  exact sameHeads_modifyCall r id fun _ => rfl

theorem sameHeads_complete {id : CallId} (h : r.complete id = .ok s) : r.SameHeads s := by
  obtain ⟨c, -, h⟩ := bind_eq_ok.1 h
  rw [← pure_eq_ok.1 h]
  exact (sameHeads_tick r).trans (sameHeads_modifyCall _ id fun _ => rfl)

theorem sameHeads_detach {id : CallId} (h : r.detach id = .ok s) : r.SameHeads s := by
  obtain ⟨c, -, h⟩ := bind_eq_ok.1 h
  split at h
  · rw [← pure_eq_ok.1 h]
    exact sameHeads_modifyCall r _ fun _ => rfl
  · rw [← pure_eq_ok.1 h]
    exact ⟨rfl, rfl, rfl, rfl, fun _ => rfl, fun found => found, fun found => .inl found⟩

theorem sameHeads_pushEffect (r : Recording) (change : Change) (owner : Option CallId) :
    r.SameHeads (r.pushEffect change owner).1 where
  objects := objects_pushEffect ..
  known := known_pushEffect ..
  generators := generators_pushEffect ..
  captured := captured_pushEffect ..
  openings id := by
    rw [call?_pushEffect]
    cases r.call? id with
    | none => rfl
    | some c =>
      simp only [Option.map_some]
      split <;> rfl
  effects {id e} found := by
    have lt := hasEffect_iff.1 (.of_effect? found)
    rw [effect?_pushEffect, if_neg (Nat.ne_of_lt lt), found]
  numbered {id e} found := by
    rw [effect?_pushEffect] at found
    split at found
    · rename_i last
      cases found
      exact .inr (congrArg EffectId.mk last.symm)
    · exact .inl found

/-- A generator that was not made yet is made. -/
theorem object?_activate {generator : ObjectId} {o : Object} {calls : List CallId}
    (found : r.object? generator = some o) (unmade : o.kind = .generator none calls)
    (activation : Activation) (id : ObjectId) :
    (r.modifyKind generator (·.activate activation)).object? id =
      if id = generator then some { o with kind := .generator (some activation) calls }
      else r.object? id := by
  rw [object?_modifyKind, found, Option.map_some, unmade]
  rfl

end Recording

/-- One of the changes that an operation is made of. -/
inductive Operation.Does (op : Operation) (s : Session) : Session → Prop
  | takes {t : Session} (taken : s.Takes [] t) : Does op s t
  | links {p : Project} (same : p.unlinked = s.project.unlinked) : Does op s { s with project := p }
  /-- How calls went is changed. -/
  | amends {r : Recording} (same : s.recording.SameHeads r) : Does op s { s with recording := r }
  /-- A call is added that no object knows of: one of a function, or of a method that the project
  lacks. -/
  | calls (kind : CallKind) (definition : Definition) (input : Arguments) (caller : Option CallId)
      (alone : op.IsDefinedIn s.project → kind = .function) :
      Does op s (s.record fun r => (r.pushCall kind definition input caller).1)
  /-- A call of a method is added, and the instance learns of it. -/
  | callsMethod {receiver : ObjectId} {o : Object} {method : MethodId} {m : Method}
      (found : s.recording.object? receiver = some o) (isUser : o.kind.isUser)
      (defined : s.project.method? method = .ok m) (input : Arguments) (caller : Option CallId) :
      Does op s (s.record fun r =>
        (r.pushCall (.method receiver) (.method method) input caller).1.modifyKind receiver
          (·.addCall ⟨r.calls.size⟩ m.isConstructor))
  /-- A generator is made by a function. -/
  | activates {generator : ObjectId} {o : Object} {calls : List CallId}
      (found : s.recording.object? generator = some o) (unmade : o.kind = .generator none calls)
      (definition : Definition) (input : Arguments) (function : FunctionId) :
      Does op s (s.record fun r =>
        r.modifyKind generator (·.activate ⟨definition, input, .function function⟩))
  /-- A generator is made by an instance, which learns of it. -/
  | activatesOn {generator owner : ObjectId} {o p : Object} {calls : List CallId}
      (found : s.recording.object? generator = some o) (unmade : o.kind = .generator none calls)
      (there : s.recording.object? owner = some p) (isUser : p.kind.isUser) (definition : Definition)
      (input : Arguments) :
      Does op s (s.record fun r =>
        (r.modifyKind generator (·.activate ⟨definition, input, .userObject owner⟩)).modifyKind owner
          (·.addGenerator generator))
  /-- A resumption is added, and the generator learns of it. -/
  | resumes {generator : ObjectId} {o : Object} {activation : Activation} {calls : List CallId}
      (found : s.recording.object? generator = some o)
      (made : o.kind = .generator (some activation) calls) (definition : Definition)
      (caller : Option CallId) :
      Does op s (s.record fun r =>
        (r.pushCall (.resumption generator) definition .empty caller).1.modifyKind generator
          (·.addResumption ⟨r.calls.size⟩))

namespace Session

open Operation (Does)

variable {op : Operation}

/-- Any number of changes. -/
abbrev DoesAll (op : Operation) : Session → Session → Prop := Relation.ReflTransGen (Does op)

theorem attempt_does {s : Session} (step : Recording → Except Fault Recording)
    (amends : ∀ r, step s.recording = .ok r → s.recording.SameHeads r) :
    DoesAll op s (Recorder.attempt s step) := by
  unfold Recorder.attempt
  split
  · rename_i r answer
    exact .single (.amends (amends r answer))
  · exact .refl

theorem callFunction_does (s : Session) (function : FunctionId) (args : NamedValues)
    (caller : Option CallId) : DoesAll op s (s.callFunction function args caller).1 := by
  have taken : Does op s _ := .takes (serializeArguments_takes s args)
  exact ((Relation.ReflTransGen.single taken).tail (.calls _ _ _ _ fun _ => rfl)).tail
    (.links (Project.unlinked_linkFunction ..))

theorem callMethod_does (s : Session) (method : MethodId) (receiver : Value) (args : NamedValues)
    (caller : Option CallId) :
    DoesAll (.callMethod method receiver args caller) s
      (s.callMethod method receiver args caller).1 := by
  have first := serialize_takes s receiver
  unfold callMethod
  dsimp only
  split
  · exact .single (.takes first)
  · rename_i o found
    split
    · rename_i isUser
      have second := serializeArguments_takes (s.serialize receiver).1 args
      have taken : DoesAll (.callMethod method receiver args caller) s _ :=
        .single (.takes (first.trans second))
      split
      · rename_i fault refused
        refine taken.tail (.calls _ _ _ _ ?_)
        -- the project lacks the method
        rintro ⟨m, defined⟩
        cases refused.symm.trans defined
      · rename_i m defined
        rw [Recording.pushCall_id]
        exact taken.tail (.callsMethod (second.object? found) isUser defined _ _)
    · exact .single (.takes first)

/-- An object that is told to be the maker of a generator is an instance. -/
theorem isUser_of_makerOf {s : Session} {definition : Definition} {receiver : Option Value}
    {owner : ObjectId} (h : (s.makerOf definition receiver).2 = .ok (.userObject owner)) :
    ∃ o, (s.makerOf definition receiver).1.recording.object? owner = some o ∧ o.kind.isUser := by
  unfold makerOf at h ⊢
  split at h
  · cases h
  · dsimp only at h ⊢
    split at h
    · cases h
    · rename_i o found
      split at h
      · rename_i isUser
        cases h
        rw [if_pos isUser]
        exact ⟨o, found, isUser⟩
      · cases h
  · cases h

/-- Recording how a generator was made makes it, unless it is refused. -/
theorem activate_does (op : Operation) {s : Session} {generator : ObjectId} {o : Object}
    {calls : List CallId}
    (found : s.recording.object? generator = some o) (unmade : o.kind = .generator none calls)
    (definition : Definition) (args : NamedValues) (receiver : Option Value) :
    DoesAll op s (s.activate generator definition args receiver).1 ∧
      ((s.activate generator definition args receiver).2 = .ok () → ∃ o' activation,
        (s.activate generator definition args receiver).1.recording.object? generator = some o' ∧
          o'.kind = .generator (some activation) calls) := by
  have first := makerOf_takes s definition receiver
  have isUser := @isUser_of_makerOf s definition receiver
  unfold activate
  split
  · rename_i eq
    rw [eq] at first
    exact ⟨.single (.takes first), by rintro ⟨⟩⟩
  · rename_i t maker eq
    rw [eq] at first isUser
    have second := serializeArguments_takes t args
    have taken : DoesAll op s _ := .single (.takes (first.trans second))
    have still := second.object? (first.object? found)
    dsimp only
    split
    · rename_i function
      refine ⟨(taken.tail (.activates still unmade definition _ function)).tail
        (.links (Project.unlinked_linkFunction ..)), fun _ => ?_⟩
      exact ⟨_, _, (Recording.object?_activate still unmade ..).trans (if_pos rfl), rfl⟩
    · rename_i owner
      obtain ⟨p, there, isUser⟩ := isUser rfl
      have there := second.object? there
      refine ⟨taken.tail (.activatesOn still unmade there isUser definition _), fun _ => ?_⟩
      -- the owner is an instance, and so not the generator
      have differ : generator ≠ owner := by
        rintro rfl
        rw [still] at there
        cases there
        rw [unmade] at isUser
        cases isUser
      have made := Recording.object?_activate still unmade
        ⟨definition, (t.serializeArguments args).2, .userObject owner⟩ generator
      rw [if_pos rfl] at made
      exact ⟨_, _, (Recording.object?_modifyKind ..).trans ((if_neg differ).trans made), rfl⟩

theorem resume_does (s : Session) (generator : Value) (definition : Definition) (args : NamedValues)
    (receiver : Option Value) (caller : Option CallId) :
    DoesAll op s (s.resume generator definition args receiver caller).1 := by
  have taken : DoesAll op s _ := .single (.takes (serialize_takes s generator))
  unfold resume
  dsimp only
  split
  · rename_i activation calls eq
    obtain ⟨o, found, eq⟩ := Option.map_eq_some_iff.1 eq
    cases activation with
    | some activation =>
      dsimp only
      rw [Recording.pushCall_id]
      exact taken.tail (.resumes found eq definition caller)
    | none =>
      obtain ⟨activated, made⟩ := activate_does op found eq definition args receiver
      dsimp only
      split
      · exact taken.trans activated
      · rename_i ready
        obtain ⟨o', activation, found', eq'⟩ := made ready
        rw [Recording.pushCall_id]
        exact (taken.trans activated).tail (.resumes found' eq' definition caller)
  · exact taken

/-- An operation that neither ends nor erases the recording makes any number of changes. -/
theorem perform_does (s : Session) (op : Operation) (keeps : op.keepsHandles) :
    DoesAll op s (s.perform op) := by
  cases op with
  | serialize v => exact .single (.takes (serialize_takes s v))
  | callFunction function args caller => exact callFunction_does s function args caller
  | callMethod method receiver args caller => exact callMethod_does s method receiver args caller
  | resume generator definition args receiver caller =>
    exact resume_does s generator definition args receiver caller
  | setOutcome id outcome =>
    exact attempt_does (·.setOutcome id outcome) fun _ => Recording.sameHeads_setOutcome
  | clearOutcome id => exact attempt_does (·.clearOutcome id) fun _ => Recording.sameHeads_clearOutcome
  | complete id => exact attempt_does (·.complete id) fun _ => Recording.sameHeads_complete
  | detach id => exact attempt_does (·.detach id) fun _ => Recording.sameHeads_detach
  | addEffect change owner => exact .single (.amends (Recording.sameHeads_pushEffect ..))
  | finish | erase => cases keeps

end Session

end Reenact
