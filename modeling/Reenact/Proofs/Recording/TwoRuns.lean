import Reenact.Proofs.Project.Links
import Reenact.Proofs.Recording.Lookup
import Reenact.Proofs.Refusal
import Reenact.Recording.Finish

/-!
# Two recordings of one program

A recording depends neither on its own number nor on what handles are; all that matters is which of
them are the same. Values that the engine builds may therefore have other handles in another run of
the program. `TwoRuns` tells which handles of two runs stand for the same value, `ValuesMatch` carries
this over to values, and `SessionsMatch` says that the two recordings are the same apart from their
numbers and handles, and that the two projects have gained the same links.

**The law** (`SessionsMatch.serialize`, and one lemma for each operation): what is done to matching
sessions with matching values leaves them matching and is answered alike.
-/

namespace Reenact

/-! ## Numbers and handles do not matter -/

namespace Recording

/-- The recording with another number, and with other handles for its objects. -/
def renamed (r : Recording) (id : RunId) (known : List (Handle × ObjectId)) : Recording :=
  { r with id := id, known := known }

/-- The change neither depends on the number and the handles of a recording nor affects them. -/
def IsBlind (f : Recording → Recording) : Prop :=
  ∀ r id known, f (renamed r id known) = (f r).renamed id known

theorem IsBlind.id_eq {f : Recording → Recording} (blind : IsBlind f) (r : Recording) :
    (f r).id = r.id := by
  have same : f r = (f r).renamed r.id r.known := blind r r.id r.known
  rw [same]
  rfl

theorem IsBlind.known_eq {f : Recording → Recording} (blind : IsBlind f) (r : Recording) :
    (f r).known = r.known := by
  have same : f r = (f r).renamed r.id r.known := blind r r.id r.known
  rw [same]
  rfl

theorem isBlind_pushObject (v : Value) (kind : ObjectKind) :
    IsBlind fun r => (r.pushObject v kind).1 := fun _ _ _ => rfl

theorem isBlind_modifyKind (id : ObjectId) (f : ObjectKind → ObjectKind) :
    IsBlind (·.modifyKind id f) := fun _ _ _ => rfl

theorem isBlind_pushCall (kind : CallKind) (definition : Definition) (input : Arguments)
    (caller : Option CallId) : IsBlind fun r => (r.pushCall kind definition input caller).1 := by
  intro r id known
  have size : (r.renamed id known).calls.size = r.calls.size := rfl
  simp only [pushCall, size]
  cases caller.filter fun c => decide (c.index < r.calls.size) <;> rfl

theorem isBlind_pushEffect (change : Change) (owner : Option CallId) :
    IsBlind fun r => (r.pushEffect change owner).1 := by
  intro r id known
  have size : (r.renamed id known).tick.calls.size = r.tick.calls.size := rfl
  simp only [pushEffect, size]
  cases owner.filter fun c => decide (c.index < r.tick.calls.size) <;> rfl

/-- The same of a step that may be refused. -/
def IsBlindStep (step : Recording → Except Fault Recording) : Prop :=
  ∀ r id known, step (renamed r id known) = (step r).map (·.renamed id known)

theorem isBlindStep_setOutcome (call : CallId) (outcome : Outcome) :
    IsBlindStep (·.setOutcome call outcome) := by
  intro r id known
  have found : (r.renamed id known).findCall call = r.findCall call := rfl
  simp only [setOutcome, found]
  cases r.findCall call <;> rfl

theorem isBlindStep_complete (call : CallId) : IsBlindStep (·.complete call) := by
  intro r id known
  have found : (r.renamed id known).findCall call = r.findCall call := rfl
  simp only [complete, found]
  cases r.findCall call <;> rfl

theorem isBlindStep_detach (call : CallId) : IsBlindStep (·.detach call) := by
  intro r id known
  have found : (r.renamed id known).findCall call = r.findCall call := rfl
  simp only [detach, found]
  cases r.findCall call with
  | error fault => rfl
  | ok c =>
    simp only [bind, Except.bind]
    cases c.caller <;> rfl

theorem isBlind_dropTrailing (x : ObjectId) : IsBlind (·.dropTrailing x) := by
  intro r id known
  have last : (r.renamed id known).trailingResumption? x = r.trailingResumption? x := rfl
  simp only [dropTrailing, last]
  cases r.trailingResumption? x with
  | none => rfl
  | some call =>
    have dropped : (r.renamed id known).modifyKind x (·.dropResumption) =
        (r.modifyKind x (·.dropResumption)).renamed id known := rfl
    have detached := isBlindStep_detach call (r.modifyKind x (·.dropResumption)) id known
    dsimp only at detached ⊢
    rw [dropped, detached]
    cases (r.modifyKind x (·.dropResumption)).detach call <;> rfl

theorem isBlind_foldl {α : Type} {step : Recording → α → Recording}
    (blind : ∀ a, IsBlind (step · a)) (l : List α) : IsBlind (l.foldl step ·) := by
  induction l with
  | nil => exact fun _ _ _ => rfl
  | cons a rest ih =>
    intro r id known
    have first : step (r.renamed id known) a = (step r a).renamed id known := blind a r id known
    simp only [List.foldl_cons, first]
    exact ih (step r a) id known

/-- Ending a recording keeps its number and nothing of its handles. -/
theorem finish_renamed {r : Recording} (going : r.isFinished = false) (id : RunId)
    (known : List (Handle × ObjectId)) (isExhausted : Value → Bool) :
    (r.renamed id known).finish isExhausted = { r.finish isExhausted with id := id } := by
  have going' : (r.renamed id known).isFinished = false := going
  have same : (r.renamed id known).exhausted isExhausted = r.exhausted isExhausted := rfl
  have dropped := isBlind_foldl isBlind_dropTrailing (r.exhausted isExhausted) r id known
  dsimp only at dropped
  rw [finish, going', if_neg Bool.false_ne_true, same, dropped, finish, going,
    if_neg Bool.false_ne_true]
  rfl

end Recording

/-! ## The same values -/

/-- The host reports the value and all that it holds; none of it was built by the engine. -/
inductive Value.IsReported : Value → Prop
  | intro {v : Value} (observed : v.handle.isBuilt = false) (held : ∀ w ∈ v.held, w.IsReported) :
      v.IsReported

theorem Value.IsReported.handle {v : Value} (h : v.IsReported) : v.handle.isBuilt = false := by
  obtain ⟨observed, -⟩ := h
  exact observed

theorem Value.IsReported.of_mem_held {v w : Value} (h : v.IsReported) (mem : w ∈ v.held) :
    w.IsReported := by
  obtain ⟨-, held⟩ := h
  exact held w mem

/-- Links do not matter to what a value becomes. -/
theorem Project.outline_congr {p q : Project} (same : p.unlinked = q.unlinked) (v : Value) :
    p.outline v = q.outline v := by
  unfold Project.outline
  rw [Project.findClass_congr same]

/-- Two runs of one program, and the handles that stand for the same values in them. -/
structure TwoRuns where
  /-- What was known of the program before both runs. -/
  project : Project
  run : RunId
  other : RunId
  /-- Whether a handle of the first run and one of the second stand for the same value. -/
  pairs : Handle → Handle → Prop
  oneToOne : ∀ {a b c d : Handle}, pairs a b → pairs c d → (a = c ↔ b = d)
  /-- The handles that the host reports are the same in both runs. -/
  reported : ∀ {h : Handle}, h.isBuilt = false → pairs h h

namespace TwoRuns

variable {runs : TwoRuns} {s s' : Session} {v v' : Value} {args args' : List (String × Value)}

/-- Headers of one type, whose handles stand for the same value. -/
structure HeadersMatch (runs : TwoRuns) (a b : Header) : Prop where
  handle : runs.pairs a.handle b.handle
  typeName : a.typeName = b.typeName
  module : a.module = b.module

theorem HeadersMatch.findClass {a b : Header} (h : runs.HeadersMatch a b) (p : Project) :
    p.findClass b.typeName b.module = p.findClass a.typeName a.module := by
  rw [h.typeName, h.module]

/-- The same values: the host reports them, or the engine built them alike. -/
inductive ValuesMatch (runs : TwoRuns) : Value → Value → Prop
  | reported {v : Value} (h : v.IsReported) : runs.ValuesMatch v v
  | literal {a b : Header} (headers : runs.HeadersMatch a b) (value : Literal) :
      runs.ValuesMatch (.literal a value) (.literal b value)
  | sequence {a b : Header} (headers : runs.HeadersMatch a b) (shape : Shape)
      {items items' : List Value} (parts : List.Forall₂ runs.ValuesMatch items items') :
      runs.ValuesMatch (.sequence a shape items) (.sequence b shape items')
  | exception {a b : Header} (headers : runs.HeadersMatch a b) {args args' : List Value}
      (parts : List.Forall₂ runs.ValuesMatch args args') (isBuiltin : Bool) :
      runs.ValuesMatch (.exception a args isBuiltin) (.exception b args' isBuiltin)

/-- Values that the host reports match themselves. -/
theorem valuesMatch_of_reported {l : List Value} (h : ∀ v ∈ l, v.IsReported) :
    List.Forall₂ runs.ValuesMatch l l :=
  List.forall₂_same.2 fun v mem => .reported (h v mem)

theorem ValuesMatch.headers (h : runs.ValuesMatch v v') :
    runs.HeadersMatch v.header v'.header := by
  cases h with
  | reported h => exact ⟨runs.reported h.handle, rfl, rfl⟩
  | literal headers | sequence headers | exception headers => exact headers

theorem ValuesMatch.handle (h : runs.ValuesMatch v v') : runs.pairs v.handle v'.handle :=
  h.headers.handle

theorem ValuesMatch.typeName (h : runs.ValuesMatch v v') : v.typeName = v'.typeName :=
  h.headers.typeName

theorem ValuesMatch.module (h : runs.ValuesMatch v v') : v.module = v'.module := h.headers.module

theorem ValuesMatch.qualifiedType (h : runs.ValuesMatch v v') :
    v.qualifiedType = v'.qualifiedType := by
  rw [Value.qualifiedType, h.module, h.typeName, Value.qualifiedType]

theorem ValuesMatch.word (h : runs.ValuesMatch v v') : v.word = v'.word := by
  cases h with
  | reported | literal | sequence => rfl
  | exception headers =>
    rw [Value.word, headers.typeName]
    rfl

/-- Outlines that build the same from the same objects, out of matching parts. -/
structure OutlinesMatch (runs : TwoRuns) (o o' : Outline) : Prop where
  parts : List.Forall₂ runs.ValuesMatch o.parts o'.parts
  build : ∀ ids, o.build ids = o'.build ids

/-- The same values become the same. -/
theorem ValuesMatch.outline (h : runs.ValuesMatch v v') (p : Project) :
    runs.OutlinesMatch (p.outline v) (p.outline v') := by
  have whole (kind : ObjectKind) : runs.OutlinesMatch (.whole kind) (.whole kind) :=
    ⟨.nil, fun _ => rfl⟩
  cases h with
  | reported h =>
    exact ⟨valuesMatch_of_reported fun w mem => h.of_mem_held (Project.mem_held_of_mem_parts mem),
      fun _ => rfl⟩
  | literal headers value =>
    simp only [Project.outline, Value.typeName, Value.module, Value.header, headers.findClass]
    split <;> exact whole _
  | sequence headers shape parts =>
    simp only [Project.outline, Value.typeName, Value.module, Value.header, headers.findClass]
    split
    · exact whole _
    · exact ⟨parts, fun _ => rfl⟩
  | @exception a b headers args args' parts isBuiltin =>
    have named : (Value.exception a args isBuiltin).qualifiedType =
        (Value.exception b args' isBuiltin).qualifiedType :=
      (ValuesMatch.exception headers parts isBuiltin).qualifiedType
    simp only [Project.outline, Value.typeName, Value.module, Value.header, headers.findClass]
    split
    · exact whole _
    · cases isBuiltin with
      | true => exact ⟨parts, fun _ => rfl⟩
      | false =>
        rw [Value.plainOutline, named]
        exact whole _

/-- A value that becomes a generator is not built by the engine. -/
theorem ValuesMatch.eq_of_generator (h : runs.ValuesMatch v v') {p : Project} {ids calls : List _}
    {activation : Option Activation} (made : (p.outline v).build ids = .generator activation calls) :
    v' = v := by
  cases h with
  | reported => rfl
  | literal | sequence =>
    simp only [Project.outline] at made
    split at made <;> cases made
  | exception headers parts isBuiltin =>
    simp only [Project.outline] at made
    split at made
    · cases made
    · cases isBuiltin <;> cases made

/-! ## Handles that stand for the same values -/

/-- The same objects, each under handles that stand for the same value. -/
def KnownMatch (runs : TwoRuns) (known known' : List (Handle × ObjectId)) : Prop :=
  List.Forall₂ (fun a b => runs.pairs a.1 b.1 ∧ a.2 = b.2) known known'

theorem KnownMatch.lookup {known known' : List (Handle × ObjectId)}
    (h : runs.KnownMatch known known') {a b : Handle} (pair : runs.pairs a b) :
    known.lookup a = known'.lookup b := by
  induction h with
  | nil => rfl
  | @cons x y known known' head tail ih =>
    obtain ⟨same, object⟩ := head
    have iff : (a == x.1) = (b == y.1) := by
      rw [Bool.eq_iff_iff, beq_iff_eq, beq_iff_eq]
      exact runs.oneToOne pair same
    rw [List.lookup_cons, List.lookup_cons, iff, object, ih]

theorem mem_iff_of_pairs {around around' : List Handle}
    (h : List.Forall₂ runs.pairs around around') {a b : Handle} (pair : runs.pairs a b) :
    a ∈ around ↔ b ∈ around' := by
  induction h with
  | nil => simp only [List.not_mem_nil]
  | cons head tail ih => rw [List.mem_cons, List.mem_cons, ih, runs.oneToOne pair head]

/-! ## Sessions -/

/-- The two sessions recorded the same apart from the number and the handles, and linked the project
to the same. -/
structure SessionsMatch (runs : TwoRuns) (s s' : Session) : Prop where
  projects : runs.project.GainAlike runs.run runs.other s.project s'.project
  id : s.recording.id = runs.run
  known : runs.KnownMatch s.recording.known s'.recording.known
  recording : s'.recording = s.recording.renamed runs.other s'.recording.known

/-- What two runs answer, with the sessions they leave. -/
structure AnswersMatch {α : Type} (runs : TwoRuns) (a b : Session × α) : Prop where
  sessions : runs.SessionsMatch a.1 b.1
  same : a.2 = b.2

theorem AnswersMatch.map {α β : Type} {a b : Session × α} (h : runs.AnswersMatch a b) (f : α → β) :
    runs.AnswersMatch (a.1, f a.2) (b.1, f b.2) :=
  ⟨h.sessions, congrArg f h.same⟩

theorem sessionsMatch_start (runs : TwoRuns) :
    runs.SessionsMatch (.start runs.project runs.run) (.start runs.project runs.other) where
  projects := Project.gainAlike_refl ..
  id := rfl
  known := .nil
  recording := rfl

theorem SessionsMatch.unlinked (h : runs.SessionsMatch s s') :
    s.project.unlinked = s'.project.unlinked :=
  h.projects.left.trans h.projects.right.symm

theorem SessionsMatch.object? (h : runs.SessionsMatch s s') (x : ObjectId) :
    s'.recording.object? x = s.recording.object? x := by
  rw [h.recording]
  rfl

theorem SessionsMatch.call? (h : runs.SessionsMatch s s') (id : CallId) :
    s'.recording.call? id = s.recording.call? id := by
  rw [h.recording]
  rfl

theorem SessionsMatch.lookup (h : runs.SessionsMatch s s') {a b : Handle} (pair : runs.pairs a b) :
    s'.recording.lookup b = s.recording.lookup a :=
  (h.known.lookup pair).symm

/-- A change that sees neither number nor handles leaves matching sessions. -/
theorem SessionsMatch.record (h : runs.SessionsMatch s s') {f : Recording → Recording}
    (blind : Recording.IsBlind f) : runs.SessionsMatch (s.record f) (s'.record f) where
  projects := h.projects
  id := (blind.id_eq _).trans h.id
  known := by
    rw [Session.record, blind.known_eq, Session.record, blind.known_eq]
    exact h.known
  recording := by
    have known : (s'.record f).recording.known = s'.recording.known := blind.known_eq _
    rw [known, Session.record, h.recording, blind]
    rfl

/-- The handles of the same value come to stand for the same object. -/
theorem SessionsMatch.remember (h : runs.SessionsMatch s s') {a b : Handle} (pair : runs.pairs a b)
    (x : ObjectId) :
    runs.SessionsMatch (s.record (·.remember a x)) (s'.record (·.remember b x)) where
  projects := h.projects
  id := h.id
  known := .cons ⟨pair, rfl⟩ h.known
  recording := by
    show s'.recording.remember b x = _
    rw [h.recording]
    rfl

/-- Both runs link a place to the same. -/
theorem SessionsMatch.link (h : runs.SessionsMatch s s') (target : LinkTarget) (place : Place) :
    runs.SessionsMatch
      { s with project := s.project.link ⟨s.recording.id, target⟩ place }
      { s' with project := s'.project.link ⟨s'.recording.id, target⟩ place } where
  projects := by
    have other : s'.recording.id = runs.other := congrArg Recording.id h.recording
    rw [h.id, other]
    exact h.projects.link target place
  id := h.id
  known := h.known
  recording := h.recording

theorem SessionsMatch.linkFunction (h : runs.SessionsMatch s s') (id : FunctionId)
    (target : LinkTarget) :
    runs.SessionsMatch (s.linkFunction id target) (s'.linkFunction id target) :=
  h.link target (.function id)

theorem SessionsMatch.linkClass (h : runs.SessionsMatch s s') (id : ClassId) (target : LinkTarget) :
    runs.SessionsMatch (s.linkClass id target) (s'.linkClass id target) :=
  h.link target (.class id)

/-- Matching sessions end with the same recording apart from its number. -/
theorem SessionsMatch.finish (h : runs.SessionsMatch s s') (going : s.recording.isFinished = false)
    (isExhausted : Value → Bool) :
    s'.recording.finish isExhausted =
      { s.recording.finish isExhausted with id := runs.other } := by
  rw [h.recording, Recording.finish_renamed going]

/-! ## Values -/

/-- Values that read the same are added as the same object. -/
theorem ValuesMatch.pushObject (h : runs.ValuesMatch v v') (r : Recording) (kind : ObjectKind) :
    r.pushObject v' kind = r.pushObject v kind := by
  simp only [Recording.pushObject, h.word, h.typeName, h.module]

theorem SessionsMatch.pushObject (h : runs.SessionsMatch s s') (values : runs.ValuesMatch v v')
    (kind : ObjectKind) :
    runs.SessionsMatch (s.record fun r => (r.pushObject v kind).1)
      (s'.record fun r => (r.pushObject v' kind).1) ∧
    (s.recording.pushObject v kind).2 = (s'.recording.pushObject v' kind).2 := by
  simp only [values.pushObject]
  refine ⟨h.record (Recording.isBlind_pushObject v kind), ?_⟩
  rw [h.recording]
  rfl

theorem SessionsMatch.pushStray (h : runs.SessionsMatch s s') (values : runs.ValuesMatch v v') :
    runs.AnswersMatch (s.pushStray v) (s'.pushStray v') := by
  obtain ⟨sessions, same⟩ := h.pushObject values (.unknown v'.qualifiedType)
  rw [Session.pushStray, values.qualifiedType]
  exact ⟨sessions, same⟩

theorem SessionsMatch.pushKnown (h : runs.SessionsMatch s s') (values : runs.ValuesMatch v v')
    {kind : ObjectKind}
    (observed : ∀ activation calls, kind = .generator activation calls → v' = v) :
    runs.AnswersMatch (s.pushKnown v kind) (s'.pushKnown v' kind) := by
  obtain ⟨sessions, same⟩ := h.pushObject values kind
  have remembered := sessions.remember values.handle (s.recording.pushObject v kind).2
  unfold Session.pushKnown
  dsimp only
  rw [← same]
  cases kind with
  | user cls init uses => exact ⟨remembered.linkClass cls _, rfl⟩
  | generator activation calls =>
    obtain rfl := observed activation calls rfl
    have blind (x : ObjectId) : Recording.IsBlind fun r =>
      { r with generators := r.generators ++ [(x, v')] } := fun _ _ _ => rfl
    exact ⟨remembered.record (blind _), rfl⟩
  | _ => exact ⟨remembered, rfl⟩

/-- Recording the members of matching lists one after the other, if recording each one leaves matching
sessions. -/
theorem SessionsMatch.thread {step step' : Session → Value → Session × ObjectId}
    {l l' : List Value}
    (each : ∀ v ∈ l, ∀ {v' : Value} {s s' : Session}, runs.ValuesMatch v v' →
      runs.SessionsMatch s s' → runs.AnswersMatch (step s v) (step' s' v'))
    (h : runs.SessionsMatch s s') (values : List.Forall₂ runs.ValuesMatch l l') :
    runs.AnswersMatch (thread step s l) (thread step' s' l') := by
  induction values generalizing s s' with
  | nil => exact ⟨h, rfl⟩
  | @cons v v' rest rest' first others ih =>
    obtain ⟨sessions, same⟩ := each v List.mem_cons_self first h
    obtain ⟨final, all⟩ := ih (fun w mem => each w (List.mem_cons_of_mem _ mem)) sessions
    rw [thread_cons, thread_cons, same, all]
    exact ⟨final, rfl⟩

theorem SessionsMatch.serializeWithin (h : runs.SessionsMatch s s')
    (values : runs.ValuesMatch v v') {around around' : List Handle}
    (handles : List.Forall₂ runs.pairs around around') :
    runs.AnswersMatch (s.serializeWithin around v) (s'.serializeWithin around' v') := by
  -- parts are smaller than what they are part of
  induction size : sizeOf v using Nat.strongRecOn generalizing v v' s s' around around' with
  | _ n ih =>
    rw [Session.serializeWithin_eq, Session.serializeWithin_eq, h.lookup values.handle]
    cases s.recording.lookup v.handle with
    | some x => exact ⟨h, rfl⟩
    | none =>
      by_cases inside : v.handle ∈ around
      · have inside' : v'.handle ∈ around' := (mem_iff_of_pairs handles values.handle).1 inside
        simp only [if_pos inside, if_pos inside']
        exact h.pushStray values
      · have outside : v'.handle ∉ around' := mt (mem_iff_of_pairs handles values.handle).2 inside
        simp only [if_neg inside, if_neg outside]
        have outlines := values.outline s.project
        rw [← Project.outline_congr h.unlinked]
        obtain ⟨sessions, same⟩ := h.thread
          (fun w mem _ _ _ part h => ih (sizeOf w)
            (size ▸ Value.sizeOf_lt_of_mem_held (Project.mem_held_of_mem_parts mem)) h part
            (.cons values.handle handles) rfl) outlines.parts
        rw [← same, ← outlines.build]
        exact sessions.pushKnown values fun _ _ made => values.eq_of_generator made

/-- Recording the same value in both runs. -/
theorem SessionsMatch.serialize (h : runs.SessionsMatch s s') (values : runs.ValuesMatch v v') :
    runs.AnswersMatch (s.serialize v) (s'.serialize v') :=
  h.serializeWithin values .nil

theorem SessionsMatch.serializeAll (h : runs.SessionsMatch s s') {l l' : List Value}
    (values : List.Forall₂ runs.ValuesMatch l l') :
    runs.AnswersMatch (s.serializeAll l) (s'.serializeAll l') :=
  h.thread (fun _ _ _ _ _ values h => h.serialize values) values

/-- The same arguments under the same names. -/
def ArgsMatch (runs : TwoRuns) (args args' : List (String × Value)) : Prop :=
  List.Forall₂ (fun a b => a.1 = b.1 ∧ runs.ValuesMatch a.2 b.2) args args'

theorem SessionsMatch.serializeArguments (h : runs.SessionsMatch s s')
    (values : runs.ArgsMatch args args') :
    runs.AnswersMatch (s.serializeArguments args) (s'.serializeArguments args') := by
  have names : args.map Prod.fst = args'.map Prod.fst := by
    rw [← List.forall₂_eq_eq_eq, List.forall₂_map_left_iff, List.forall₂_map_right_iff]
    exact values.imp fun _ _ both => both.1
  have held : List.Forall₂ runs.ValuesMatch (args.map Prod.snd) (args'.map Prod.snd) := by
    rw [List.forall₂_map_left_iff, List.forall₂_map_right_iff]
    exact values.imp fun _ _ both => both.2
  obtain ⟨sessions, same⟩ := h.serializeAll held
  refine ⟨sessions, ?_⟩
  unfold Session.serializeArguments
  dsimp only
  rw [names, same]

/-! ## Calls and side effects -/

theorem SessionsMatch.pushCall (h : runs.SessionsMatch s s') (kind : CallKind)
    (definition : Definition) (input : Arguments) (caller : Option CallId) :
    runs.SessionsMatch (s.record fun r => (r.pushCall kind definition input caller).1)
      (s'.record fun r => (r.pushCall kind definition input caller).1) ∧
    (s.recording.pushCall kind definition input caller).2 =
      (s'.recording.pushCall kind definition input caller).2 := by
  refine ⟨h.record (Recording.isBlind_pushCall kind definition input caller), ?_⟩
  rw [Recording.pushCall_id, Recording.pushCall_id, h.recording]
  rfl

theorem SessionsMatch.modifyKind (h : runs.SessionsMatch s s') (x : ObjectId)
    (f : ObjectKind → ObjectKind) :
    runs.SessionsMatch (s.record (·.modifyKind x f)) (s'.record (·.modifyKind x f)) :=
  h.record (Recording.isBlind_modifyKind x f)

theorem SessionsMatch.addEffect (h : runs.SessionsMatch s s') (change : Change)
    (owner : Option CallId) :
    runs.SessionsMatch (s.addEffect change owner).1 (s'.addEffect change owner).1 :=
  h.record (Recording.isBlind_pushEffect change owner)

theorem SessionsMatch.callFunction (h : runs.SessionsMatch s s') (function : FunctionId)
    (values : runs.ArgsMatch args args') (caller : Option CallId) :
    runs.AnswersMatch (s.callFunction function args caller)
      (s'.callFunction function args' caller) := by
  obtain ⟨recorded, input⟩ := h.serializeArguments values
  unfold Session.callFunction
  dsimp only
  rw [← input]
  obtain ⟨pushed, same⟩ := recorded.pushCall .function (.function function)
    (s.serializeArguments args).2 caller
  rw [← same]
  exact ⟨pushed.linkFunction function _, rfl⟩

theorem SessionsMatch.callMethod (h : runs.SessionsMatch s s') (method : MethodId)
    {receiver receiver' : Value} (receivers : runs.ValuesMatch receiver receiver')
    (values : runs.ArgsMatch args args') (caller : Option CallId) :
    runs.AnswersMatch (s.callMethod method receiver args caller)
      (s'.callMethod method receiver' args' caller) := by
  obtain ⟨noted, same⟩ := h.serialize receivers
  unfold Session.callMethod
  dsimp only
  rw [← same, noted.object?]
  cases (s.serialize receiver).1.recording.object? (s.serialize receiver).2 with
  | none => exact ⟨noted, rfl⟩
  | some object =>
    dsimp only
    split
    · obtain ⟨recorded, input⟩ := noted.serializeArguments values
      rw [← input]
      obtain ⟨pushed, id⟩ := recorded.pushCall (.method (s.serialize receiver).2) (.method method)
        ((s.serialize receiver).1.serializeArguments args).2 caller
      rw [← id, ← Project.method?_congr recorded.unlinked]
      cases ((s.serialize receiver).1.serializeArguments args).1.project.method? method with
      | error fault => exact ⟨pushed, rfl⟩
      | ok m => exact ⟨pushed.modifyKind _ _, rfl⟩
    · exact ⟨noted, rfl⟩

theorem SessionsMatch.makerOf (h : runs.SessionsMatch s s') (definition : Definition)
    {receiver receiver' : Option Value} (receivers : Option.Rel runs.ValuesMatch receiver receiver') :
    runs.AnswersMatch (s.makerOf definition receiver) (s'.makerOf definition receiver') := by
  cases definition with
  | function id => exact ⟨h, rfl⟩
  | method id =>
    cases receivers with
    | none => exact ⟨h, rfl⟩
    | some receivers =>
      obtain ⟨noted, same⟩ := h.serialize receivers
      unfold Session.makerOf
      dsimp only
      rw [← same, noted.object?]
      split
      · exact ⟨noted, rfl⟩
      · split <;> exact ⟨noted, rfl⟩

theorem SessionsMatch.activate (h : runs.SessionsMatch s s') (generator : ObjectId)
    (definition : Definition) (values : runs.ArgsMatch args args')
    {receiver receiver' : Option Value} (receivers : Option.Rel runs.ValuesMatch receiver receiver') :
    runs.AnswersMatch (s.activate generator definition args receiver)
      (s'.activate generator definition args' receiver') := by
  have made := h.makerOf definition receivers
  unfold Session.activate
  generalize s.makerOf definition receiver = a at made ⊢
  generalize s'.makerOf definition receiver' = b at made ⊢
  obtain ⟨t, answer⟩ := a
  obtain ⟨t', answer'⟩ := b
  obtain ⟨sessions, same⟩ := made
  obtain rfl : answer = answer' := same
  cases answer with
  | error fault => exact ⟨sessions, rfl⟩
  | ok maker =>
    obtain ⟨recorded, input⟩ := sessions.serializeArguments values
    have activated := recorded.modifyKind generator
      (·.activate ⟨definition, (t.serializeArguments args).2, maker⟩)
    dsimp only
    rw [← input]
    cases maker with
    | function id => exact ⟨activated.linkFunction id _, rfl⟩
    | userObject owner => exact ⟨activated.modifyKind owner _, rfl⟩

/-- One more resumption of a generator. -/
theorem SessionsMatch.resumption (h : runs.SessionsMatch s s') (generator : ObjectId)
    (definition : Definition) (caller : Option CallId) :
    let pushed := s.recording.pushCall (.resumption generator) definition .empty caller
    let pushed' := s'.recording.pushCall (.resumption generator) definition .empty caller
    runs.AnswersMatch
      ((⟨s.project, pushed.1⟩ : Session).record (·.modifyKind generator (·.addResumption pushed.2)),
        pushed.2)
      ((⟨s'.project, pushed'.1⟩ : Session).record (·.modifyKind generator (·.addResumption pushed'.2)),
        pushed'.2) := by
  obtain ⟨pushed, same⟩ := h.pushCall (.resumption generator) definition .empty caller
  dsimp only
  rw [← same]
  exact ⟨pushed.modifyKind generator _, rfl⟩

theorem SessionsMatch.resume (h : runs.SessionsMatch s s') {generator generator' : Value}
    (generators : runs.ValuesMatch generator generator') (definition : Definition)
    (values : runs.ArgsMatch args args')
    {receiver receiver' : Option Value} (receivers : Option.Rel runs.ValuesMatch receiver receiver')
    (caller : Option CallId) :
    runs.AnswersMatch (s.resume generator definition args receiver caller)
      (s'.resume generator' definition args' receiver' caller) := by
  obtain ⟨noted, same⟩ := h.serialize generators
  unfold Session.resume
  dsimp only
  rw [← same, noted.object?]
  generalize (s.serialize generator).2 = x at same ⊢
  generalize (s.serialize generator).1 = t at noted ⊢
  generalize (s'.serialize generator').1 = t' at noted ⊢
  split
  · rename_i activation resumptions kind
    cases activation with
    | some activation => exact (noted.resumption x definition caller).map Except.ok
    | none =>
      have made := noted.activate x definition values receivers
      dsimp only
      generalize t.activate x definition args receiver = a at made ⊢
      generalize t'.activate x definition args' receiver' = b at made ⊢
      obtain ⟨u, answer⟩ := a
      obtain ⟨u', answer'⟩ := b
      obtain ⟨sessions, same⟩ := made
      obtain rfl : answer = answer' := same
      cases answer with
      | error fault => exact ⟨sessions, rfl⟩
      | ok done => exact (sessions.resumption x definition caller).map Except.ok
  · exact ⟨noted, rfl⟩

end TwoRuns

end Reenact
