import Reenact.Proofs.Project.Links
import Reenact.Proofs.Recording.Captured

/-!
# What a session links

Everything that a recording captures of the project has a home there (`Recording.home?`): a call of
a function that function, a generator the function that made it, an instance its class. A project
mirrors a recording (`Project.Mirrors`) when from each place there is one link for everything that
has its home there, and no other link of that recording.

**The law** (`perform_accounts`): every operation on what the project defines, refused or not, keeps
a recording mirrored and leaves the links of all other recordings alone. This holds of one that
takes everything back, too.
-/

namespace Reenact

/-- The class of an instance. -/
def ObjectKind.class? : ObjectKind → Option ClassId
  | user cls _ _ => some cls
  | _ => none

/-- A change of an object that concerns neither how a generator was made nor the class of an
instance. -/
structure ObjectKind.KeepsHome (f : ObjectKind → ObjectKind) : Prop where
  activation : ∀ kind, (f kind).activation? = kind.activation?
  cls : ∀ kind, (f kind).class? = kind.class?

namespace ObjectKind

theorem keepsHome_addCall (id : CallId) (isConstructor : Bool) :
    KeepsHome (·.addCall id isConstructor) :=
  ⟨fun kind => by cases kind <;> rfl, fun kind => by cases kind <;> rfl⟩

theorem keepsHome_addGenerator (id : ObjectId) : KeepsHome (·.addGenerator id) :=
  ⟨fun kind => by cases kind <;> rfl, fun kind => by cases kind <;> rfl⟩

theorem keepsHome_addResumption (id : CallId) : KeepsHome (·.addResumption id) :=
  ⟨fun kind => by cases kind <;> rfl, fun kind => by cases kind <;> rfl⟩

theorem keepsHome_dropResumption : KeepsHome (·.dropResumption) :=
  ⟨fun kind => by cases kind <;> rfl, fun kind => by cases kind <;> rfl⟩

end ObjectKind

/-- The function that a call calls; calls of methods and resumptions have none. -/
def Call.home? (c : Call) : Option Place :=
  match c.kind, c.definition with
  | .function, .function id => some (.function id)
  | _, _ => none

/-- The function that made a generator, where one did. -/
def Maker.home? : Maker → Option Place
  | function id => some (.function id)
  | userObject _ => none

namespace Recording

variable {r s : Recording}

/-- The class of an object that is an instance. -/
def classOf? (r : Recording) (id : ObjectId) : Option ClassId :=
  (r.object? id).bind fun o => o.kind.class?

/-- The function or class that something captured belongs to. -/
def home? (r : Recording) : LinkTarget → Option Place
  | .call id => (r.call? id).bind Call.home?
  | .generator id => (r.maker? id).bind Maker.home?
  | .userObject id => (r.classOf? id).map Place.class

theorem home?_congr
    (kinds : ∀ id, (s.call? id).map Call.kind = (r.call? id).map Call.kind)
    (definitions : ∀ id, (s.call? id).map Call.definition = (r.call? id).map Call.definition)
    (makers : ∀ id, s.maker? id = r.maker? id) (classes : ∀ id, s.classOf? id = r.classOf? id) :
    s.home? = r.home? := by
  funext target
  cases target with
  | generator id => rw [home?, makers, home?]
  | userObject id => rw [home?, classes, home?]
  | call id =>
    have kind := kinds id
    have definition := definitions id
    rw [home?, home?]
    cases new : s.call? id with
    | none =>
      rw [new] at kind
      rw [Option.map_eq_none_iff.1 kind.symm]
    | some c =>
      rw [new] at kind definition
      obtain ⟨d, old, kind⟩ := Option.map_eq_some_iff.1 kind.symm
      rw [old] at definition ⊢
      rw [Option.bind_some, Option.bind_some, Call.home?, Call.home?, kind,
        Option.some.inj definition]

theorem classOf?_congr (objects : s.objects = r.objects) (id : ObjectId) :
    s.classOf? id = r.classOf? id := by
  rw [classOf?, object?, objects, ← object?, ← classOf?]

theorem classOf?_modifyKind (r : Recording) (id : ObjectId) {f : ObjectKind → ObjectKind}
    (keeps : ∀ kind, (f kind).class? = kind.class?) (other : ObjectId) :
    (r.modifyKind id f).classOf? other = r.classOf? other := by
  rw [classOf?, object?_modifyKind, classOf?]
  split
  · rename_i same
    subst same
    cases r.object? other with
    | none => rfl
    | some o => simp only [Option.map_some, Option.bind_some, keeps]
  · rfl

/-- How calls went does not matter to what they call. -/
theorem SameHeads.home? (h : r.SameHeads s) : s.home? = r.home? :=
  home?_congr h.kinds h.definitions (maker?_congr h.objects) (classOf?_congr h.objects)

theorem home?_modifyKind (r : Recording) (id : ObjectId) {f : ObjectKind → ObjectKind}
    (keeps : ObjectKind.KeepsHome f) : (r.modifyKind id f).home? = r.home? :=
  home?_congr (fun _ => rfl) (fun _ => rfl) (maker?_modifyKind r id keeps.activation)
    (classOf?_modifyKind r id keeps.cls)

/-- Making a generator gives it a home, if it was made by a function. -/
theorem home?_activate {generator : ObjectId} {o : Object} {calls : List CallId}
    (found : r.object? generator = some o) (unmade : o.kind = .generator none calls)
    (activation : Activation) (target : LinkTarget) :
    (r.modifyKind generator (·.activate activation)).home? target =
      if target = .generator generator then activation.maker.home? else r.home? target := by
  cases target with
  | call => rfl
  | generator id =>
    rw [home?, maker?_activate found unmade, home?]
    by_cases same : id = generator
    · rw [if_pos same, same, if_pos rfl, Option.bind_some]
    · rw [if_neg same, if_neg fun h => same (LinkTarget.generator.inj h)]
  | userObject id =>
    rw [home?, classOf?_modifyKind _ _ fun kind => by cases kind <;> rfl, home?]
    rfl

theorem home?_of_unmade {generator : ObjectId} {o : Object} {calls : List CallId}
    (found : r.object? generator = some o) (unmade : o.kind = .generator none calls) :
    r.home? (.generator generator) = none := by
  rw [home?, maker?_of_unmade found unmade]
  rfl

theorem home?_newObject (r : Recording) : r.home? (.userObject ⟨r.objects.size⟩) = none := by
  rw [home?, classOf?, object?, Array.getElem?_size]
  rfl

theorem home?_newCall (r : Recording) : r.home? (.call ⟨r.calls.size⟩) = none := by
  rw [home?, call?, Array.getElem?_size]
  rfl

/-- A new object that was not made by anything has its class as home. -/
theorem home?_pushObject (r : Recording) (v : Value) {kind : ObjectKind}
    (unmade : kind.activation? = none) (target : LinkTarget) :
    (r.pushObject v kind).1.home? target =
      if target = .userObject ⟨r.objects.size⟩ then kind.class?.map Place.class
      else r.home? target := by
  cases target with
  | call => rfl
  | generator id =>
    rw [if_neg nofun, home?, maker?, object?_pushObject]
    split
    · rename_i new
      rw [home?, maker?, object?, new, Array.getElem?_size]
      show (kind.activation?.map Activation.maker).bind _ = _
      rw [unmade]
      rfl
    · rfl
  | userObject id =>
    rw [home?, classOf?, object?_pushObject]
    by_cases new : id.index = r.objects.size
    · rw [if_pos new, if_pos (by rw [← new])]
      rfl
    · rw [if_neg new, if_neg (fun h => new (by rw [LinkTarget.userObject.inj h]))]
      rfl

/-- A new call has the function that it calls as home. -/
theorem home?_pushCall (r : Recording) (kind : CallKind) (definition : Definition)
    (input : Arguments) (caller : Option CallId) (target : LinkTarget) :
    (r.pushCall kind definition input caller).1.home? target =
      if target = .call ⟨r.calls.size⟩ then (r.newCall kind definition input caller).home?
      else r.home? target := by
  have objects := objects_pushCall r kind definition input caller
  cases target with
  | generator id => rw [home?, maker?_congr objects, if_neg nofun, home?]
  | userObject id => rw [home?, classOf?_congr objects, if_neg nofun, home?]
  | call id =>
    rw [home?, call?_pushCall]
    by_cases new : id.index = r.calls.size
    · rw [if_pos new, if_pos (by rw [← new]), Option.bind_some]
    · rw [if_neg new, if_neg (fun h => new (by rw [LinkTarget.call.inj h])), home?]
      cases r.call? id with
      | none => rfl
      | some c =>
        simp only [Option.map_some, Option.bind_some]
        split <;> rfl

@[simp] theorem id_pushCall (r : Recording) (kind : CallKind) (definition : Definition)
    (input : Arguments) (caller : Option CallId) :
    (r.pushCall kind definition input caller).1.id = r.id := by
  cases h : caller.filter fun c => decide (c.index < r.calls.size) with
  | none => simp only [pushCall, h, tick]
  | some parent =>
    simp only [pushCall, h, tick]
    rfl

@[simp] theorem id_pushEffect (r : Recording) (change : Change) (owner : Option CallId) :
    (r.pushEffect change owner).1.id = r.id := by
  cases h : owner.filter fun c => decide (c.index < r.calls.size) with
  | none =>
    rw [pushEffect_of_none h]
    rfl
  | some parent =>
    rw [pushEffect_of_some h]
    rfl

theorem id_detach {id : CallId} (h : r.detach id = .ok s) : s.id = r.id := by
  obtain ⟨c, -, h⟩ := bind_eq_ok.1 h
  split at h
  · rw [← pure_eq_ok.1 h]
    rfl
  · rw [← pure_eq_ok.1 h]

end Recording

/-- From each place of the project there is one link for everything that the recording captured of
it, and no other link of that recording. -/
def Project.Mirrors (p : Project) (r : Recording) : Prop :=
  ∀ place, (p.targets r.id place).Nodup ∧
    ∀ target, target ∈ p.targets r.id place ↔ r.home? target = some place

/-- What one recording links does not matter to whether another one is mirrored. -/
theorem Project.Mirrors.of_forget {p q : Project} {run : RunId} {r : Recording} (h : p.Mirrors r)
    (others : q.forget run = p.forget run) (differ : r.id ≠ run) : q.Mirrors r := by
  intro place
  rw [Project.targets_of_forget others differ]
  exact h place

namespace Session

open Operation (IsDefinedIn)

variable {s t u : Session}

/-- The second session came from the first without touching links of other recordings, and its
recording is mirrored if that of the first one is. -/
structure Accounts (s t : Session) : Prop where
  run : t.recording.id = s.recording.id
  /-- The projects differ in links of the recording alone. -/
  others : t.project.forget s.recording.id = s.project.forget s.recording.id
  mirrors : s.project.Mirrors s.recording → t.project.Mirrors t.recording

theorem Accounts.refl (s : Session) : s.Accounts s := ⟨rfl, rfl, id⟩

theorem Accounts.trans (first : s.Accounts t) (second : t.Accounts u) : s.Accounts u where
  run := second.run.trans first.run
  others := by
    have others := second.others
    rw [first.run] at others
    exact others.trans first.others
  mirrors mirrors := second.mirrors (first.mirrors mirrors)

theorem Accounts.unlinked (h : s.Accounts t) : t.project.unlinked = s.project.unlinked :=
  Project.unlinked_of_forget h.others

/-! ## One change -/

/-- A change that captures nothing of the project and links nothing. -/
theorem Accounts.unnoticed (run : t.recording.id = s.recording.id) (project : t.project = s.project)
    (home : t.recording.home? = s.recording.home?) : s.Accounts t where
  run := run
  others := by rw [project]
  mirrors mirrors := by
    unfold Project.Mirrors
    rw [run, project, home]
    exact mirrors

/-- A change that captures one thing of the project and links it. -/
theorem Accounts.captured {place : Place} {target : LinkTarget}
    (run : t.recording.id = s.recording.id)
    (project : t.project = s.project.link ⟨s.recording.id, target⟩ place)
    (there : s.project.HasPlace place) (new : s.recording.home? target = none)
    (home : ∀ other, t.recording.home? other =
      if other = target then some place else s.recording.home? other) : s.Accounts t where
  run := run
  others := by rw [project, Project.forget_link]
  mirrors mirrors at_ := by
    obtain ⟨once, exact⟩ := mirrors at_
    rw [run, project, Project.targets_link there]
    constructor
    · refine List.Nodup.append once (by split <;> simp) ?_
      intro other old added
      split at added
      · rw [List.mem_singleton.1 added, exact, new] at old
        cases old
      · cases added
    · intro other
      rw [List.mem_append, exact, home]
      by_cases same : other = target
      · subst same
        rw [if_pos rfl, new, Option.some.injEq]
        by_cases here : at_ = place
        · simp [here]
        · simp [here, Ne.symm here]
      · rw [if_neg same]
        split <;> simp [same]

/-- A change of how calls went. -/
theorem Accounts.amended {r : Recording} (same : s.recording.SameHeads r)
    (run : r.id = s.recording.id) : s.Accounts { s with recording := r } :=
  .unnoticed run rfl same.home?

/-- What an object knows of calls and generators changes. -/
theorem Accounts.altered (s : Session) (id : ObjectId) {f : ObjectKind → ObjectKind}
    (keeps : ObjectKind.KeepsHome f) : s.Accounts (s.record (·.modifyKind id f)) :=
  .unnoticed rfl rfl (Recording.home?_modifyKind _ id keeps)

/-! ## Recording values -/

theorem pushStray_accounts (s : Session) (v : Value) : s.Accounts (s.pushStray v).1 := by
  refine .unnoticed rfl rfl (funext fun target => ?_)
  refine (Recording.home?_pushObject s.recording v rfl target).trans ?_
  split
  · rename_i new
    rw [new, Recording.home?_newObject]
    rfl
  · rfl

/-- An object on which nothing was done yet is linked if it is an instance. -/
theorem pushKnown_accounts (s : Session) (v : Value) {kind : ObjectKind} (unused : kind.IsUnused)
    (there : ∀ cls, kind.class? = some cls → s.project.HasPlace (.class cls)) :
    s.Accounts (s.pushKnown v kind).1 := by
  have unmade : kind.activation? = none := by
    cases kind with
    | generator => exact unused.1
    | _ => rfl
  have home (target : LinkTarget) := Recording.home?_pushObject s.recording v unmade target
  cases kind with
  | user cls initCall uses =>
    exact .captured rfl rfl (there cls rfl) (Recording.home?_newObject _) home
  | _ =>
    refine .unnoticed rfl rfl (funext fun target => (home target).trans ?_)
    split
    · rename_i new
      rw [new, Recording.home?_newObject]
      rfl
    · rfl

/-- The class of what a value becomes is one of the project. -/
theorem hasPlace_of_build {p : Project} {v : Value} {ids : List ObjectId} {cls : ClassId}
    (h : ((p.outline v).build ids).class? = some cls) : p.HasPlace (.class cls) := by
  unfold Project.outline at h
  split at h
  · cases h
  · split at h
    · rename_i found
      cases h
      exact Project.hasPlace_of_findClass found
    · unfold Value.plainOutline at h
      split at h
      all_goals first | cases h | skip
      split at h
      · cases h
      · split at h <;> cases h

/-- Recording the members of a list one after the other accounts for them, if recording each one
does. -/
theorem thread_accounts {α : Type} {step : Session → α → Session × ObjectId} {l : List α}
    (each : ∀ a ∈ l, ∀ s : Session, s.Accounts (step s a).1) (s : Session) :
    s.Accounts (thread step s l).1 := by
  induction l generalizing s with
  | nil => exact .refl s
  | cons a rest ih =>
    rw [thread_cons]
    exact (each a List.mem_cons_self s).trans
      (ih (fun b mem => each b (List.mem_cons_of_mem _ mem)) _)

theorem serializeWithin_accounts (around : List Handle) (s : Session) (v : Value) :
    s.Accounts (s.serializeWithin around v).1 := by
  -- parts are smaller than what they are part of
  induction h : sizeOf v using Nat.strongRecOn generalizing v s around with
  | _ size ih =>
    rw [serializeWithin_eq]
    split
    · exact .refl s
    · split
      · exact pushStray_accounts s v
      · have parts := thread_accounts (l := (s.project.outline v).parts)
          (fun w mem s => ih (sizeOf w)
            (h ▸ Value.sizeOf_lt_of_mem_held (Project.mem_held_of_mem_parts mem))
            (v.handle :: around) s w rfl) s
        refine parts.trans (pushKnown_accounts _ v (isUnused_build _) fun cls eq => ?_)
        exact (Project.hasPlace_congr parts.unlinked _).2 (hasPlace_of_build eq)

theorem serialize_accounts (s : Session) (v : Value) : s.Accounts (s.serialize v).1 :=
  serializeWithin_accounts [] s v

theorem serializeArguments_accounts (s : Session) (args : List (String × Value)) :
    s.Accounts (s.serializeArguments args).1 :=
  thread_accounts (fun v _ s => serialize_accounts s v) s

theorem makerOf_accounts (s : Session) (definition : Definition) (receiver : Option Value) :
    s.Accounts (s.makerOf definition receiver).1 := by
  unfold makerOf
  split
  · exact .refl s
  · rename_i receiver
    have recorded := serialize_accounts s receiver
    dsimp only
    split
    · exact recorded
    · split <;> exact recorded
  · exact .refl s

/-! ## Recording calls -/

/-- A call of a method or a resumption captures nothing that is linked. -/
theorem pushCall_accounts (s : Session) (kind : CallKind) (other : kind ≠ .function)
    (definition : Definition) (input : Arguments) (caller : Option CallId) :
    s.Accounts (s.record fun r => (r.pushCall kind definition input caller).1) := by
  refine .unnoticed (Recording.id_pushCall ..) rfl (funext fun target => ?_)
  refine (Recording.home?_pushCall ..).trans ?_
  split
  · rename_i new
    rw [new, Recording.home?_newCall]
    cases kind with
    | function => exact absurd rfl other
    | method | resumption => rfl
  · rfl

theorem callFunction_accounts {function : FunctionId}
    (there : s.project.HasPlace (.function function)) (args : List (String × Value))
    (caller : Option CallId) : s.Accounts (s.callFunction function args caller).1 := by
  have recorded := serializeArguments_accounts s args
  have there := (Project.hasPlace_congr recorded.unlinked _).2 there
  have project : (s.callFunction function args caller).1.project =
      (s.serializeArguments args).1.project.link
        ⟨(s.serializeArguments args).1.recording.id,
          .call ⟨(s.serializeArguments args).1.recording.calls.size⟩⟩ (.function function) := by
    simp only [callFunction, linkFunction, Recording.id_pushCall, Recording.pushCall_id]
    rfl
  exact recorded.trans
    (.captured (Recording.id_pushCall ..) project there (Recording.home?_newCall _)
      (Recording.home?_pushCall _ .function (.function function) (s.serializeArguments args).2
        caller))

theorem callMethod_accounts (s : Session) (method : MethodId) (receiver : Value)
    (args : List (String × Value)) (caller : Option CallId) :
    s.Accounts (s.callMethod method receiver args caller).1 := by
  have first := serialize_accounts s receiver
  unfold callMethod
  dsimp only
  split
  · exact first
  · split
    · have second := first.trans (serializeArguments_accounts (s.serialize receiver).1 args)
      have called := second.trans (pushCall_accounts _ (.method (s.serialize receiver).2) nofun
        (.method method) ((s.serialize receiver).1.serializeArguments args).2 caller)
      split
      · exact called
      · exact called.trans (.altered _ _ (ObjectKind.keepsHome_addCall ..))
    · exact first

/-- A function that is told to be the maker of a generator is the one that is resumed. -/
theorem definition_of_makerOf {definition : Definition} {receiver : Option Value}
    {function : FunctionId} (h : (s.makerOf definition receiver).2 = .ok (.function function)) :
    definition = .function function := by
  unfold makerOf at h
  split at h
  · cases h
    rfl
  · dsimp only at h
    split at h
    · cases h
    · split at h <;> cases h
  · cases h

theorem activate_accounts {generator : ObjectId} {o : Object} {calls : List CallId}
    (found : s.recording.object? generator = some o) (unmade : o.kind = .generator none calls)
    {definition : Definition}
    (there : ∀ function, definition = .function function → s.project.HasPlace (.function function))
    (args : List (String × Value)) (receiver : Option Value) :
    s.Accounts (s.activate generator definition args receiver).1 := by
  have first := makerOf_accounts s definition receiver
  have taken := makerOf_takes s definition receiver
  have named := @definition_of_makerOf s definition receiver
  unfold activate
  split
  · rename_i eq
    rw [eq] at first
    exact first
  · rename_i t maker eq
    rw [eq] at first taken named
    have second := first.trans (serializeArguments_accounts t args)
    have still := (serializeArguments_takes t args).object? (taken.object? found)
    have home := Recording.home?_activate still unmade
      ⟨definition, (t.serializeArguments args).2, maker⟩
    have new := Recording.home?_of_unmade still unmade
    dsimp only
    split
    · rename_i function
      refine second.trans (.captured rfl rfl ?_ new home)
      exact (Project.hasPlace_congr second.unlinked _).2 (there function (named rfl))
    · rename_i owner
      have made : (t.serializeArguments args).1.Accounts
          ((t.serializeArguments args).1.record (·.modifyKind generator
            (·.activate ⟨definition, (t.serializeArguments args).2, .userObject owner⟩))) := by
        refine .unnoticed rfl rfl (funext fun target => (home target).trans ?_)
        split
        · rename_i same
          rw [same, new]
          rfl
        · rfl
      exact (second.trans made).trans (.altered _ _ (ObjectKind.keepsHome_addGenerator generator))

theorem resume_accounts (generator : Value) {definition : Definition}
    (there : ∀ function, definition = .function function → s.project.HasPlace (.function function))
    (args : List (String × Value)) (receiver : Option Value) (caller : Option CallId) :
    s.Accounts (s.resume generator definition args receiver caller).1 := by
  have first := serialize_accounts s generator
  have resumed (t : Session) (id : ObjectId) := (pushCall_accounts t (.resumption id) nofun
    definition .empty caller).trans
      (.altered _ id (ObjectKind.keepsHome_addResumption ⟨t.recording.calls.size⟩))
  unfold resume
  dsimp only
  split
  · rename_i activation calls eq
    obtain ⟨o, found, eq⟩ := Option.map_eq_some_iff.1 eq
    cases activation with
    | some activation =>
      dsimp only
      rw [Recording.pushCall_id]
      exact first.trans (resumed _ _)
    | none =>
      have second := first.trans (activate_accounts found eq (fun function same =>
        (Project.hasPlace_congr first.unlinked _).2 (there function same)) args receiver)
      dsimp only
      split
      · exact second
      · rw [Recording.pushCall_id]
        exact second.trans (resumed _ _)
  · exact first

/-! ## Operations -/

theorem attempt_accounts (step : Recording → Except Fault Recording)
    (amends : ∀ r, step s.recording = .ok r → s.recording.SameHeads r ∧ r.id = s.recording.id) :
    s.Accounts (Recorder.attempt s step) := by
  unfold Recorder.attempt
  split
  · rename_i r answer
    obtain ⟨same, run⟩ := amends r answer
    exact .amended same run
  · exact .refl s

theorem dropTrailing_accounts (s : Session) (id : ObjectId) :
    s.Accounts (s.record (·.dropTrailing id)) := by
  have dropped := Accounts.altered s id ObjectKind.keepsHome_dropResumption
  unfold record Recording.dropTrailing
  dsimp only
  split
  · exact .refl s
  · split
    · rename_i r detached
      have home : r.home? = _ := (Recording.sameHeads_detach detached).home?
      exact dropped.trans (.unnoticed (Recording.id_detach detached :) rfl home)
    · exact dropped.trans (.unnoticed rfl rfl rfl)

theorem finish_accounts (s : Session) (isExhausted : Value → Bool) :
    s.Accounts (s.finish isExhausted) := by
  unfold Session.finish record Recording.finish
  dsimp only
  split
  · exact .refl s
  · have all : s.Accounts ⟨s.project, (s.recording.exhausted isExhausted).foldl
        Recording.dropTrailing s.recording⟩ :=
      List.foldlRecOn (motive := fun r => s.Accounts ⟨s.project, r⟩) _ _ (.refl s)
        fun r done x _ => done.trans (dropTrailing_accounts ⟨s.project, r⟩ x)
    exact all.trans (.unnoticed rfl rfl rfl)

/-- An empty recording is mirrored by a project without links of it. -/
theorem mirrors_empty {p : Project} {run : RunId} (none : ∀ place, p.targets run place = []) :
    p.Mirrors (.empty run) := by
  intro place
  rw [Recording.empty, none]
  refine ⟨List.nodup_nil, fun target => iff_of_false List.not_mem_nil ?_⟩
  intro home
  cases target <;> cases home

theorem erase_accounts (s : Session) : s.Accounts s.erase where
  run := rfl
  others := Project.forget_forget ..
  mirrors _ := mirrors_empty fun place => Project.targets_forget _ _ place

/-- Every operation on what the project defines accounts for what it captures. -/
theorem perform_accounts {op : Operation} (defined : op.IsDefinedIn s.project) :
    s.Accounts (s.perform op) := by
  cases op with
  | serialize v => exact serialize_accounts s v
  | callFunction function args caller =>
    exact callFunction_accounts (Project.hasPlace_of_function? defined) args caller
  | callMethod method receiver args caller =>
    exact callMethod_accounts s method receiver args caller
  | resume generator definition args receiver caller =>
    refine resume_accounts generator ?_ args receiver caller
    rintro function rfl
    exact Project.hasPlace_of_function? defined
  | setOutcome id outcome =>
    refine attempt_accounts (·.setOutcome id outcome) fun r answer =>
      ⟨Recording.sameHeads_setOutcome answer, ?_⟩
    obtain ⟨c, -, h⟩ := bind_eq_ok.1 answer
    rw [← pure_eq_ok.1 h]
    rfl
  | clearOutcome id =>
    refine attempt_accounts (·.clearOutcome id) fun r answer =>
      ⟨Recording.sameHeads_clearOutcome answer, ?_⟩
    obtain ⟨c, -, h⟩ := bind_eq_ok.1 answer
    rw [← pure_eq_ok.1 h]
    rfl
  | complete id =>
    refine attempt_accounts (·.complete id) fun r answer =>
      ⟨Recording.sameHeads_complete answer, ?_⟩
    obtain ⟨c, -, h⟩ := bind_eq_ok.1 answer
    rw [← pure_eq_ok.1 h]
    rfl
  | detach id =>
    exact attempt_accounts (·.detach id) fun r answer =>
      ⟨Recording.sameHeads_detach answer, Recording.id_detach answer⟩
  | addEffect change owner =>
    exact .amended (Recording.sameHeads_pushEffect ..) (Recording.id_pushEffect ..)
  | finish isExhausted => exact finish_accounts s isExhausted
  | erase => exact erase_accounts s

end Session

end Reenact
