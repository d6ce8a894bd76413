import Mathlib.Data.List.Find
import Reenact.Proofs.Recording.Captured

/-!
# Where one fact is kept twice

That a call was made on an instance is kept with the call and with the instance; that a generator was
made by an instance, with both; and that a call resumed a generator, with both again. The list of
captured calls tells once more which calls there are. `Session.CrossRefers` says that all these agree:
what an instance or a generator tells of its calls can be read off the list of captured calls, and
what an instance tells of its generators off the generators.

**The law** (`crossRefers_performAll`): in every session that operations lead to, whatever their order
and whichever of them are refused, the two sides agree. Ending the recording takes a resumption out of
both sides at once.
-/

namespace Reenact

namespace Use

/-- The call, where it is one. -/
def call? : Use → Option CallId
  | call id => some id
  | generator _ => none

/-- The generator, where it is one. -/
def generator? : Use → Option ObjectId
  | call _ => none
  | generator id => some id

end Use

/-- Whether the definition is the constructor of a class. -/
def Project.isConstructor (p : Project) : Definition → Bool
  | .function _ => false
  | .method id =>
    match p.method? id with
    | .ok m => m.isConstructor
    | .error _ => false

namespace Session

variable {s t : Session} {id : ObjectId}

/-- Whether a call is one of a constructor. -/
def isConstructorCall (s : Session) (id : CallId) : Bool :=
  ((s.recording.call? id).map Call.definition).any s.project.isConstructor

/-- What the instance `id` tells agrees with the captured calls and with the generators. -/
structure InstanceAgrees (s : Session) (id : ObjectId) (initCall : Option CallId)
    (uses : List Use) : Prop where
  /-- Its calls are the captured calls whose receiver it is, in order. -/
  calls : uses.filterMap Use.call? = s.recording.callsOf (.method id)
  /-- It was made by the first of them that calls a constructor. -/
  made : initCall = (s.recording.callsOf (.method id)).find? s.isConstructorCall
  once : (uses.filterMap Use.generator?).Nodup
  /-- Its generators are those made by it. -/
  generators : ∀ g, g ∈ uses.filterMap Use.generator? ↔
    s.recording.maker? g = some (.userObject id)

/-- What the generator `id` tells agrees with the captured calls. -/
structure GeneratorAgrees (s : Session) (id : ObjectId) (activation : Option Activation)
    (calls : List CallId) : Prop where
  /-- Its resumptions are the captured calls that resume it, in order. -/
  resumptions : calls = s.recording.callsOf (.resumption id)
  /-- It is made before it is resumed. -/
  activated : calls ≠ [] → activation.isSome

/-- What instances and generators tell agrees with the rest of the recording. -/
structure CrossRefers (s : Session) : Prop where
  instances : ∀ {id o cls initCall uses}, s.recording.object? id = some o →
    o.kind = .user cls initCall uses → InstanceAgrees s id initCall uses
  generators : ∀ {id o activation calls}, s.recording.object? id = some o →
    o.kind = .generator activation calls → GeneratorAgrees s id activation calls

/-- What keeps the two sides agreeing: besides the lists of calls, the instances that made generators
are there. -/
structure KeepsBooks (s : Session) : Prop extends CrossRefers s where
  lists : s.recording.Lists
  makers : ∀ {g x}, s.recording.maker? g = some (.userObject x) → s.recording.HasObject x

/-! ## What agreement depends on -/

theorem InstanceAgrees.congr {initCall : Option CallId} {uses : List Use}
    (h : InstanceAgrees s id initCall uses)
    (calls : t.recording.callsOf (.method id) = s.recording.callsOf (.method id))
    (constructors : ∀ c ∈ s.recording.captured, t.isConstructorCall c = s.isConstructorCall c)
    (makers : ∀ g, t.recording.maker? g = some (.userObject id) ↔
      s.recording.maker? g = some (.userObject id)) : InstanceAgrees t id initCall uses where
  calls := h.calls.trans calls.symm
  made := by
    rw [h.made, calls]
    exact List.find?_congr fun c mem => (constructors c (Recording.mem_callsOf.1 mem).1).symm
  once := h.once
  generators g := (h.generators g).trans (makers g).symm

theorem GeneratorAgrees.congr {activation : Option Activation} {calls : List CallId}
    (h : GeneratorAgrees s id activation calls)
    (same : t.recording.callsOf (.resumption id) = s.recording.callsOf (.resumption id)) :
    GeneratorAgrees t id activation calls where
  resumptions := h.resumptions.trans same.symm
  activated := h.activated

/-- Both sessions tell the same of captured calls and of the makers of generators. -/
structure TellsSame (s t : Session) : Prop where
  calls : ∀ kind, kind ≠ .function → t.recording.callsOf kind = s.recording.callsOf kind
  constructors : ∀ c ∈ s.recording.captured, t.isConstructorCall c = s.isConstructorCall c
  makers : ∀ g, t.recording.maker? g = s.recording.maker? g

theorem InstanceAgrees.tells {initCall : Option CallId} {uses : List Use}
    (h : InstanceAgrees s id initCall uses) (same : s.TellsSame t) :
    InstanceAgrees t id initCall uses :=
  h.congr (same.calls _ nofun) same.constructors fun g => by rw [same.makers]

theorem GeneratorAgrees.tells {activation : Option Activation} {calls : List CallId}
    (h : GeneratorAgrees s id activation calls) (same : s.TellsSame t) :
    GeneratorAgrees t id activation calls :=
  h.congr (same.calls _ nofun)

/-- Where the objects stay and the same is told, the two sides still agree. -/
theorem CrossRefers.tells (h : CrossRefers s) (objects : t.recording.objects = s.recording.objects)
    (same : s.TellsSame t) : CrossRefers t where
  instances found kind := by
    rw [Recording.object?, objects] at found
    exact (h.instances found kind).tells same
  generators found kind := by
    rw [Recording.object?, objects] at found
    exact (h.generators found kind).tells same

theorem isConstructorCall_congr (project : t.project.unlinked = s.project.unlinked) {c : CallId}
    (definitions : (t.recording.call? c).map Call.definition =
      (s.recording.call? c).map Call.definition) :
    t.isConstructorCall c = s.isConstructorCall c := by
  have same : t.project.isConstructor = s.project.isConstructor := by
    funext definition
    cases definition with
    | function => rfl
    | method method =>
      simp only [Project.isConstructor]
      rw [Project.method?_congr project]
  rw [isConstructorCall, definitions, same, isConstructorCall]

/-! ## One lemma for each change -/

/-- A new generator was not made yet. -/
theorem maker?_takes (taken : s.Takes [] t) (g : ObjectId) :
    t.recording.maker? g = s.recording.maker? g := by
  cases old : s.recording.object? g with
  | some o => rw [Recording.maker?_of_object? (taken.object? old), Recording.maker?_of_object? old]
  | none =>
    cases new : t.recording.object? g with
    | none => rw [Recording.maker?, new, Recording.maker?, old]
    | some o =>
      have unused := taken.isUnused old new
      rw [Recording.maker?_of_object? new, Recording.maker?, old]
      cases kind : o.kind with
      | generator activation calls =>
        rw [kind] at unused
        rw [unused.1]
        rfl
      | _ => rfl

theorem call?_takes (taken : s.Takes [] t) (c : CallId) :
    t.recording.call? c = s.recording.call? c := by
  rw [Recording.call?, taken.sameCalls.calls, Recording.call?]

theorem callsOf_takes (taken : s.Takes [] t) (kind : CallKind) :
    t.recording.callsOf kind = s.recording.callsOf kind :=
  Recording.callsOf_congr taken.sameCalls.captured (fun c => by rw [call?_takes taken]) kind

theorem tellsSame_takes (taken : s.Takes [] t) : s.TellsSame t where
  calls kind _ := callsOf_takes taken kind
  constructors c _ := isConstructorCall_congr taken.unlinked (by rw [call?_takes taken])
  makers := maker?_takes taken

/-- Nothing names an instance that was not there, and it names nothing. -/
theorem KeepsBooks.newInstance (h : KeepsBooks s) (taken : s.Takes [] t)
    (old : s.recording.object? id = none) : InstanceAgrees t id none [] := by
  have none : t.recording.callsOf (.method id) = [] :=
    (callsOf_takes taken _).trans (h.lists.callsOf_eq_nil rfl old)
  refine ⟨none.symm, by rw [none]; rfl, List.nodup_nil, fun g => ?_⟩
  refine iff_of_false List.not_mem_nil fun made => ?_
  rw [maker?_takes taken] at made
  obtain ⟨o, there⟩ := h.makers made
  rw [old] at there
  cases there

theorem KeepsBooks.newGenerator (h : KeepsBooks s) (taken : s.Takes [] t)
    (old : s.recording.object? id = none) : GeneratorAgrees t id none [] where
  resumptions := ((callsOf_takes taken _).trans (h.lists.callsOf_eq_nil rfl old)).symm
  activated some := absurd rfl some

theorem KeepsBooks.takes (h : KeepsBooks s) (taken : s.Takes [] t) : KeepsBooks t where
  lists := h.lists.congr taken.sameCalls.captured (fun c => by rw [call?_takes taken])
    fun _ there => there.imp fun _ found => taken.object? found
  makers made := by
    rw [maker?_takes taken] at made
    exact (h.makers made).imp fun _ found => taken.object? found
  instances {x} o cls initCall uses found kind := by
    cases old : s.recording.object? x with
    | some o' =>
      obtain rfl := Option.some.inj ((taken.object? old).symm.trans found)
      exact (h.instances old kind).tells (tellsSame_takes taken)
    | none =>
      have unused := taken.isUnused old found
      rw [kind] at unused
      obtain ⟨rfl, rfl⟩ := unused
      exact h.newInstance taken old
  generators {x} o activation calls found kind := by
    cases old : s.recording.object? x with
    | some o' =>
      obtain rfl := Option.some.inj ((taken.object? old).symm.trans found)
      exact (h.generators old kind).tells (tellsSame_takes taken)
    | none =>
      have unused := taken.isUnused old found
      rw [kind] at unused
      obtain ⟨rfl, rfl⟩ := unused
      exact h.newGenerator taken old

/-- A change of how calls went, or of the links of the project. -/
theorem KeepsBooks.amends (h : KeepsBooks s) (objects : t.recording.objects = s.recording.objects)
    (captured : t.recording.captured = s.recording.captured)
    (kinds : ∀ c, (t.recording.call? c).map Call.kind = (s.recording.call? c).map Call.kind)
    (definitions : ∀ c,
      (t.recording.call? c).map Call.definition = (s.recording.call? c).map Call.definition)
    (project : t.project.unlinked = s.project.unlinked) : KeepsBooks t := by
  have makers := Recording.maker?_congr objects
  have tells : s.TellsSame t :=
    ⟨fun kind _ => Recording.callsOf_congr captured kinds kind,
      fun c _ => isConstructorCall_congr project (definitions c), makers⟩
  have there (x : ObjectId) (old : s.recording.HasObject x) : t.recording.HasObject x := by
    rw [Recording.hasObject_iff, objects]
    exact Recording.hasObject_iff.1 old
  exact ⟨h.toCrossRefers.tells objects tells, h.lists.congr captured kinds there,
    fun made => there _ (h.makers (by rwa [makers] at made))⟩

theorem KeepsBooks.callsFunction (h : KeepsBooks s) (project : t.project = s.project)
    {definition : Definition} {input : Arguments} {caller : Option CallId}
    (eq : t.recording = (s.recording.pushCall .function definition input caller).1) :
    KeepsBooks t := by
  have objects : t.recording.objects = s.recording.objects := by
    rw [eq, Recording.objects_pushCall]
  have makers := Recording.maker?_congr objects
  have tells : s.TellsSame t := by
    refine ⟨fun kind other => ?_, fun c mem => ?_, makers⟩
    · rw [eq, Recording.callsOf_pushCall h.lists.listed, if_neg (Ne.symm other), List.append_nil]
    · refine isConstructorCall_congr (by rw [project]) ?_
      rw [eq]
      exact Recording.definition_pushCall h.lists _ _ _ _ mem
  exact
    { toCrossRefers := h.toCrossRefers.tells objects tells
      lists := by
        rw [eq]
        refine h.lists.pushCall ?_ ..
        rintro x ⟨⟩
      makers := by
        intro g x made
        rw [makers] at made
        rw [eq]
        exact (h.makers made).mono (Recording.grows_pushCall ..) }

/-- The second session came from the first by adding a call on an object, which learned of it. -/
structure AddsCall (s t : Session) (x : ObjectId) (added : CallKind) (definition : Definition)
    (f : ObjectKind → ObjectKind) : Prop where
  lists : t.recording.Lists
  callsOf : ∀ kind, t.recording.callsOf kind = s.recording.callsOf kind ++
    if added = kind then [⟨s.recording.calls.size⟩] else []
  constructors : ∀ c ∈ s.recording.captured, t.isConstructorCall c = s.isConstructorCall c
  newest : t.isConstructorCall ⟨s.recording.calls.size⟩ = s.project.isConstructor definition
  makers : ∀ g, t.recording.maker? g = s.recording.maker? g
  objects : ∀ y, t.recording.object? y =
    if y = x then (s.recording.object? x).map fun o => { o with kind := f o.kind }
    else s.recording.object? y

theorem addsCall (h : s.recording.Lists) (project : t.project = s.project) {x : ObjectId} {o : Object}
    (found : s.recording.object? x = some o) {added : CallKind} (subject : added.subject? = some x)
    {definition : Definition} {input : Arguments} {caller : Option CallId}
    {f : ObjectKind → ObjectKind} (keeps : ∀ kind, (f kind).activation? = kind.activation?)
    (eq : t.recording =
      (s.recording.pushCall added definition input caller).1.modifyKind x f) :
    AddsCall s t x added definition f := by
  have objects := Recording.objects_pushCall s.recording added definition input caller
  exact
    { lists := by
        rw [eq]
        refine (h.pushCall ?_ definition input caller).modifyKind x f
        intro y made
        cases subject.symm.trans made
        exact .of_object? found
      callsOf := fun kind => by
        rw [eq]
        exact Recording.callsOf_pushCall h.listed ..
      constructors := by
        intro c mem
        refine isConstructorCall_congr (by rw [project]) ?_
        rw [eq]
        exact Recording.definition_pushCall h _ _ _ _ mem
      newest := by
        have newest : t.recording.call? ⟨s.recording.calls.size⟩ =
            some (s.recording.newCall added definition input caller) := by
          rw [eq]
          exact (Recording.call?_pushCall ..).trans (if_pos rfl)
        rw [isConstructorCall, newest, project]
        rfl
      makers := fun g => by
        rw [eq, Recording.maker?_modifyKind _ _ keeps, Recording.maker?_congr objects]
      objects := by
        intro y
        have same (z : ObjectId) :
            (s.recording.pushCall added definition input caller).1.object? z =
              s.recording.object? z := by
          rw [Recording.object?, objects, Recording.object?]
        rw [eq, Recording.object?_modifyKind, same, same] }

/-- Only the object that a call is made on has to learn of it. -/
theorem KeepsBooks.addsCall (h : KeepsBooks s) {x : ObjectId} {o : Object} {added : CallKind}
    {definition : Definition} {f : ObjectKind → ObjectKind}
    (adds : AddsCall s t x added definition f) (found : s.recording.object? x = some o)
    (subject : added.subject? = some x)
    (ownInstance : ∀ cls initCall uses, f o.kind = .user cls initCall uses →
      InstanceAgrees t x initCall uses)
    (ownGenerator : ∀ activation calls, f o.kind = .generator activation calls →
      GeneratorAgrees t x activation calls) : KeepsBooks t := by
  have others {kind : CallKind} {y : ObjectId} (of : kind.subject? = some y) (differ : ¬y = x) :
      t.recording.callsOf kind = s.recording.callsOf kind := by
    rw [adds.callsOf, if_neg, List.append_nil]
    rintro rfl
    exact differ (Option.some.inj (of.symm.trans subject))
  exact
    { lists := adds.lists
      makers := by
        intro g y made
        rw [adds.makers] at made
        obtain ⟨p, there⟩ := h.makers made
        rw [Recording.HasObject, adds.objects]
        split
        · exact ⟨_, by rw [found]; rfl⟩
        · exact ⟨p, there⟩
      instances := by
        intro y p cls initCall uses there kind
        rw [adds.objects] at there
        split at there
        · rename_i same
          subst same
          rw [found] at there
          cases there
          exact ownInstance cls initCall uses kind
        · rename_i differ
          exact (h.instances there kind).congr (others rfl differ) adds.constructors
            fun g => by rw [adds.makers]
      generators := by
        intro y p activation calls there kind
        rw [adds.objects] at there
        split at there
        · rename_i same
          subst same
          rw [found] at there
          cases there
          exact ownGenerator activation calls kind
        · rename_i differ
          exact (h.generators there kind).congr (others rfl differ) }

/-- An instance that learns of a new call on it. -/
theorem InstanceAgrees.addCall {initCall : Option CallId} {uses : List Use} {method : MethodId}
    {m : Method} {f : ObjectKind → ObjectKind} (h : InstanceAgrees s id initCall uses)
    (adds : AddsCall s t id (.method id) (.method method) f)
    (defined : s.project.method? method = .ok m) :
    InstanceAgrees t id
      (if m.isConstructor && initCall.isNone then some ⟨s.recording.calls.size⟩ else initCall)
      (uses ++ [.call ⟨s.recording.calls.size⟩]) := by
  have calls := adds.callsOf (.method id)
  rw [if_pos rfl] at calls
  have first : (s.recording.callsOf (.method id)).find? t.isConstructorCall = initCall := by
    rw [h.made]
    exact List.find?_congr fun c mem => adds.constructors c (Recording.mem_callsOf.1 mem).1
  have newest : t.isConstructorCall ⟨s.recording.calls.size⟩ = m.isConstructor := by
    rw [adds.newest, Project.isConstructor, defined]
  refine ⟨?_, ?_, ?_, fun g => ?_⟩
  · rw [List.filterMap_append, h.calls, calls]
    rfl
  · rw [calls, List.find?_append, first, List.find?_singleton, newest]
    cases initCall with
    | none => rw [Option.isNone_none, Bool.and_true, Option.none_or]
    | some init => rw [Option.isNone_some, Bool.and_false, Option.some_or]; rfl
  · rw [List.filterMap_append]
    exact (List.append_nil _).symm ▸ h.once
  · rw [List.filterMap_append, adds.makers]
    exact (List.append_nil _).symm ▸ h.generators g

theorem KeepsBooks.callsMethod (h : KeepsBooks s) (project : t.project = s.project)
    {receiver : ObjectId} {o : Object} {method : MethodId} {m : Method} {input : Arguments}
    {caller : Option CallId} (found : s.recording.object? receiver = some o)
    (isUser : o.kind.isUser) (defined : s.project.method? method = .ok m)
    (eq : t.recording =
      (s.recording.pushCall (.method receiver) (.method method) input caller).1.modifyKind receiver
        (·.addCall ⟨s.recording.calls.size⟩ m.isConstructor)) : KeepsBooks t := by
  have adds := Session.addsCall h.lists project found rfl (fun kind => by cases kind <;> rfl) eq
  cases old : o.kind with
  | user cls initCall uses =>
    refine h.addsCall adds found rfl (fun cls' initCall' uses' kind => ?_)
      fun activation calls kind => ?_
    · rw [old] at kind
      cases kind
      exact (h.instances found old).addCall adds defined
    · rw [old] at kind
      cases kind
  | _ =>
    rw [old] at isUser
    cases isUser

theorem KeepsBooks.resumes (h : KeepsBooks s) (project : t.project = s.project)
    {generator : ObjectId} {o : Object} {activation : Activation} {calls : List CallId}
    {definition : Definition} {caller : Option CallId}
    (found : s.recording.object? generator = some o)
    (made : o.kind = .generator (some activation) calls)
    (eq : t.recording =
      (s.recording.pushCall (.resumption generator) definition .empty caller).1.modifyKind generator
        (·.addResumption ⟨s.recording.calls.size⟩)) : KeepsBooks t := by
  have adds := Session.addsCall h.lists project found rfl (fun kind => by cases kind <;> rfl) eq
  have agrees := h.generators found made
  refine h.addsCall adds found rfl (fun cls initCall uses kind => ?_) fun activation' calls' kind => ?_
  · rw [made] at kind
    cases kind
  · rw [made] at kind
    cases kind
    refine ⟨?_, fun _ => rfl⟩
    rw [adds.callsOf, if_pos rfl, ← agrees.resumptions]

theorem KeepsBooks.activates (h : KeepsBooks s) (project : t.project = s.project)
    {generator : ObjectId} {o : Object} {calls : List CallId}
    (found : s.recording.object? generator = some o) (unmade : o.kind = .generator none calls)
    {definition : Definition} {input : Arguments} {function : FunctionId}
    (eq : t.recording = s.recording.modifyKind generator
      (·.activate ⟨definition, input, .function function⟩)) : KeepsBooks t := by
  have makers (g x : ObjectId) : t.recording.maker? g = some (.userObject x) ↔
      s.recording.maker? g = some (.userObject x) := by
    rw [eq, Recording.maker?_activate found unmade]
    split
    · rename_i same
      rw [same, Recording.maker?_of_unmade found unmade]
      exact iff_of_false nofun nofun
    · rfl
  have constructors (c : CallId) : t.isConstructorCall c = s.isConstructorCall c :=
    isConstructorCall_congr (by rw [project]) (by rw [eq]; rfl)
  have callsOf (kind : CallKind) : t.recording.callsOf kind = s.recording.callsOf kind := by
    rw [eq]
    rfl
  exact
    { lists := eq ▸ h.lists.modifyKind ..
      makers := by
        intro g y made
        rw [eq]
        exact (h.makers ((makers g y).1 made)).mono (Recording.grows_modifyKind ..)
      instances := by
        intro y p cls initCall uses there kind
        rw [eq, Recording.object?_activate found unmade] at there
        split at there
        · cases there
          cases kind
        · exact (h.instances there kind).congr (callsOf _) (fun c _ => constructors c) (makers · y)
      generators := by
        intro y p activation calls' there kind
        rw [eq, Recording.object?_activate found unmade] at there
        split at there
        · rename_i same
          cases there
          cases kind
          have agrees := h.generators found unmade
          exact ⟨by rw [same, callsOf, ← agrees.resumptions], fun _ => rfl⟩
        · exact (h.generators there kind).congr (callsOf _) }

/-- An instance that learns of a generator that it made. -/
theorem InstanceAgrees.addGenerator {initCall : Option CallId} {uses : List Use} {g : ObjectId}
    (h : InstanceAgrees s id initCall uses) (unmade : s.recording.maker? g = none)
    (calls : t.recording.callsOf (.method id) = s.recording.callsOf (.method id))
    (constructors : ∀ c, t.isConstructorCall c = s.isConstructorCall c)
    (makers : ∀ other, t.recording.maker? other =
      if other = g then some (.userObject id) else s.recording.maker? other) :
    InstanceAgrees t id initCall (uses ++ [.generator g]) := by
  refine ⟨?_, ?_, ?_, fun other => ?_⟩
  · rw [List.filterMap_append, h.calls, calls]
    exact List.append_nil _
  · rw [h.made, calls]
    exact List.find?_congr fun c _ => (constructors c).symm
  · rw [List.filterMap_append, List.nodup_append]
    refine ⟨h.once, List.nodup_singleton _, fun old mem new last same => ?_⟩
    -- the instance did not know of the generator before
    obtain rfl := List.mem_singleton.1 last
    rw [same, h.generators, unmade] at mem
    cases mem
  · rw [List.filterMap_append, List.mem_append, h.generators, makers]
    split
    · rename_i same
      exact iff_of_true (.inr (List.mem_singleton.2 same)) rfl
    · rename_i differ
      exact or_iff_left fun mem => differ (List.mem_singleton.1 mem)

/-- The second session came from the first by making the generator, on an instance that learned of
it. -/
structure MakesOn (s t : Session) (generator owner : ObjectId) (made learned : Object) : Prop where
  lists : t.recording.Lists
  callsOf : ∀ kind, t.recording.callsOf kind = s.recording.callsOf kind
  constructors : ∀ c, t.isConstructorCall c = s.isConstructorCall c
  makers : ∀ g, t.recording.maker? g =
    if g = generator then some (.userObject owner) else s.recording.maker? g
  objects : ∀ y, t.recording.object? y =
    if y = owner then some learned
    else if y = generator then some made
    else s.recording.object? y
  grows : s.recording.Grows t.recording

theorem makesOn (h : s.recording.Lists) (project : t.project = s.project)
    {generator owner : ObjectId} {o p : Object} {calls : List CallId} {cls : ClassId}
    {initCall : Option CallId} {uses : List Use}
    (found : s.recording.object? generator = some o) (unmade : o.kind = .generator none calls)
    (there : s.recording.object? owner = some p) (old : p.kind = .user cls initCall uses)
    {definition : Definition} {input : Arguments}
    (eq : t.recording = (s.recording.modifyKind generator
      (·.activate ⟨definition, input, .userObject owner⟩)).modifyKind owner
        (·.addGenerator generator)) :
    MakesOn s t generator owner
      { o with kind := .generator (some ⟨definition, input, .userObject owner⟩) calls }
      { p with kind := .user cls initCall (uses ++ [.generator generator]) } := by
  -- the owner is an instance, and so not the generator
  have differ : owner ≠ generator := by
    rintro rfl
    rw [found] at there
    cases there
    cases unmade.symm.trans old
  exact
    { lists := eq ▸ (h.modifyKind ..).modifyKind ..
      callsOf := fun kind => by
        rw [eq]
        rfl
      constructors := fun c => isConstructorCall_congr (by rw [project]) (by rw [eq]; rfl)
      makers := fun g => by
        rw [eq, Recording.maker?_modifyKind _ _ (fun kind => by cases kind <;> rfl),
          Recording.maker?_activate found unmade]
      objects := by
        intro y
        rw [eq, Recording.object?_modifyKind, Recording.object?_activate found unmade,
          Recording.object?_activate found unmade, if_neg differ, there, Option.map_some, old]
        rfl
      grows := by
        rw [eq]
        exact (Recording.grows_modifyKind ..).trans (Recording.grows_modifyKind ..) }

theorem KeepsBooks.activatesOn (h : KeepsBooks s) (project : t.project = s.project)
    {generator owner : ObjectId} {o p : Object} {calls : List CallId}
    (found : s.recording.object? generator = some o) (unmade : o.kind = .generator none calls)
    (there : s.recording.object? owner = some p) (isUser : p.kind.isUser)
    {definition : Definition} {input : Arguments}
    (eq : t.recording = (s.recording.modifyKind generator
      (·.activate ⟨definition, input, .userObject owner⟩)).modifyKind owner
        (·.addGenerator generator)) : KeepsBooks t := by
  obtain ⟨cls, initCall, uses, old⟩ : ∃ cls initCall uses, p.kind = .user cls initCall uses := by
    cases old : p.kind with
    | user cls initCall uses => exact ⟨cls, initCall, uses, rfl⟩
    | _ =>
      rw [old] at isUser
      cases isUser
  have makes := makesOn h.lists project found unmade there old eq
  have none := Recording.maker?_of_unmade found unmade
  exact
    { lists := makes.lists
      makers := by
        intro g y made
        rw [makes.makers] at made
        refine Recording.HasObject.mono makes.grows ?_
        split at made
        · cases made
          exact .of_object? there
        · exact h.makers made
      instances := by
        intro y q cls' initCall' uses' there' kind
        rw [makes.objects] at there'
        split at there'
        · rename_i same
          subst same
          cases there'
          cases kind
          exact (h.instances there old).addGenerator none (makes.callsOf _) makes.constructors
            makes.makers
        · rename_i other
          split at there'
          · cases there'
            cases kind
          · refine (h.instances there' kind).congr (makes.callsOf _)
              (fun c _ => makes.constructors c) fun g => ?_
            rw [makes.makers]
            split
            · rename_i same
              rw [same, none]
              refine iff_of_false (fun made => ?_) nofun
              cases made
              exact other rfl
            · rfl
      generators := by
        intro y q activation calls' there' kind
        rw [makes.objects] at there'
        split at there'
        · cases there'
          cases kind
        · split at there'
          · rename_i same
            cases there'
            cases kind
            have agrees := h.generators found unmade
            exact ⟨by rw [same, makes.callsOf, ← agrees.resumptions], fun _ => rfl⟩
          · exact (h.generators there' kind).congr (makes.callsOf _) }

/-- Every change of an operation on what the project defines keeps the books. -/
theorem KeepsBooks.does {op : Operation} (h : KeepsBooks s) (defined : op.IsDefinedIn s.project)
    (step : op.Does s t) : KeepsBooks t := by
  cases step with
  | takes taken => exact h.takes taken
  | links same => exact h.amends rfl rfl (fun _ => rfl) (fun _ => rfl) same
  | amends same => exact h.amends same.objects same.captured same.kinds same.definitions rfl
  | calls kind definition input caller alone =>
    cases alone defined
    exact h.callsFunction rfl rfl
  | callsMethod found isUser method input caller => exact h.callsMethod rfl found isUser method rfl
  | activates found unmade definition input function => exact h.activates rfl found unmade rfl
  | activatesOn found unmade there isUser definition input =>
    exact h.activatesOn rfl found unmade there isUser rfl
  | resumes found made definition caller => exact h.resumes rfl found made rfl

/-! ## The end of a recording -/

/-- The second session came from the first by taking the last resumption out of the generator `x` and
out of the list of captured calls. -/
structure DropsResumption (s t : Session) (x : ObjectId) (o : Object)
    (activation : Option Activation) (calls : List CallId) : Prop where
  lists : t.recording.Lists
  own : t.recording.callsOf (.resumption x) = calls.dropLast
  others : ∀ kind, kind ≠ .resumption x → t.recording.callsOf kind = s.recording.callsOf kind
  constructors : ∀ c, t.isConstructorCall c = s.isConstructorCall c
  makers : ∀ g, t.recording.maker? g = s.recording.maker? g
  objects : ∀ y, t.recording.object? y =
    if y = x then some { o with kind := .generator activation calls.dropLast }
    else s.recording.object? y

theorem dropsResumption (h : KeepsBooks s) (project : t.project = s.project) {x : ObjectId}
    {last : CallId} (trailing : s.recording.trailingResumption? x = some last)
    (eq : t.recording = s.recording.dropTrailing x) :
    ∃ o activation calls, s.recording.object? x = some o ∧ o.kind = .generator activation calls ∧
      DropsResumption s t x o activation calls := by
  obtain ⟨o, activation, calls, found, kind, final⟩ :=
    Recording.getLast_of_trailingResumption? trailing
  obtain ⟨d, same, dropped⟩ := Recording.dropTrailing_sameHeads trailing
  rw [dropped] at eq
  have agrees := h.generators found kind
  have kinds (c : CallId) : (t.recording.call? c).map Call.kind =
      (s.recording.call? c).map Call.kind := by
    rw [eq]
    exact same.kinds c
  have definitions (c : CallId) : (t.recording.call? c).map Call.definition =
      (s.recording.call? c).map Call.definition := by
    rw [eq]
    exact same.definitions c
  have captured : t.recording.captured = s.recording.captured.filter (· != last) := by
    rw [eq]
    exact congrArg (List.filter _) same.captured
  have objects : t.recording.objects = (s.recording.modifyKind x (·.dropResumption)).objects := by
    rw [eq]
    exact same.objects
  have callsOf (k : CallKind) : t.recording.callsOf k =
      (s.recording.callsOf k).filter (· != last) := by
    simp only [Recording.callsOf, captured, kinds, List.filter_filter, Bool.and_comm]
  refine ⟨o, activation, calls, found, kind, ?_⟩
  exact
    { lists := by
        rw [eq]
        refine Recording.Lists.filter ((h.lists.modifyKind x _).congr same.captured same.kinds ?_) _
        intro y old
        rw [Recording.hasObject_iff, same.objects]
        exact Recording.hasObject_iff.1 old
      own := by
        rw [callsOf, ← agrees.resumptions]
        exact Recording.filter_bne_last (agrees.resumptions ▸ h.lists.once.filter _) final
      others := by
        -- what is taken out is a resumption of this generator, and of nothing else
        intro k other
        rw [callsOf, List.filter_eq_self]
        intro c mem
        refine bne_iff_ne.2 ?_
        rintro rfl
        have listed := List.mem_of_getLast? final
        rw [agrees.resumptions] at listed
        have kind := (Recording.mem_callsOf.1 mem).2
        rw [(Recording.mem_callsOf.1 listed).2] at kind
        exact other (Option.some.inj kind).symm
      constructors := fun c => isConstructorCall_congr (by rw [project]) (definitions c)
      makers := by
        intro g
        rw [Recording.maker?_congr objects, Recording.maker?_modifyKind]
        exact fun kind => by cases kind <;> rfl
      objects := by
        intro y
        rw [Recording.object?, objects, ← Recording.object?, Recording.object?_modifyKind, found,
          Option.map_some, kind]
        rfl }

theorem KeepsBooks.dropTrailing (h : KeepsBooks s) (project : t.project = s.project) {x : ObjectId}
    (eq : t.recording = s.recording.dropTrailing x) : KeepsBooks t := by
  cases trailing : s.recording.trailingResumption? x with
  | none =>
    rw [Recording.dropTrailing, trailing] at eq
    refine h.amends ?_ ?_ (fun _ => ?_) (fun _ => ?_) (by rw [project]) <;> rw [eq]
  | some last =>
    obtain ⟨o, activation, calls, found, kind, drops⟩ := dropsResumption h project trailing eq
    exact
      { lists := drops.lists
        makers := by
          intro g y made
          rw [drops.makers] at made
          obtain ⟨p, there⟩ := h.makers made
          rw [Recording.HasObject, drops.objects]
          split
          · exact ⟨_, rfl⟩
          · exact ⟨p, there⟩
        instances := by
          intro y p cls initCall uses found' kind'
          rw [drops.objects] at found'
          split at found'
          · cases found'
            cases kind'
          · have other : CallKind.method y ≠ .resumption x := by
              intro eq
              cases eq
            exact (h.instances found' kind').congr (drops.others _ other)
              (fun c _ => drops.constructors c) fun g => by rw [drops.makers]
        generators := by
          intro y p activation' calls' found' kind'
          rw [drops.objects] at found'
          split at found'
          · rename_i eq
            subst eq
            cases found'
            cases kind'
            refine ⟨drops.own.symm, fun some => (h.generators found kind).activated ?_⟩
            rintro rfl
            exact some rfl
          · rename_i differ
            refine (h.generators found' kind').congr (drops.others _ ?_)
            rintro ⟨⟩
            exact differ rfl }

theorem KeepsBooks.finish (h : KeepsBooks s) (isExhausted : Value → Bool) :
    KeepsBooks (s.finish isExhausted) := by
  unfold Session.finish record Recording.finish
  dsimp only
  split
  · exact h
  · have all : KeepsBooks ⟨s.project, (s.recording.exhausted isExhausted).foldl
        Recording.dropTrailing s.recording⟩ :=
      List.foldlRecOn (motive := fun r => KeepsBooks ⟨s.project, r⟩) _ _ h
        fun r books x _ => books.dropTrailing rfl rfl
    exact all.amends rfl rfl (fun _ => rfl) (fun _ => rfl) rfl

/-- A session that has recorded nothing. -/
theorem keepsBooks_start (project : Project) (run : RunId) : KeepsBooks (start project run) := by
  have none (x : ObjectId) : (start project run).recording.object? x = Option.none := rfl
  have lists : (start project run).recording.Lists := by
    refine ⟨?_, List.nodup_nil, fun found _ => ?_⟩
    · rintro c ⟨⟩
    · cases found
  exact
    { lists
      makers := by
        intro g x made
        cases made
      instances := fun found _ => by cases (none _).symm.trans found
      generators := fun found _ => by cases (none _).symm.trans found }

/-! ## Operations -/

theorem unlinked_doesAll {op : Operation} (h : DoesAll op s t) :
    t.project.unlinked = s.project.unlinked := by
  induction h with
  | refl => rfl
  | tail _ step ih =>
    refine Eq.trans ?_ ih
    cases step with
    | takes taken => exact taken.unlinked
    | links same => exact same
    | _ => rfl

theorem KeepsBooks.doesAll {op : Operation} (h : KeepsBooks s) (defined : op.IsDefinedIn s.project)
    (all : DoesAll op s t) : KeepsBooks t := by
  induction all with
  | refl => exact h
  | tail done step ih => exact ih.does (defined.congr (unlinked_doesAll done).symm) step

theorem KeepsBooks.perform {op : Operation} (h : KeepsBooks s)
    (defined : op.IsDefinedIn s.project) : KeepsBooks (s.perform op) := by
  have changes (keeps : op.keepsHandles) := h.doesAll defined (perform_does s op keeps)
  cases op with
  | finish isExhausted => exact h.finish isExhausted
  | erase => exact keepsBooks_start ..
  | _ => exact changes rfl

theorem unlinked_perform (s : Session) (op : Operation) :
    (s.perform op).project.unlinked = s.project.unlinked := by
  have changes (keeps : op.keepsHandles) := unlinked_doesAll (perform_does s op keeps)
  cases op with
  | finish isExhausted => rfl
  | erase => exact Project.unlinked_forget ..
  | _ => exact changes rfl

/-! ## Agreement -/

namespace Counted

/-- A class whose instances make generators. -/
def project : Project where
  root := "/p"
  functions := #[]
  classes := #[⟨"Box", "m", [⟨"__init__", ["self"], false⟩, ⟨"items", ["self"], true⟩], [], []⟩]

def box : Value := .object ⟨.observed 1, "Box", "m", []⟩

def items : Value := .generator ⟨.observed 2, "generator", builtinModule, []⟩ ⟨"a"⟩

def null : Value := .literal ⟨.observed 3, "NoneType", builtinModule, []⟩ .none

/-- A box is made, its items are asked for, there are none, and the recording ends. -/
def ops : List Operation := [
  .callMethod ⟨⟨0⟩, 0⟩ box [] none,
  .resume items (.method ⟨⟨0⟩, 1⟩) [] (some box) none,
  .serialize null,
  .setOutcome ⟨1⟩ (.returned ⟨2⟩),
  .finish fun _ => true]

theorem defined : ∀ op ∈ ops, op.IsDefinedIn project := by
  simp only [ops, List.forall_mem_cons]
  exact ⟨⟨_, rfl⟩, ⟨_, rfl⟩, trivial, trivial, trivial, fun _ mem => (List.not_mem_nil mem).elim⟩

end Counted

/-- What instances and generators tell of calls, and of one another, agrees with what the rest of the
recording tells, in every session that operations on what the project defines lead to. -/
theorem crossRefers_performAll (project : Project) (run : RunId) (ops : List Operation)
    (defined : ∀ op ∈ ops, op.IsDefinedIn project) :
    CrossRefers ((start project run).performAll ops) := by
  have all : KeepsBooks ((start project run).performAll ops) ∧
      ((start project run).performAll ops).project.unlinked = project.unlinked :=
    performAll_induction (P := fun t => KeepsBooks t ∧ t.project.unlinked = project.unlinked)
      ⟨keepsBooks_start project run, rfl⟩ fun op mem t ⟨books, same⟩ =>
        ⟨books.perform ((defined op mem).congr same.symm),
          (unlinked_perform t op).trans same⟩
  exact all.1.toCrossRefers

theorem crossRefers_performAll_counted : (∀ op ∈ Counted.ops, op.IsDefinedIn Counted.project) ∧
    CrossRefers ((start Counted.project ⟨0⟩).performAll Counted.ops) :=
  ⟨Counted.defined, crossRefers_performAll Counted.project ⟨0⟩ Counted.ops Counted.defined⟩

/-- Of the two calls the constructor call is left. -/
example : ((start Counted.project ⟨0⟩).performAll Counted.ops).recording.captured = [⟨0⟩] := by
  decide +kernel

end Session

end Reenact
