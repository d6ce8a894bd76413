import Mathlib.Data.List.Flatten
import Mathlib.Data.List.Permutation
import Reenact.Proofs.Setup.Listing
import Reenact.Proofs.Trace.Ownership

/-!
# Objects in two places

An object that is not named is written out wherever something refers to it, so an object with an
identity may be left without a name only if nothing but one place refers to it. A plan decides by the
uses that it counts.

**The law** (`count_references_le`): every reference that is written out is counted, apart from three
kinds (`uncounted`), so an object without a name is referred to at most once apart from these. Not
counted are the object whose method made a generator, the arguments of a constructor call that is itself
the call under test, and those of one that was seen after that call had ended. An instance that is
given to the call along with a generator that its method made is written twice
(`not_count_references_le_one`).

Counting is one injection: the constructor calls of different objects are different calls, because
objects name only calls that were made on them.
-/

namespace Reenact

namespace Setup

open Recording (call_eq_ok)
open scoped List

variable {r : Recording} {c : Call} {objects : List Object} {effects : List Effect} {plan : Plan}
  {x : ObjectId} {o : Object}

/-! ## References and uses -/

/-- The objects that a closure lists. -/
def listedObjects (r : Recording) (plan : Plan) : List Object :=
  plan.closure.filterMap fun
    | .object x => r.object? x
    | .effect _ | .grown _ => none

/-- The side effects that a closure lists. -/
def listedEffects (r : Recording) (plan : Plan) : List Effect :=
  plan.effects.filterMap r.effect?

/-- The objects that a test of the call refers to, once for each place: its arguments and its receiver,
what the listed objects are made again from, and what the listed side effects refer to. -/
def references (r : Recording) (c : Call) (plan : Plan) : List ObjectId :=
  c.input.values ++ c.receiver.toList ++ (listedObjects r plan).flatMap (ingredients r) ++
    (listedEffects r plan).flatMap Effect.referenced

/-- Whether a constructor call counts beside the call under test: it is another call, and it started
before the call under test ended. -/
def isBeside (c init : Call) : Bool := init.id != c.id && isBefore c.completedAt init.moment

/-- What an object is made again from without being counted as a use. -/
def uncounted (r : Recording) (c : Call) (o : Object) : List ObjectId :=
  ((constructorCall? r o).toList.filter fun init => !isBeside c init).flatMap
    (fun init => init.input.values) ++ activationOwner o

/-- The constructor call of an object if it counts beside the call under test. -/
def constructorBeside (r : Recording) (c : Call) (o : Object) : List Call :=
  (constructorCall? r o).toList.filter (isBeside c)

/-- What an object is made again from is what it uses, what its constructor call uses, and what is not
counted. -/
theorem ingredients_perm (r : Recording) (c : Call) (o : Object) :
    ingredients r o ~ usesOfObject o ++
      ((constructorBeside r c o).flatMap (fun init => init.input.values) ++ uncounted r c o) := by
  have arguments : usesOfObject o = o.parts ++ activationArguments o := by
    unfold usesOfObject activationArguments
    cases o.kind.activation? <;> simp
  let beside := (constructorBeside r c o).flatMap fun init => init.input.values
  let late := ((constructorCall? r o).toList.filter fun init => !isBeside c init).flatMap
    fun init => init.input.values
  have inputs : constructorInputs r o ~ beside ++ late := by
    rw [← List.flatMap_append]
    exact (List.filter_append_perm (isBeside c) _).symm.flatMap_right _
  calc ingredients r o
    _ = o.parts ++ (constructorInputs r o ++ activationArguments o ++ activationOwner o) := rfl
    _ ~ o.parts ++ (activationArguments o ++ constructorInputs r o ++ activationOwner o) :=
      (List.perm_append_comm.append_right _).append_left _
    _ ~ o.parts ++ (activationArguments o ++ (beside ++ late) ++ activationOwner o) :=
      ((inputs.append_left _).append_right _).append_left _
    _ = usesOfObject o ++ (beside ++ uncounted r c o) := by
      simp only [arguments, uncounted, late, List.append_assoc]

/-- Using more uses no object less. -/
theorem count_flatMap_le {α : Type} {first second : List α} (sub : first <+~ second)
    (uses : α → List ObjectId) : (first.flatMap uses).count x ≤ (second.flatMap uses).count x := by
  obtain ⟨chosen, same, inside⟩ := sub
  rw [← (same.flatMap_right uses).count_eq x]
  exact (inside.flatMap uses).count_le x

/-! ## Constructor calls -/

theorem constructorCall?_eq_some (h : r.Sound) {init : Call}
    (eq : constructorCall? r o = some init) :
    ∃ cls uses, o.kind = .user cls (some init.id) uses ∧ r.call? init.id = some init := by
  unfold constructorCall? at eq
  split at eq
  · rename_i cls id uses kind
    obtain rfl := (h.calls eq).1
    exact ⟨cls, uses, kind, eq⟩
  · cases eq

theorem mem_constructorBeside {init : Call} : init ∈ constructorBeside r c o ↔
    constructorCall? r o = some init ∧ init.id ≠ c.id ∧
      isBefore c.completedAt init.moment = true := by
  simp only [constructorBeside, isBeside, List.mem_filter, Option.mem_toList, Bool.and_eq_true,
    bne_iff_ne]

/-- Different objects have different constructor calls. -/
theorem eq_of_constructorCall? (h : r.Sound) (named : r.NamesOwnCalls) {a b : Object} {init : Call}
    (foundA : r.object? a.id = some a) (foundB : r.object? b.id = some b)
    (first : constructorCall? r a = some init) (second : constructorCall? r b = some init) :
    a.id = b.id := by
  have made (o : Object) (found : r.object? o.id = some o)
      (eq : constructorCall? r o = some init) : r.HasCallOn o.id init.id := by
    obtain ⟨cls, uses, kind, -⟩ := constructorCall?_eq_some h eq
    refine named o.id o found init.id ?_
    rw [kind]
    exact List.mem_append_left _ (Option.mem_toList.2 rfl)
  exact (made a foundA first).unique (made b foundB second)

theorem mem_callsBefore {bound : Option Moment} {earlier : List Call}
    (eq : callsBefore r bound = .ok earlier) {d : Call} :
    d ∈ earlier ↔ (∃ id ∈ r.captured, r.call? id = some d) ∧ isBefore bound d.moment = true := by
  obtain ⟨captured, all, made⟩ := bind_eq_ok.1 eq
  rw [pure_eq_ok] at made
  subst made
  rw [List.mem_filter]
  refine and_congr_left fun _ => ?_
  constructor
  · intro mem
    obtain ⟨id, listed, found⟩ := mem_of_mapM_eq_ok all mem
    exact ⟨id, listed, call_eq_ok.1 found⟩
  · rintro ⟨id, listed, found⟩
    obtain ⟨d', mem, found'⟩ := exists_of_mapM_eq_ok all listed
    rw [call_eq_ok.1 found'] at found
    cases found
    exact mem

namespace IsPlanOf

variable {calls : List Call}

/-! ## What is listed -/

theorem nodup_listedObjects (h : r.Sound) (isPlan : IsPlanOf r calls objects effects plan) :
    (listedObjects r plan).Nodup := by
  refine (isPlan.closure_ordered h).nodup.filterMap ?_
  intro a b o first second
  cases a with
  | object x =>
    cases b with
    | object y => rw [← (h.objects first).1, (h.objects second).1]
    | effect => cases second
    | grown => cases second
  | effect => cases first
  | grown => cases first

theorem listedObjects_subset (isPlan : IsPlanOf r calls objects effects plan) :
    listedObjects r plan ⊆ objects := by
  intro o mem
  obtain ⟨entry, listed, found⟩ := List.mem_filterMap.1 mem
  cases entry with
  | object x =>
    obtain ⟨o', member, -, rfl⟩ := isPlan.object_mem_closure.1 listed
    obtain rfl := isPlan.recorded.object_eq member found
    exact member
  | effect => cases found
  | grown => cases found

theorem nodup_listedEffects (h : r.Sound) (isPlan : IsPlanOf r calls objects effects plan) :
    (listedEffects r plan).Nodup := by
  refine (isPlan.isFaithful h).repeatsOnce.filterMap ?_
  intro a b e first second
  rw [← (h.effects first).1, (h.effects second).1]

theorem listedEffects_subset (h : r.Sound) (isPlan : IsPlanOf r calls objects effects plan) :
    listedEffects r plan ⊆ effects := by
  intro e mem
  obtain ⟨y, listed, found⟩ := List.mem_filterMap.1 mem
  obtain ⟨entry, there, made⟩ := List.mem_filterMap.1 listed
  rw [effect?_eq_some.1 made] at there
  obtain rfl := (h.effects found).1
  exact (isPlan.effect_mem there found).1

/-! ## Counting -/

/-- The constructor calls of listed objects are different calls. -/
theorem nodup_constructorsBeside (h : r.Sound) (named : r.NamesOwnCalls)
    (isPlan : IsPlanOf r calls objects effects plan) :
    ((listedObjects r plan).flatMap (constructorBeside r c)).Nodup := by
  have recorded (o : Object) (mem : o ∈ listedObjects r plan) : r.object? o.id = some o :=
    isPlan.recorded.made o (isPlan.listedObjects_subset mem)
  refine List.nodup_flatMap.2 ⟨fun o _ => ?_, ?_⟩
  · refine List.Nodup.filter _ ?_
    cases constructorCall? r o with
    | none => exact .nil
    | some init => exact List.nodup_singleton init
  · refine (isPlan.nodup_listedObjects h).imp_of_mem ?_
    intro a b memA memB differ init first second
    have same := eq_of_constructorCall? h named (recorded a memA) (recorded b memB)
      (mem_constructorBeside.1 first).1 (mem_constructorBeside.1 second).1
    have found := recorded a memA
    rw [same, recorded b memB] at found
    exact differ (Option.some.inj found).symm

/-- The call under test and the constructor calls beside it are different calls, and all of them are
counted. -/
theorem calls_subperm (h : r.Sound) (named : r.NamesOwnCalls) (lists : r.ListsConstructors)
    (isPlan : IsPlanOf r [c] objects effects plan) (captured : c.id ∈ r.captured)
    (found : r.call? c.id = some c) {earlier : List Call}
    (eq : callsBefore r (horizon [c]) = .ok earlier) :
    c :: (listedObjects r plan).flatMap (constructorBeside r c) <+~ earlier := by
  refine List.subperm_of_subset (List.nodup_cons.2 ⟨?_, ?_⟩) (List.cons_subset.2 ⟨?_, ?_⟩)
  · intro mem
    obtain ⟨o, -, mem⟩ := List.mem_flatMap.1 mem
    exact (mem_constructorBeside.1 mem).2.1 rfl
  · exact isPlan.nodup_constructorsBeside h named
  · refine (mem_callsBefore eq).2 ⟨⟨c.id, captured, found⟩, isBefore_eq_true.2 ?_⟩
    exact (h.calls found).2.ended
  · intro init mem
    obtain ⟨o, listed, mem⟩ := List.mem_flatMap.1 mem
    obtain ⟨made, -, before⟩ := mem_constructorBeside.1 mem
    obtain ⟨cls, uses, kind, there⟩ := constructorCall?_eq_some h made
    have recorded := isPlan.recorded.made o (isPlan.listedObjects_subset listed)
    exact (mem_callsBefore eq).2
      ⟨⟨init.id, lists o.id o cls init.id uses recorded kind, there⟩, before⟩

/-- Every reference of a test is counted as a use, or is one of those that are not counted. -/
theorem count_references (h : r.Sound) (named : r.NamesOwnCalls) (lists : r.ListsConstructors)
    (isPlan : IsPlanOf r [c] objects effects plan) (captured : c.id ∈ r.captured)
    (found : r.call? c.id = some c) {earlier : List Call}
    (eq : callsBefore r (horizon [c]) = .ok earlier) (x : ObjectId) :
    (references r c plan).count x ≤ (earlier.flatMap usesOfCall ++ objects.flatMap usesOfObject ++
      effects.flatMap Effect.referenced).count x +
        ((listedObjects r plan).flatMap (uncounted r c)).count x := by
  have listed : listedObjects r plan <+~ objects :=
    List.subperm_of_subset (isPlan.nodup_listedObjects h) isPlan.listedObjects_subset
  have repeated : listedEffects r plan <+~ effects :=
    List.subperm_of_subset (isPlan.nodup_listedEffects h) (isPlan.listedEffects_subset h)
  let inputs (init : Call) : List ObjectId := init.input.values
  have made : ((listedObjects r plan).flatMap (ingredients r)).count x =
      ((listedObjects r plan).flatMap usesOfObject).count x +
        ((((listedObjects r plan).flatMap (constructorBeside r c)).flatMap inputs).count x +
          ((listedObjects r plan).flatMap (uncounted r c)).count x) := by
    rw [(List.Perm.flatMap_left _ fun o _ => ingredients_perm r c o).count_eq,
      ← (List.flatMap_append_perm ..).count_eq, List.count_append,
      ← (List.flatMap_append_perm ..).count_eq, List.count_append, List.flatMap_assoc]
  have calls : (c.input.values ++ c.receiver.toList).count x +
      (((listedObjects r plan).flatMap (constructorBeside r c)).flatMap inputs).count x ≤
        (earlier.flatMap usesOfCall).count x := by
    refine Nat.le_trans ?_
      (count_flatMap_le (isPlan.calls_subperm h named lists captured found eq) usesOfCall)
    rw [← List.count_append, List.flatMap_cons]
    refine ((List.sublist_append_left ..).append
      (List.Sublist.flatMap_right _ fun init _ => ?_)).count_le x
    exact (List.sublist_append_left ..).trans (List.sublist_append_left ..)
  have ofObjects := count_flatMap_le (x := x) listed usesOfObject
  have ofEffects := count_flatMap_le (x := x) repeated Effect.referenced
  simp only [references, List.count_append] at calls ⊢
  omega

/-- An object with an identity that is listed without a name is used at most once. -/
theorem count_uses_le_one {calls : List Call} (isPlan : IsPlanOf r calls objects effects plan)
    {earlier : List Call} (taken : plan.all.flatMap Entry.unfold =
      plan.closure.filter (isKept (namedAmong earlier objects effects)))
    (mem : .object x ∈ plan.closure) (found : r.object? x = some o)
    (identity : o.kind.isImmutable = false) (unnamed : x ∉ plan.named) :
    (earlier.flatMap usesOfCall ++ objects.flatMap usesOfObject ++
      effects.flatMap Effect.referenced).count x ≤ 1 := by
  obtain ⟨o', member, -, rfl⟩ := isPlan.object_mem_closure.1 mem
  obtain rfl := isPlan.recorded.object_eq member found
  have isMember : (objects.map Object.id).contains o.id = true :=
    List.contains_iff_mem.2 (List.mem_map_of_mem member)
  have counted : (allUses earlier objects effects).count o.id =
      (earlier.flatMap usesOfCall ++ objects.flatMap usesOfObject ++
        effects.flatMap Effect.referenced).count o.id := List.count_filter isMember
  rw [← counted]
  -- an object that is used twice would have a name
  refine Nat.le_of_not_lt fun twice => unnamed ((isPlan.mem_named_iff taken).2 ⟨mem, ?_⟩)
  refine List.mem_map_of_mem (List.mem_filter.2 ⟨member, ?_⟩)
  rw [deservesName, identity, decide_eq_true twice, Bool.true_or, Bool.true_or]
  rfl

end IsPlanOf

end Setup

open Setup

namespace Watch

/-! ## An object and a generator that its method made -/

namespace Owned

/-- A project with a function of one parameter, and a class with a generator method. -/
def project : Project where
  root := "/p"
  functions := #[⟨"f", "m", ["x"], false, []⟩]
  classes := #[⟨"Box", "m", [⟨"items", ["self"], true⟩], [], []⟩]

/-- A watch of the project with nothing patched. -/
def watch : Watch := ⟨project, ⟨0⟩, .standard, .default, .empty, []⟩

/-- An instance of the class. -/
def box : Value := .object ⟨.observed 1, "Box", "m", [("items", ⟨11⟩)]⟩

/-- A generator that the method of the instance made. -/
def items : Value := .generator ⟨.observed 2, "generator", "builtins", []⟩ ⟨"a"⟩

/-- A list of both. -/
def both : Value := .sequence ⟨.observed 3, "list", "builtins", []⟩ .list [box, items]

def null : Value := .literal ⟨.observed 4, "NoneType", "builtins", []⟩ .none

def one : Value := .literal ⟨.observed 5, "int", "builtins", []⟩ (.int 1)

/-- A resumption of the generator. -/
def resumption : Frame :=
  ⟨⟨⟨11⟩, "items", "/p/m.py", true, false⟩, ⟨[("self", box)], none, none⟩, some items⟩

/-- The function is given both. -/
def afterwards : Bracketed :=
  .frame ⟨⟨⟨10⟩, "f", "/p/m.py", false, false⟩, ⟨[("x", both)], none, none⟩, none⟩ .done null none
    .done

/-- The generator is resumed before that. -/
def stream : Bracketed := .frame resumption .done one none afterwards

/-- What was recorded of it. -/
def recording : Recording := (watch.recording stream.events).finish fun _ => false

/-- The resumption of the generator. -/
def resumptionCall : Call where
  id := ⟨0⟩
  kind := .resumption ⟨0⟩
  definition := .method ⟨⟨0⟩, 0⟩
  input := .empty
  outcome := some (.returned ⟨2⟩)
  effects := []
  caller := none
  subcalls := []
  moment := ⟨3⟩
  completedAt := some ⟨5⟩

/-- The call of the function. -/
def call : Call where
  id := ⟨1⟩
  kind := .function
  definition := .function ⟨0⟩
  input := .ofList [("x", ⟨3⟩)]
  outcome := some (.returned ⟨4⟩)
  effects := []
  caller := none
  subcalls := []
  moment := ⟨7⟩
  completedAt := some ⟨9⟩

/-- The instance, with the generator that its method made. -/
def boxObject : Object :=
  ⟨⟨1⟩, ⟨2⟩, "box_instance", "Box", "m", .user ⟨0⟩ none [.generator ⟨0⟩]⟩

/-- The same recording, written out. -/
def written : Recording where
  id := ⟨0⟩
  clock := ⟨⟨9⟩⟩
  known := []
  generators := []
  objects := #[
    ⟨⟨0⟩, ⟨1⟩, "generator", "generator", "builtins",
      .generator (some ⟨.method ⟨⟨0⟩, 0⟩, .empty, .userObject ⟨1⟩⟩) [⟨0⟩]⟩,
    boxObject,
    ⟨⟨2⟩, ⟨4⟩, "1", "int", "builtins", .immutable "1" .empty⟩,
    ⟨⟨3⟩, ⟨6⟩, "list", "list", "builtins", .sequence .list [⟨1⟩, ⟨0⟩]⟩,
    ⟨⟨4⟩, ⟨8⟩, "None", "NoneType", "builtins", .immutable "None" .empty⟩]
  calls := #[resumptionCall, call]
  effects := #[]
  captured := [⟨0⟩, ⟨1⟩]
  roots := [⟨0⟩, ⟨1⟩]
  rootEffects := []
  isFinished := true

theorem records : watch.Records stream.events recording := ⟨fun _ => false, .inr rfl⟩

/-- The recorder after the resumption has been opened. -/
def opened : Recorder × Bool :=
  watch.start.observer.opened (watch.start.observer.session.resume items (.method ⟨⟨0⟩, 0⟩) []
    (some box) none)

/-- The tracer after the resumption has been opened. -/
def entered : Tracer Recorder :=
  ((({ watch.start with observer := opened.1 } : Tracer Recorder).enter true).request [⟨11⟩]).1

theorem methodCalled_start :
    watch.start.observer.methodCalled "items" box [] resumption = opened := by
  have resolved : watch.start.observer.resolveMethod "items" box = some ⟨⟨0⟩, 0⟩ :=
    Option.bind_eq_some_iff.2
      ⟨⟨0⟩, by decide +kernel, Project.findMethod_of_own (by decide +kernel)⟩
  rw [Recorder.methodCalled, resolved]
  rfl

/-- The search for a method does not compute, so the first event is taken by hand. -/
theorem step_start : (watch.start.step (.call resumption)).1 = entered := by
  have followed : watch.start.isIgnored resumption = false := by decide +kernel
  have told : watch.start.report resumption =
      ({ watch.start with
          observer := (watch.start.observer.methodCalled "items" box [] resumption).1 },
        (watch.start.observer.methodCalled "items" box [] resumption).2) := rfl
  have descends : opened.2 = true := by decide +kernel
  rw [methodCalled_start, descends] at told
  rw [Tracer.step, Tracer.onCall, followed, told]
  rfl

theorem recording_eq : recording = written := by
  have rest : recording = ((entered.run (.ret one none :: afterwards.events)).observer.session.recording
      ).finish fun _ => false := by
    rw [← step_start]
    rfl
  have generators : recording.generators = written.generators := by
    rw [rest]
    exact List.isEmpty_iff.1 (by decide +kernel)
  rw [rest] at generators ⊢
  exact Recording.ext (by decide +kernel) (by decide +kernel) (by decide +kernel) generators
    (by decide +kernel) (by decide +kernel) (by decide +kernel) (by decide +kernel)
    (by decide +kernel) (by decide +kernel) (by decide +kernel)

/-- The plan of the call, which names nothing. -/
def plan : Plan where
  closure := [.object ⟨0⟩, .object ⟨1⟩, .object ⟨3⟩]
  all := []
  named := []
  uses := [⟨3⟩, ⟨1⟩, ⟨0⟩]

theorem planForCall_written : planForCall written ⟨1⟩ = .ok plan := by cbv

end Owned

/-- For every call captured there is a plan. In a test of the call, an object with an identity that is
listed without a name is referred to at most once, apart from the references that are not counted. -/
theorem count_references_le (w : Watch) (events : List Event) (r : Recording)
    (recorded : w.Records events r) (id : CallId) (c : Call) (captured : id ∈ r.captured)
    (found : r.call? id = some c) :
    ∃ plan, planForCall r id = .ok plan ∧ ∀ x o, .object x ∈ plan.closure →
      r.object? x = some o → o.kind.isImmutable = false → x ∉ plan.named →
        (references r c plan).count x ≤
          ((listedObjects r plan).flatMap (uncounted r c)).count x + 1 := by
  obtain ⟨plan, objects, effects, plan_eq, isPlan⟩ := planForCall_sound recorded.sound found
  obtain ⟨earlier, earlier_eq, taken⟩ := isPlan.naming
  obtain rfl := (recorded.sound.calls found).1
  refine ⟨plan, plan_eq, fun x o mem there identity unnamed => ?_⟩
  have all := isPlan.count_references recorded.sound recorded.namesOwnCalls
    recorded.listsConstructors captured found earlier_eq x
  have once := isPlan.count_uses_le_one taken mem there identity unnamed
  omega

theorem count_references_le_owned : Owned.watch.Records Owned.stream.events Owned.written ∧
    ⟨1⟩ ∈ Owned.written.captured ∧ Owned.written.call? ⟨1⟩ = some Owned.call ∧
    ∃ plan, planForCall Owned.written ⟨1⟩ = .ok plan ∧ ∀ x o, .object x ∈ plan.closure →
      Owned.written.object? x = some o → o.kind.isImmutable = false → x ∉ plan.named →
        (references Owned.written Owned.call plan).count x ≤
          ((listedObjects Owned.written plan).flatMap
            (uncounted Owned.written Owned.call)).count x + 1 :=
  have recorded : Owned.watch.Records Owned.stream.events Owned.written :=
    Owned.recording_eq ▸ Owned.records
  ⟨recorded, by decide, rfl, count_references_le Owned.watch Owned.stream.events Owned.written
    recorded ⟨1⟩ Owned.call (by decide) rfl⟩

/-- An object with an identity may be referred to twice without a name: an instance that is given to
the call under test along with a generator that its method made. -/
theorem not_count_references_le_one : ¬∀ (w : Watch) (b : Bracketed) (r : Recording),
    w.Records b.events r → ∀ id c done plan, id ∈ r.captured → r.call? id = some c →
      c.completedAt = some done → planForCall r id = .ok plan → ∀ x o, .object x ∈ plan.closure →
        r.object? x = some o → o.kind.isImmutable = false → x ∉ plan.named →
          (references r c plan).count x ≤ 1 := by
  intro atMostOnce
  have once := atMostOnce Owned.watch Owned.stream Owned.written (Owned.recording_eq ▸ Owned.records) ⟨1⟩
    Owned.call ⟨9⟩ Owned.plan (by decide) rfl rfl Owned.planForCall_written ⟨1⟩ Owned.boxObject
    (by decide) rfl rfl (by decide)
  have twice : (references Owned.written Owned.call Owned.plan).count ⟨1⟩ = 2 := by decide
  rw [twice] at once
  omega

end Watch

end Reenact
