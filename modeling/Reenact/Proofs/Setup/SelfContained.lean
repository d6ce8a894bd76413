import Reenact.Proofs.Setup.Listing

/-!
# What a closure leaves out

The working set holds all that it takes to make its objects again and to repeat its side effects. The
closure lists of it what was recorded before the last of the calls ended.

**The law** (`closure_isCutInTime`): the cut never separates an object from its parts, nor a side effect
from what it refers to, because these are older. It separates an object from exactly those constructor
arguments, activation arguments and makers that were recorded too late: a generator that is resumed for
the first time after the call under test has ended tells only then what it was made with
(`not_isSelfContained`).
-/

namespace Reenact

namespace Setup

variable {r : Recording} {calls : List Call} {objects : List Object} {effects : List Effect}
  {plan : Plan} {x : ObjectId} {o : Object}

/-- The object was recorded before the last of the calls ended. -/
def IsRecordedInTime (r : Recording) (calls : List Call) (x : ObjectId) : Prop :=
  ∃ o, r.object? x = some o ∧ IsInTime calls o.moment

/-- The closure lists all that it takes to make its objects again and to repeat its side effects. -/
structure Plan.IsSelfContained (r : Recording) (plan : Plan) : Prop where
  ingredients : ∀ x o, .object x ∈ plan.closure → r.object? x = some o →
    ∀ y ∈ ingredients r o, .object y ∈ plan.closure
  referenced : ∀ y e, .effect y ∈ plan.closure → r.effect? y = some e →
    ∀ x ∈ e.referenced, .object x ∈ plan.closure

/-- The closure lists all that it takes, apart from what objects are made again from and was recorded
too late. -/
structure Plan.IsCutInTime (r : Recording) (calls : List Call) (plan : Plan) : Prop where
  parts : ∀ x o, .object x ∈ plan.closure → r.object? x = some o →
    ∀ y ∈ o.parts, .object y ∈ plan.closure
  late : ∀ x o, .object x ∈ plan.closure → r.object? x = some o →
    ∀ y ∈ lateIngredients r o, (.object y ∈ plan.closure ↔ IsRecordedInTime r calls y)
  referenced : ∀ y e, .effect y ∈ plan.closure → r.effect? y = some e →
    ∀ x ∈ e.referenced, .object x ∈ plan.closure

/-- The closure is self-contained when nothing that objects are made again from came too late. -/
theorem Plan.IsCutInTime.isSelfContained_iff (h : plan.IsCutInTime r calls) :
    plan.IsSelfContained r ↔ ∀ x o, .object x ∈ plan.closure → r.object? x = some o →
      ∀ y ∈ lateIngredients r o, IsRecordedInTime r calls y := by
  constructor
  · intro whole x o mem found y late
    exact (h.late x o mem found y late).1
      (whole.ingredients x o mem found y (List.mem_append_right _ late))
  · intro inTime
    refine ⟨fun x o mem found y inside => ?_, h.referenced⟩
    rcases List.mem_append.1 inside with part | late
    · exact h.parts x o mem found y part
    · exact (h.late x o mem found y late).2 (inTime x o mem found y late)

namespace IsPlanOf

/-- What is in the working set of a plan is listed when it was recorded in time. -/
theorem object_mem_closure_iff (isPlan : IsPlanOf r calls objects effects plan)
    (member : ∃ o ∈ objects, o.id = x) :
    .object x ∈ plan.closure ↔ IsRecordedInTime r calls x := by
  constructor
  · intro mem
    obtain ⟨o, listed, inTime, rfl⟩ := isPlan.object_mem_closure.1 mem
    exact ⟨o, isPlan.recorded.made o listed, inTime⟩
  · rintro ⟨o, found, inTime⟩
    obtain ⟨o', listed, rfl⟩ := member
    obtain rfl := isPlan.recorded.object_eq listed found
    exact isPlan.object_mem_closure.2 ⟨_, listed, inTime, rfl⟩

/-- What a listed object is made again from is listed when it was recorded in time. -/
theorem ingredient_mem_closure_iff (isPlan : IsPlanOf r calls objects effects plan)
    (mem : .object x ∈ plan.closure) (found : r.object? x = some o) {y : ObjectId}
    (inside : y ∈ ingredients r o) :
    .object y ∈ plan.closure ↔ IsRecordedInTime r calls y := by
  obtain ⟨o', listed, -, same⟩ := isPlan.object_mem_closure.1 mem
  exact isPlan.object_mem_closure_iff
    (isPlan.isClosed.ingredients x ⟨o', listed, same⟩ o found y inside)

theorem isCutInTime (h : r.Sound) (isPlan : IsPlanOf r calls objects effects plan) :
    plan.IsCutInTime r calls where
  parts x o mem found y part := by
    refine (isPlan.ingredient_mem_closure_iff mem found (List.mem_append_left _ part)).2 ?_
    obtain ⟨piece, there, older⟩ := (h.objects found).2.parts y part
    obtain ⟨o', listed, inTime, rfl⟩ := isPlan.object_mem_closure.1 mem
    obtain rfl := isPlan.recorded.object_eq listed found
    exact ⟨piece, there, inTime.of_before older⟩
  late x o mem found y late :=
    isPlan.ingredient_mem_closure_iff mem found (List.mem_append_right _ late)
  referenced y e mem found x inside := by
    obtain rfl := (h.effects found).1
    exact (isPlan.object_mem_of_referenced h mem found inside).1

end IsPlanOf

end Setup

open Setup

namespace Watch

/-! ## Generators that are resumed too late -/

namespace Late

/-- A project with a function and a generator function of one parameter each. -/
def project : Project where
  root := "/p"
  functions := #[⟨"f", "m", ["x"], false, []⟩, ⟨"count", "m", ["items"], true, []⟩]
  classes := #[]

/-- A watch of the project with nothing patched. -/
def watch : Watch := ⟨project, ⟨0⟩, .standard, .default, .empty, []⟩

def first : Value := .generator ⟨.observed 1, "generator", "builtins", []⟩ ⟨"a"⟩

def second : Value := .generator ⟨.observed 2, "generator", "builtins", []⟩ ⟨"b"⟩

/-- A list of both generators. -/
def both : Value := .sequence ⟨.observed 3, "list", "builtins", []⟩ .list [first, second]

/-- The list that both generators were made with. -/
def items : Value := .sequence ⟨.observed 4, "list", "builtins", []⟩ .list []

def null : Value := .literal ⟨.observed 5, "NoneType", "builtins", []⟩ .none

def one : Value := .literal ⟨.observed 6, "int", "builtins", []⟩ (.int 1)

/-- A resumption of a generator. -/
def resumption (generator : Value) : Frame :=
  ⟨⟨⟨11⟩, "count", "/p/m.py", true, false⟩, ⟨[("items", items)], none, none⟩, some generator⟩

/-- The function is given the generators, and both are resumed afterwards. -/
def stream : Bracketed :=
  .frame ⟨⟨⟨10⟩, "f", "/p/m.py", false, false⟩, ⟨[("x", both)], none, none⟩, none⟩ .done null none
    (.frame (resumption first) .done one none (.frame (resumption second) .done one none .done))

/-- What was recorded of it. -/
def recording : Recording := (watch.recording stream.events).finish fun _ => false

/-- The call of the function. -/
def call : Call where
  id := ⟨0⟩
  kind := .function
  definition := .function ⟨0⟩
  input := .ofList [("x", ⟨2⟩)]
  outcome := some (.returned ⟨3⟩)
  effects := []
  caller := none
  subcalls := []
  moment := ⟨4⟩
  completedAt := some ⟨6⟩

/-- The list of both generators. -/
def bothObject : Object := ⟨⟨2⟩, ⟨3⟩, "list", "list", "builtins", .sequence .list [⟨0⟩, ⟨1⟩]⟩

/-- The first generator, made with the list. -/
def firstObject : Object := ⟨⟨0⟩, ⟨1⟩, "generator", "generator", "builtins",
  .generator (some ⟨.function ⟨1⟩, .ofList [("items", ⟨4⟩)], .function ⟨1⟩⟩) [⟨1⟩]⟩

/-- The list that both generators were made with. -/
def itemsObject : Object := ⟨⟨4⟩, ⟨7⟩, "list", "list", "builtins", .sequence .list []⟩

theorem call_call : recording.call? ⟨0⟩ = some call := by decide +kernel

theorem object_both : recording.object? ⟨2⟩ = some bothObject := by decide +kernel

theorem object_first : recording.object? ⟨0⟩ = some firstObject := by decide +kernel

theorem object_items : recording.object? ⟨4⟩ = some itemsObject := by decide +kernel

theorem records : watch.Records stream.events recording := ⟨fun _ => false, .inr rfl⟩

end Late

/-- For all calls of a recording there is a plan. Its closure lists the parts of its objects and what
its side effects refer to, and of the other things that its objects are made again from those that were
recorded before the last of the calls ended. -/
theorem closure_isCutInTime (w : Watch) (events : List Event) (r : Recording)
    (recorded : w.Records events r) (ids : List CallId) (known : ∀ id ∈ ids, r.HasCall id) :
    ∃ calls plan, ids.mapM r.findCall = .ok calls ∧ planForCalls r ids = .ok plan ∧
      plan.IsCutInTime r calls := by
  obtain ⟨calls, plan, objects, effects, calls_eq, plan_eq, isPlan⟩ :=
    planForCalls_sound recorded.sound known
  exact ⟨calls, plan, calls_eq, plan_eq, isPlan.isCutInTime recorded.sound⟩

theorem closure_isCutInTime_late : Late.watch.Records Late.stream.events Late.recording ∧
    (∀ id ∈ [⟨0⟩], Late.recording.HasCall id) ∧
    ∃ calls plan, [⟨0⟩].mapM Late.recording.findCall = .ok calls ∧
      planForCalls Late.recording [⟨0⟩] = .ok plan ∧ plan.IsCutInTime Late.recording calls :=
  have known : ∀ id ∈ [⟨0⟩], Late.recording.HasCall id :=
    List.forall_mem_singleton.2 ⟨Late.call, Late.call_call⟩
  ⟨Late.records, known,
    closure_isCutInTime Late.watch Late.stream.events Late.recording Late.records [⟨0⟩] known⟩

/-- Not every closure is self-contained: what a generator was made with is left out when the generator
is resumed after the call under test has ended. -/
theorem not_isSelfContained : ¬∀ (w : Watch) (b : Bracketed) (r : Recording),
    w.Records b.events r → ∀ ids plan,
      (∀ id ∈ ids, id ∈ r.captured ∧ ∃ c done, r.call? id = some c ∧ c.completedAt = some done) →
      planForCalls r ids = .ok plan → plan.IsSelfContained r := by
  intro selfContained
  have h : Late.recording.Sound := Late.records.sound
  obtain ⟨plan, objects, effects, plan_eq, isPlan⟩ := planForCall_sound h Late.call_call
  have completed : ∀ id ∈ [⟨0⟩], id ∈ Late.recording.captured ∧
      ∃ c done, Late.recording.call? id = some c ∧ c.completedAt = some done :=
    List.forall_mem_singleton.2 ⟨by decide +kernel, Late.call, ⟨6⟩, Late.call_call, rfl⟩
  have whole := selfContained Late.watch Late.stream Late.recording Late.records [⟨0⟩] plan completed
    plan_eq
  have both : .object ⟨2⟩ ∈ plan.closure :=
    mem_closure_of_startsFrom h Late.call_call rfl isPlan (by decide)
  have first : .object ⟨0⟩ ∈ plan.closure :=
    whole.ingredients ⟨2⟩ Late.bothObject both Late.object_both ⟨0⟩ (by decide +kernel)
  have items : .object ⟨4⟩ ∈ plan.closure :=
    whole.ingredients ⟨0⟩ Late.firstObject first Late.object_first ⟨4⟩ (by decide +kernel)
  -- the list was recorded at moment 7, and the call ended at moment 6
  obtain ⟨o, listed, ⟨c, subject, ended⟩, number⟩ := isPlan.object_mem_closure.1 items
  obtain rfl := isPlan.recorded.object_eq listed (number ▸ Late.object_items)
  obtain rfl := List.mem_singleton.1 subject
  have inTime : Late.itemsObject.moment.before ⟨6⟩ = true := ended ⟨6⟩ rfl
  cases inTime

end Watch

end Reenact
