import Mathlib.Algebra.GroupWithZero.Nat
import Mathlib.Algebra.Order.BigOperators.Group.List
import Mathlib.Algebra.Order.Group.Nat
import Reenact.Proofs.Recording.Captured
import Reenact.Proofs.Recording.Identity
import Reenact.Proofs.Setup.Passing
import Reenact.Proofs.Trace.Continuing
import Reenact.Proofs.Trace.Shape

/-!
# Repeating a mutation

When foreign code changes a container, the receiver and the arguments are recorded as the code is
entered, and the change when it has returned. `replay` is the statement that makes the same call again:
the same operation on the same receiver, with the arguments by position in order and each keyword
argument under its keyword.

The recorded change has no place for keywords, and keyword arguments are among its arguments by position.

**The law** (`replays_iff`): a rendered mutation is the statement that makes the same call again exactly
when the call had no keyword arguments.
-/

namespace Reenact

/-! ## The length of a text -/

/-- The texts in a row, and a separator less than there are texts. -/
theorem length_intercalate (separator : String) (texts : List String) :
    (separator.intercalate texts).length =
      (texts.map String.length).sum + separator.length * (texts.length - 1) := by
  induction texts with
  | nil => simp
  | cons text rest ih =>
    cases rest with
    | nil => simp
    | cons next rest =>
      rw [String.intercalate_cons_cons, String.length_append, String.length_append, ih]
      simp only [List.map_cons, List.sum_cons, List.length_cons, Nat.add_sub_cancel, Nat.mul_add]
      omega

namespace Setup

variable {p : Project} {r : Recording} {names : Naming}

/-! ## The statement that makes the call again -/

/-- The operation on the target with its arguments. Items of mappings are set and deleted in
brackets. -/
def replay (op : Mutation) (target : Snippet) (positional : List Snippet)
    (keyword : List (String × Snippet)) : Snippet :=
  match op, positional, keyword with
  | .dictSetItem, [key, value], [] => (target.followedBy "[" key).followedBy "] = " value
  | .dictDelItem, [key], [] => (target.followedBy "[" key).surround "del " "]"
  | _, _, _ =>
    (Passed.mk positional keyword none none).spell (target.surround "" ("." ++ op.methodName))

/-- Whether the operation is written in brackets when it has that many arguments. -/
def InBrackets (op : Mutation) (count : Nat) : Prop :=
  op = .dictSetItem ∧ count = 2 ∨ op = .dictDelItem ∧ count = 1

/-- An operation that is not written in brackets is written as a call of its method. -/
theorem replay_call {op : Mutation} {positional : List Snippet} {keyword : List (String × Snippet)}
    (method : keyword = [] → ¬InBrackets op positional.length) (target : Snippet) :
    replay op target positional keyword =
      (Passed.mk positional keyword none none).spell (target.surround "" ("." ++ op.methodName)) := by
  unfold replay
  split
  · exact absurd (.inl ⟨rfl, rfl⟩) (method rfl)
  · exact absurd (.inr ⟨rfl, rfl⟩) (method rfl)
  · rfl

/-- A call of a method, as a mutation is written. -/
theorem spell_positional (target : Snippet) (method : String) (codes : List Snippet) :
    (Passed.mk codes [] none none).spell (target.surround "" ("." ++ method)) =
      ((target.surround "" ("." ++ method ++ "(")).followedBy "" (.join ", " codes)).surround
        "" ")" := by
  have all : ((Passed.mk codes [] none none).written false).all = codes := by
    simp [Passed.written, ArgumentList.all]
  simp only [Passed.spell, all, Snippet.surround, Snippet.followedBy, String.append_assoc,
    String.empty_append]

/-- A mutation is written as the operation with all its arguments by position. -/
theorem writeMutation_eq_ok {write : Writer} {op : Mutation} {receiver : ObjectId}
    {args : List ObjectId} {s : Snippet} : writeMutation write op receiver args = .ok s ↔
      ∃ target codes, write receiver = .ok target ∧ args.mapM write = .ok codes ∧
        s = replay op target codes [] := by
  unfold writeMutation
  rw [bind_eq_ok]
  refine exists_congr fun target => ?_
  rw [exists_and_left]
  refine and_congr_right fun _ => ?_
  split
  · rename_i key value
    simp only [bind_eq_ok, mapM_eq_ok, List.forall₂_cons_left_iff, List.forall₂_nil_left_iff]
    constructor
    · rintro ⟨k, first, v, second, eq⟩
      exact ⟨[k, v], ⟨k, [v], first, ⟨v, [], second, rfl, rfl⟩, rfl⟩, (pure_eq_ok.1 eq).symm⟩
    · rintro ⟨_, ⟨k, _, first, ⟨v, _, second, rfl, rfl⟩, rfl⟩, rfl⟩
      exact ⟨k, first, v, second, rfl⟩
  · rename_i key
    simp only [bind_eq_ok, mapM_eq_ok, List.forall₂_cons_left_iff, List.forall₂_nil_left_iff]
    constructor
    · rintro ⟨k, first, eq⟩
      exact ⟨[k], ⟨k, [], first, rfl, rfl⟩, (pure_eq_ok.1 eq).symm⟩
    · rintro ⟨_, ⟨k, _, first, rfl, rfl⟩, rfl⟩
      exact ⟨k, first, rfl⟩
  · rename_i notItem notDeletion
    have method (codes : List Snippet) (written : args.mapM write = .ok codes) :
        ¬InBrackets op codes.length := by
      rw [← (mapM_eq_ok.1 written).length_eq]
      rintro (⟨rfl, two⟩ | ⟨rfl, one⟩)
      · obtain ⟨key, value, rfl⟩ := List.length_eq_two.1 two
        exact notItem key value rfl rfl
      · obtain ⟨key, rfl⟩ := List.length_eq_one_iff.1 one
        exact notDeletion key rfl rfl
    simp only [writeList, bind_eq_ok, pure_eq_ok]
    constructor
    · rintro ⟨_, ⟨codes, written, rfl⟩, rfl⟩
      refine ⟨codes, written, ?_⟩
      rw [replay_call fun _ => method codes written, spell_positional]
    · rintro ⟨codes, written, rfl⟩
      rw [replay_call fun _ => method codes written, spell_positional]
      exact ⟨_, ⟨codes, written, rfl⟩, rfl⟩

/-! ## Keywords that are left out -/

/-- The text of a call with arguments by position and by keyword. -/
theorem length_spell (callee : Snippet) (positional : List Snippet)
    (keyword : List (String × Snippet)) :
    ((Passed.mk positional keyword none none).spell callee).code.length = callee.code.length +
      ((positional.map fun c => c.code.length).sum +
        (keyword.map fun arg => arg.1.length + 1 + arg.2.code.length).sum) +
      2 * (positional.length + keyword.length - 1) + 2 := by
  have one : "=".length = 1 ∧ "(".length = 1 ∧ ")".length = 1 ∧ ", ".length = 2 := by decide
  rw [(Passed.isCall_spell _ callee).code]
  simp only [String.length_append, length_intercalate, Passed.texts, List.map_append, List.map_map,
    List.sum_append, Option.toList_none, List.map_nil, List.append_nil, List.length_append,
    List.length_map, Function.comp_def, one]
  omega

/-- In brackets an operation is written shorter than as a call. -/
theorem length_replay_inBrackets {op : Mutation} {codes : List Snippet}
    (item : InBrackets op codes.length) (target : Snippet) :
    (replay op target codes []).code.length < target.code.length + ("." ++ op.methodName).length +
      (codes.map fun c => c.code.length).sum := by
  rcases item with ⟨rfl, two⟩ | ⟨rfl, one⟩
  · obtain ⟨key, value, rfl⟩ := List.length_eq_two.1 two
    have texts : "[".length = 1 ∧ "] = ".length = 4 ∧ ("." ++ "__setitem__").length = 12 := by decide
    simp only [replay, Snippet.followedBy, Mutation.methodName, List.map_cons, List.map_nil,
      List.sum_cons, List.sum_nil, texts]
    simp only [String.length_append, texts]
    omega
  · obtain ⟨key, rfl⟩ := List.length_eq_one_iff.1 one
    have texts : "[".length = 1 ∧ "]".length = 1 ∧ "del ".length = 4 ∧
        ("." ++ "__delitem__").length = 12 := by decide
    simp only [replay, Snippet.followedBy, Snippet.surround, Mutation.methodName, List.map_cons,
      List.map_nil, List.sum_cons, List.sum_nil, texts]
    simp only [String.length_append, texts]
    omega

/-- With keywords the statement is longer than without. -/
theorem length_replay_lt (op : Mutation) (target : Snippet) (positional : List Snippet)
    {keyword : List (String × Snippet)} (some : keyword ≠ []) :
    (replay op target (positional ++ keyword.map Prod.snd) []).code.length <
      (replay op target positional keyword).code.length := by
  have longer : ((keyword.map Prod.snd).map fun c : Snippet => c.code.length).sum <
      (keyword.map fun arg => arg.1.length + 1 + arg.2.code.length).sum := by
    rw [List.map_map]
    refine List.sum_lt_sum_of_ne_nil some _ _ fun arg _ => ?_
    simp only [Function.comp_apply]
    omega
  rw [replay_call (fun none : keyword = [] => absurd none some), length_spell]
  by_cases item : InBrackets op (positional ++ keyword.map Prod.snd).length
  · have shorter := length_replay_inBrackets item target
    simp only [List.map_append, List.sum_append] at shorter
    simp only [Snippet.surround, String.empty_append, String.length_append] at shorter ⊢
    omega
  · rw [replay_call fun _ => item, length_spell]
    simp only [List.map_append, List.sum_append, List.map_nil, List.sum_nil, List.length_append,
      List.length_map, List.length_nil]
    omega

end Setup

/-! ## What was recorded of the call -/

/-- The end of a recording keeps side effects. -/
theorem Recording.effect?_finish {r : Recording} {id : EffectId} {e : Effect}
    (found : r.effect? id = some e) (isExhausted : Value → Bool) :
    (r.finish isExhausted).effect? id = some e := by
  unfold finish
  split
  · exact found
  · refine List.foldlRecOn (motive := fun s : Recording => s.effect? id = some e) _ _ found
      fun s kept x _ => ?_
    cases trailing : s.trailingResumption? x with
    | none =>
      rw [dropTrailing, trailing]
      exact kept
    | some last =>
      obtain ⟨d, same, dropped⟩ := dropTrailing_sameHeads trailing
      rw [dropped]
      exact same.effects kept

/-- Observations do not change what is registered and recorded. -/
theorem Recorder.Step.setup {r r' : Recorder} (h : r.Step r') :
    r'.mutations = r.mutations ∧ r'.settings = r.settings := by
  cases h <;> exact ⟨rfl, rfl⟩

theorem Tracer.setup_run {t : Tracer Recorder} (h : t.observer.Nests) (events : List Event) :
    (t.run events).observer.mutations = t.observer.mutations ∧
      (t.run events).observer.settings = t.observer.settings := by
  induction events generalizing t with
  | nil => exact ⟨rfl, rfl⟩
  | cons e rest ih =>
    obtain ⟨first, second⟩ := (step_observer h e).setup
    obtain ⟨others, others'⟩ := ih (nests_step h e)
    exact ⟨others.trans first, others'.trans second⟩

namespace Watch

/-- A foreign call that is a registered mutation. -/
structure IsMutation (w : Watch) (call : Foreign) (receiver : Value) (op : Mutation) : Prop where
  isMethod : call.receiver = some receiver
  records : w.settings.recordsMutations = true
  registered : w.mutations.find? receiver.typeName call.name = some op

/-- The objects that were recorded for a foreign call as it was entered. -/
structure Recalls (r : Recording) (call : Foreign) (receiver : Value) (x : ObjectId)
    (args : List ObjectId) (keywords : List (String × ObjectId)) : Prop where
  receiver : r.lookup receiver.handle = some x
  args : List.Forall₂ (fun v id => r.lookup v.handle = some id) call.args args
  keywords : List.Forall₂ r.Knows call.keywords keywords

/-- Foreign code that is a registered mutation is put on the stack with its receiver and its
arguments, which are recorded. -/
theorem foreignCalled_of_mutation {r : Recorder} {call : Foreign} {receiver : Value} {op : Mutation}
    (found : r.mutationOf? call = some (op, receiver)) :
    ∃ x args keywords, Recalls (r.foreignCalled call).session.recording call receiver x args keywords ∧
      (r.foreignCalled call).stack =
        .foreign (some ⟨op, x, args ++ keywords.map Prod.snd⟩) :: r.stack := by
  have first := Session.lookup_serialize r.session receiver
  generalize eq : r.session.serialize receiver = entered at first
  have args := Session.lookup_serializeAll entered.1 call.args
  generalize eq' : entered.1.serializeAll call.args = listed at args
  have named := Session.lookup_serializeAll listed.1 (call.keywords.map Prod.snd)
  generalize eq'' : listed.1.serializeAll (call.keywords.map Prod.snd) = last at named
  have taken : entered.1.Takes [] last.1 := by
    rw [← eq'', ← eq']
    exact (Session.serializeAll_takes ..).trans (Session.serializeAll_takes ..)
  have taken' : listed.1.Takes [] last.1 := eq'' ▸ Session.serializeAll_takes ..
  have all : entered.1.serializeAll (call.args ++ call.keywords.map Prod.snd) =
      (last.1, listed.2 ++ last.2) := by
    rw [← eq'', ← eq']
    exact thread_append ..
  have count : last.2.length = call.keywords.length := by
    rw [← eq'', Session.serializeAll, length_thread, List.length_map]
  have step : r.foreignCalled call = { r with
      session := last.1
      stack := .foreign (some ⟨op, entered.2, listed.2 ++ last.2⟩) :: r.stack } := by
    simp only [Recorder.foreignCalled, found, eq, all]
  rw [step]
  refine ⟨entered.2, listed.2, _, ⟨taken.lookup first, ?_, Recording.knows_zip named⟩, ?_⟩
  · exact args.imp fun _ _ there => taken'.lookup there
  · rw [List.map_snd_zip (by rw [List.length_map, count])]

/-- A return from foreign code that is a mutation adds a side effect. -/
theorem effect?_foreignReturn {t : Tracer Recorder} {m : PendingMutation} {followed : List Bool}
    {depth : Nat} {stack : List Running}
    (shape : t.HasShape followed (depth + 1) (.foreign (some m) :: stack)) (result : Value) :
    ∃ e, (t.step (.foreignReturn (some result))).1.recording.effect? ⟨t.recording.effects.size⟩ =
        some e ∧ e.change = .mutation m.op m.receiver m.args := by
  have recorded : (t.step (.foreignReturn (some result))).1.recording =
      (t.recording.pushEffect (.mutation m.op m.receiver m.args) (Recorder.innermost stack)).1 := by
    have top := shape.stack
    simp only [Tracer.step, shape.foreignDepth, Tracer.recording, Tracer.tell]
    show (t.observer.foreignReturned (some result)).session.recording = _
    unfold Recorder.foreignReturned
    rw [top]
    rfl
  rw [recorded, Recording.effect?_pushEffect, if_pos rfl]
  exact ⟨_, rfl, rfl⟩

theorem Records.effect? {w : Watch} {events rest : List Event} {r : Recording} {id : EffectId}
    {e : Effect} (recorded : w.Records (events ++ rest) r)
    (found : (w.recording events).effect? id = some e) : r.effect? id = some e := by
  have still : (w.recording (events ++ rest)).effect? id = some e := by
    rw [recording, after_append]
    exact (Tracer.grows_run (w.nests_after events) rest).effects found
  obtain ⟨isExhausted, rfl | rfl⟩ := recorded
  · exact still
  · exact Recording.effect?_finish still isExhausted

/-- A mutation by foreign code that returns is recorded. -/
theorem effect?_of_mutation (w : Watch) (before : List Event) {call : Foreign} {receiver : Value}
    {op : Mutation} (isMutation : w.IsMutation call receiver op) (inside : Bracketed)
    (result : Value) (rest : List Event) {r : Recording}
    (recorded : w.Records (before ++ .foreignCall call ::
      (inside.events ++ .foreignReturn (some result) :: rest)) r) :
    ∃ x args keywords e,
      Recalls (w.recording (before ++ [.foreignCall call])) call receiver x args keywords ∧
      r.effect? ⟨(w.recording (before ++ .foreignCall call :: inside.events)).effects.size⟩ =
        some e ∧ e.change = .mutation op x (args ++ keywords.map Prod.snd) := by
  have found : (w.after before).observer.mutationOf? call = some (op, receiver) := by
    obtain ⟨mutations, settings⟩ :=
      Tracer.setup_run (t := w.start) (Recorder.nests_start w.project w.run w.mutations w.settings)
        before
    rw [after, Recorder.mutationOf?, mutations, settings]
    simp [isMutation.isMethod, start, Recorder.start, Tracer.start, isMutation.records,
      isMutation.registered]
  obtain ⟨x, args, keywords, recalls, stack⟩ := foreignCalled_of_mutation found
  have opened : w.recording (before ++ [.foreignCall call]) =
      ((w.after before).observer.foreignCalled call).session.recording := by
    rw [recording, after_append]
    rfl
  -- the foreign call is entered, and its return finds it on top of the stack
  have entered : (w.after (before ++ [.foreignCall call])).HasShape
      ((w.after before).frames.map OpenFrame.isTraced) ((w.after before).foreignDepth + 1)
      (.foreign (some ⟨op, x, args ++ keywords.map Prod.snd⟩) ::
        (w.after before).observer.stack) := by
    rw [after_append]
    exact ⟨rfl, rfl, stack⟩
  have inner := Tracer.hasShape_run inside (w.nests_after _) entered
  rw [← after_append, List.append_assoc, List.singleton_append] at inner
  obtain ⟨e, pushed, change⟩ := effect?_foreignReturn inner result
  refine ⟨x, args, keywords, e, opened ▸ recalls, ?_, change⟩
  have split : before ++ .foreignCall call ::
      (inside.events ++ .foreignReturn (some result) :: rest) =
        ((before ++ .foreignCall call :: inside.events) ++ [.foreignReturn (some result)]) ++ rest := by
    simp
  rw [split] at recorded
  refine recorded.effect? ?_
  rw [recording, after_append _ _ [.foreignReturn (some result)]]
  exact pushed

end Watch

/-- A registered builtin operation is performed by the method of its name. -/
theorem MutationTable.find?_standard {typeName operation : String} {op : Mutation}
    (found : standard.find? typeName operation = some op) :
    op.receiverType = typeName ∧ op.methodName = operation := by
  obtain ⟨before, rest, split, -⟩ := List.lookup_eq_some_iff.1 found
  have mem : ((typeName, operation), op) ∈ standard.entries := by
    rw [split]
    exact List.mem_append_right _ List.mem_cons_self
  have all : ∀ entry ∈ standard.entries,
      entry.2.receiverType = entry.1.1 ∧ entry.2.methodName = entry.1.2 := by decide +kernel
  exact all _ mem

namespace Watch

open Setup (Writes construct replay renderEffect)

section Rendered

variable (p : Project) (r : Recording) (names : Setup.Naming)

/-- The statement makes the call again: the operation on the receiver with the arguments by position,
and each keyword argument under its keyword. -/
def Replays (op : Mutation) (x : ObjectId) (args : List ObjectId)
    (keywords : List (String × ObjectId)) (s : Snippet) : Prop :=
  ∃ target positional keyword, construct p r names x = .ok target ∧
    args.mapM (construct p r names) = .ok positional ∧
    List.Forall₂ (Writes p r names) keywords keyword ∧ s = replay op target positional keyword

/-- The statement makes a call with all arguments by position. -/
def ReplaysByPosition (op : Mutation) (x : ObjectId) (args : List ObjectId) (s : Snippet) : Prop :=
  ∃ target codes, construct p r names x = .ok target ∧
    args.mapM (construct p r names) = .ok codes ∧ s = replay op target codes []

variable {p r names} {op : Mutation} {x : ObjectId} {args : List ObjectId}
  {keywords : List (String × ObjectId)} {s : Snippet}

/-- A statement with all arguments by position makes the call again if there are no others. -/
theorem ReplaysByPosition.replays_iff_nil
    (h : ReplaysByPosition p r names op x (args ++ keywords.map Prod.snd) s) :
    Replays p r names op x args keywords s ↔ keywords = [] := by
  obtain ⟨target, codes, written, listed, rfl⟩ := h
  constructor
  · rintro ⟨target', positional, keyword, written', first, second, eq⟩
    cases written.symm.trans written'
    have same : codes = positional ++ keyword.map Prod.snd := by
      refine Except.ok.inj (listed.symm.trans (mapM_eq_ok.2 ?_))
      refine List.rel_append (mapM_eq_ok.1 first) ?_
      rw [List.forall₂_map_left_iff, List.forall₂_map_right_iff]
      exact second.imp fun _ _ both => both.2
    by_contra some
    have others : keyword ≠ [] := by
      rintro rfl
      cases second
      exact some rfl
    have shorter := Setup.length_replay_lt op target positional others
    rw [← same, eq] at shorter
    exact Nat.lt_irrefl _ shorter
  · rintro rfl
    rw [List.map_nil, List.append_nil] at listed
    exact ⟨target, codes, [], written, listed, .nil, rfl⟩

theorem renderEffect_eq_ok_iff {id : EffectId} {e : Effect} (found : r.effect? id = some e)
    (change : e.change = .mutation op x args) :
    renderEffect p r names id = .ok s ↔ ReplaysByPosition p r names op x args s := by
  unfold renderEffect Recording.effect
  rw [found, bind_eq_ok]
  constructor
  · rintro ⟨e', same, answer⟩
    cases Except.ok.inj same
    rw [change] at answer
    exact Setup.writeMutation_eq_ok.1 answer
  · intro replays
    refine ⟨e, rfl, ?_⟩
    rw [change]
    exact Setup.writeMutation_eq_ok.2 replays

end Rendered

namespace Sorted

/-- An empty list. -/
def items : Value := .sequence ⟨.observed 1, "list", builtinModule, []⟩ .list []

def yes : Value := .literal ⟨.observed 2, "bool", builtinModule, []⟩ (.bool true)

def null : Value := .literal ⟨.observed 3, "NoneType", builtinModule, []⟩ .none

/-- The list is sorted, in reverse. -/
def call : Foreign where
  name := "sort"
  receiver := some items
  args := []
  keywords := [("reverse", yes)]
  callables := []

def watch : Watch where
  project := .empty "/p"
  run := ⟨0⟩
  mutations := .standard
  settings := .default
  patches := .empty
  ignored := []

theorem isMutation : watch.IsMutation call items .listSort := ⟨rfl, rfl, by decide +kernel⟩

def events : List Event := [.foreignCall call, .foreignReturn (some null)]

def recording : Recording := watch.recording events

theorem records : watch.Records events recording := ⟨fun _ => false, .inl rfl⟩

end Sorted

/-- A registered mutation by foreign code that returns is rendered as a call with the recorded receiver
and all recorded arguments by position, those by keyword behind the others. It makes the same call again
exactly when there were no arguments by keyword. -/
theorem replays_iff (w : Watch) (before : List Event) (call : Foreign) (receiver : Value)
    (op : Mutation) (isMutation : w.IsMutation call receiver op) (inside : Bracketed)
    (result : Value) (rest : List Event) (r : Recording)
    (recorded : w.Records (before ++ .foreignCall call ::
      (inside.events ++ .foreignReturn (some result) :: rest)) r) :
    (w.mutations = .standard → op.methodName = call.name) ∧
    ∃ x args keywords,
      Recalls (w.recording (before ++ [.foreignCall call])) call receiver x args keywords ∧
      ∀ (p : Project) (names : Setup.Naming) (s : Snippet),
        (renderEffect p r names
            ⟨(w.recording (before ++ .foreignCall call :: inside.events)).effects.size⟩ = .ok s ↔
          ReplaysByPosition p r names op x (args ++ keywords.map Prod.snd) s) ∧
        (renderEffect p r names
            ⟨(w.recording (before ++ .foreignCall call :: inside.events)).effects.size⟩ = .ok s →
          (Replays p r names op x args keywords s ↔ call.keywords = [])) := by
  obtain ⟨x, args, keywords, e, recalls, found, change⟩ :=
    w.effect?_of_mutation before isMutation inside result rest recorded
  refine ⟨fun standard => ?_, x, args, keywords, recalls, fun p names s => ?_⟩
  · have registered := isMutation.registered
    rw [standard] at registered
    exact (MutationTable.find?_standard registered).2
  have rendered : renderEffect p r names _ = .ok s ↔ _ := renderEffect_eq_ok_iff found change
  refine ⟨rendered, fun answer => ?_⟩
  have none : keywords = [] ↔ call.keywords = [] := by
    rw [← List.length_eq_zero_iff, ← recalls.keywords.length_eq, List.length_eq_zero_iff]
  rw [(rendered.1 answer).replays_iff_nil, none]

theorem replays_iff_sorted : Sorted.watch.IsMutation Sorted.call Sorted.items .listSort ∧
    Sorted.watch.Records Sorted.events Sorted.recording ∧
    (Sorted.watch.mutations = .standard → Mutation.listSort.methodName = Sorted.call.name) ∧
    ∃ x args keywords,
      Recalls (Sorted.watch.recording [.foreignCall Sorted.call]) Sorted.call Sorted.items x args
        keywords ∧
      ∀ (p : Project) (names : Setup.Naming) (s : Snippet),
        (renderEffect p Sorted.recording names
            ⟨(Sorted.watch.recording [.foreignCall Sorted.call]).effects.size⟩ = .ok s ↔
          ReplaysByPosition p Sorted.recording names .listSort x (args ++ keywords.map Prod.snd) s) ∧
        (renderEffect p Sorted.recording names
            ⟨(Sorted.watch.recording [.foreignCall Sorted.call]).effects.size⟩ = .ok s →
          (Replays p Sorted.recording names .listSort x args keywords s ↔
            Sorted.call.keywords = [])) :=
  ⟨Sorted.isMutation, Sorted.records,
    replays_iff Sorted.watch [] Sorted.call Sorted.items .listSort Sorted.isMutation .done
      Sorted.null [] Sorted.recording Sorted.records⟩

/-- The keyword of a keyword argument is lost. -/
theorem not_replays : ¬∀ (w : Watch) (before : List Event) (call : Foreign) (receiver : Value)
    (op : Mutation) (inside : Bracketed) (result : Value) (rest : List Event) (r : Recording),
    w.IsMutation call receiver op →
    w.Records (before ++ .foreignCall call ::
      (inside.events ++ .foreignReturn (some result) :: rest)) r →
    ∀ x args keywords,
      Recalls (w.recording (before ++ [.foreignCall call])) call receiver x args keywords →
      ∀ (p : Project) (names : Setup.Naming) (s : Snippet), renderEffect p r names
          ⟨(w.recording (before ++ .foreignCall call :: inside.events)).effects.size⟩ = .ok s →
        Replays p r names op x args keywords s := by
  intro replays
  have recalls : Recalls (Sorted.watch.recording ([] ++ [.foreignCall Sorted.call])) Sorted.call
      Sorted.items ⟨0⟩ [] [("reverse", ⟨1⟩)] :=
    ⟨by decide +kernel, .nil, .cons ⟨rfl, by decide +kernel⟩ .nil⟩
  have rendered : renderEffect (.empty "/p") Sorted.recording .empty ⟨0⟩ =
      .ok (.plain "[].sort(True)") := by decide +kernel
  have size : (Sorted.watch.recording ([] ++ .foreignCall Sorted.call ::
      Bracketed.done.events)).effects.size = 0 := by decide +kernel
  have answer := replays Sorted.watch [] Sorted.call Sorted.items .listSort .done Sorted.null []
    Sorted.recording Sorted.isMutation Sorted.records ⟨0⟩ [] [("reverse", ⟨1⟩)] recalls (.empty "/p")
    .empty (.plain "[].sort(True)") (by rw [size]; exact rendered)
  obtain ⟨target, positional, keyword, written, listed, named, eq⟩ := answer
  have target_eq : construct (.empty "/p") Sorted.recording .empty ⟨0⟩ = .ok (.plain "[]") := by
    decide +kernel
  have yes_eq : construct (.empty "/p") Sorted.recording .empty ⟨1⟩ = .ok (.plain "True") := by
    decide +kernel
  cases target_eq.symm.trans written
  cases pure_eq_ok.1 listed
  obtain _ | @⟨_, ⟨name, code⟩, _, _, ⟨named, coded⟩, others⟩ := named
  cases others
  obtain rfl : name = "reverse" := named
  cases yes_eq.symm.trans coded
  exact absurd (congrArg Snippet.code eq) (by decide +kernel)

end Watch

end Reenact
