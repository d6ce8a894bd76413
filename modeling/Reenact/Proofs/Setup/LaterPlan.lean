import Reenact.Proofs.Setup.LaterClosure

/-!
# Plans of recordings that go on

A plan lists more than its closure. Which objects get names depends on how often they are used, and
among the uses are the outcomes of the calls captured before the horizon. A call that was running when
the one under test ended gets its outcome later.

**The law** (`IsLaterPlan`): everything in a later plan is what it was, but for these outcomes. So two
plans with one past agree when they count the same outcomes (`IsLaterPlan.agrees_iff`).
-/

namespace Reenact

namespace Setup

open Recording

variable {r s : Recording} {c : Call} {objects objects' : List Object}
  {effects effects' : List Effect} {earlier earlier' : List Call} {plan plan' : Plan}

/-- Two plans are alike in all that a setup is written from. -/
structure Plan.Agrees (p q : Plan) : Prop where
  closure : p.closure = q.closure
  all : p.all = q.all
  named : p.named = q.named
  useCount : ∀ x, p.useCount x = q.useCount x

/-! ## The calls before the horizon -/

/-- The calls captured before a moment. -/
def capturedBefore (r : Recording) (bound : Moment) : List Call :=
  r.captured.filterMap fun id => (r.call? id).filter fun c => c.moment.before bound

/-- What the calls captured before a moment have ended with. -/
def outcomesBefore (r : Recording) (bound : Moment) : List ObjectId :=
  (capturedBefore r bound).filterMap fun c => c.outcome.map Outcome.object

theorem callsBefore_eq {bound : Moment} (h : callsBefore r (some bound) = .ok earlier) :
    earlier = capturedBefore r bound := by
  obtain ⟨calls, calls_eq, kept⟩ := bind_eq_ok.1 h
  rw [← pure_eq_ok.1 kept, capturedBefore]
  have all := mapM_eq_ok.1 calls_eq
  clear h calls_eq kept
  generalize r.captured = ids at all
  induction all with
  | nil => rfl
  | @cons id c _ _ first _ ih =>
    rw [List.filterMap_cons, call_eq_ok.1 first, Option.filter_some, List.filter_cons, ih]
    show (if c.moment.before bound = true then _ else _) = _
    split <;> rfl

/-- The calls captured before the clock stopped are later states of those captured before. -/
theorem capturedBefore_of_continues (past : r.Sound) (goes : r.Continues s) :
    List.Forall₂ r.CallContinues (capturedBefore r r.lastMoment)
      (capturedBefore s r.lastMoment) := by
  obtain ⟨late, captured, fresh⟩ := goes.captured
  have nothing : late.filterMap (fun id => (s.call? id).filter
      fun c => c.moment.before r.lastMoment) = [] := by
    refine List.filterMap_eq_nil_iff.2 fun id mem => Option.filter_eq_none_iff.2 fun c there => ?_
    intro before
    obtain ⟨d, there', -⟩ := goes.call?_of_le there (Nat.le_of_lt (Moment.before_iff.1 before))
    exact fresh id mem (.of_call? there')
  rw [capturedBefore, capturedBefore, captured, List.filterMap_append, nothing, List.append_nil]
  have known := past.listed.captured
  generalize r.captured = ids at known
  induction ids with
  | nil => exact .nil
  | cons id rest ih =>
    obtain ⟨⟨c, there⟩, others⟩ := List.forall_mem_cons.1 known
    obtain ⟨d, there', same⟩ := goes.calls there
    rw [List.filterMap_cons, List.filterMap_cons, there, there', Option.filter_some,
      Option.filter_some, same.moment]
    by_cases before : c.moment.before r.lastMoment = true
    · rw [if_pos before, if_pos before]
      exact .cons same (ih others)
    · rw [if_neg before, if_neg before]
      exact ih others

/-- What later states of calls have in common with the calls. -/
theorem map_eq_of_callContinues {α : Type} {f : Call → α} {later : List Call}
    (h : List.Forall₂ r.CallContinues earlier later)
    (same : ∀ {c d}, r.CallContinues c d → f d = f c) : later.map f = earlier.map f := by
  induction h with
  | nil => rfl
  | cons first _ ih => rw [List.map_cons, List.map_cons, same first, ih]

/-! ## Uses -/

/-- The objects that a call uses from its start. -/
def startUses (c : Call) : List ObjectId := c.input.values ++ c.receiver.toList

/-- The uses of objects, but for the outcomes of calls. -/
def steadyUses (earlier : List Call) (objects : List Object) (effects : List Effect) :
    List ObjectId :=
  earlier.flatMap startUses ++ objects.flatMap usesOfObject ++ effects.flatMap Effect.referenced

/-- A call uses what it starts from and what it ended with. -/
theorem count_usesOfCalls (calls : List Call) (x : ObjectId) :
    (calls.flatMap usesOfCall).count x = (calls.flatMap startUses).count x +
      (calls.filterMap fun c => c.outcome.map Outcome.object).count x := by
  induction calls with
  | nil => rfl
  | cons c rest ih =>
    have head : usesOfCall c = startUses c ++ (c.outcome.map Outcome.object).toList := rfl
    rw [List.flatMap_cons, List.flatMap_cons, List.filterMap_cons, List.count_append,
      List.count_append, ih, head, List.count_append]
    cases c.outcome with
    | none =>
      simp only [Option.map_none, Option.toList_none, List.count_nil]
      omega
    | some outcome =>
      simp only [Option.map_some, Option.toList_some, List.count_cons, List.count_nil]
      omega

/-- A member of the working set is used as often as it is used steadily and is an outcome. -/
theorem count_allUses_of_mem {x : ObjectId} (mem : ∃ o ∈ objects, o.id = x) :
    (allUses earlier objects effects).count x = (steadyUses earlier objects effects).count x +
      (earlier.filterMap fun c => c.outcome.map Outcome.object).count x := by
  have member : (objects.map Object.id).contains x = true :=
    List.contains_iff_mem.2 (List.mem_map.2 mem)
  rw [allUses, List.count_filter member, steadyUses, List.count_append, List.count_append,
    List.count_append, List.count_append, count_usesOfCalls]
  omega

/-- Nothing but members of the working set is counted. -/
theorem count_allUses_of_not_mem {x : ObjectId} (missing : ¬∃ o ∈ objects, o.id = x) :
    (allUses earlier objects effects).count x = 0 := by
  refine List.count_eq_zero.2 fun mem => missing ?_
  exact List.mem_map.1 (List.contains_iff_mem.1 (List.mem_filter.1 mem).2)

/-- An object uses its parts and the arguments that it was activated with. -/
theorem usesOfObject_eq (o : Object) : usesOfObject o = o.parts ++ activationArguments o := by
  rw [usesOfObject, activationArguments]
  cases o.kind.activation? with
  | none => rfl
  | some activation => rw [Option.toList_some, List.flatMap_singleton]; rfl

/-- An object that is made again from the same things uses the same things. -/
theorem usesOfObject_eq_of_continues (past : r.Sound) (goes : r.Continues s) {x : ObjectId}
    {o o' : Object} (found : r.object? x = some o) (found' : s.object? x = some o')
    (stays : lateIngredients s o' = lateIngredients r o) : usesOfObject o' = usesOfObject o := by
  obtain ⟨o'', found'', -, -, parts, becomes⟩ := exists_object_of_continues goes found
  rw [found'] at found''
  obtain rfl := Option.some.inj found''
  have arguments : activationArguments o' = activationArguments o := by
    rcases madeAlike_or_of_continues past goes found becomes with nothing | alike
    · rw [nothing] at stays
      rw [lateIngredients, List.append_eq_nil_iff, List.append_eq_nil_iff] at nothing stays
      rw [nothing.1.2, stays.1.2]
    · exact alike.activationArguments
  rw [usesOfObject_eq, usesOfObject_eq, parts, arguments]

/-! ## Members of later plans -/

namespace Replans

/-- The side effects are the same, up to order. -/
theorem effects_perm (h : Replans r s c objects objects' effects effects' plan plan') :
    effects'.Perm effects := by
  have nodup := List.Nodup.of_map _ h.isPlan.recorded.repeatedOnce
  have nodup' := List.Nodup.of_map _ h.isPlan'.recorded.repeatedOnce
  refine (List.perm_ext_iff_of_nodup nodup' nodup).2 fun e => ?_
  constructor
  · intro mem
    obtain ⟨f, listed, eq⟩ := (Set.ext_iff.1 h.sets_eq.2 e.id).1 ⟨e, mem, rfl⟩
    have there := h.goes.effects (h.isPlan.recorded.repeated f listed)
    rw [eq, h.isPlan'.recorded.repeated e mem] at there
    exact Option.some.inj there ▸ listed
  · intro mem
    obtain ⟨f, listed, eq⟩ := (Set.ext_iff.1 h.sets_eq.2 e.id).2 ⟨e, mem, rfl⟩
    have there := h.goes.effects (h.isPlan.recorded.repeated e mem)
    rw [← eq, h.isPlan'.recorded.repeated f listed] at there
    exact Option.some.inj there ▸ listed

/-- What does not change of the objects is the same, up to order. -/
theorem map_perm {α : Type} (h : Replans r s c objects objects' effects effects' plan plan')
    {f : Object → α} (same : ∀ {o o'}, .object o.id ∈ plan.closure → r.object? o.id = some o →
      s.object? o.id = some o' → f o' = f o) : (objects'.map f).Perm (objects.map f) := by
  have perm : (objects'.map Object.id).Perm (objects.map Object.id) := by
    refine (List.perm_ext_iff_of_nodup h.isPlan'.recorded.madeOnce
      h.isPlan.recorded.madeOnce).2 fun x => ?_
    rw [List.mem_map, List.mem_map]
    exact Set.ext_iff.1 h.sets_eq.1 x
  -- both lists are told from the numbers of the objects
  have told : objects.map f =
      (objects.map Object.id).filterMap fun x => (r.object? x).map f := by
    rw [List.filterMap_map, ← List.filterMap_eq_map]
    refine List.filterMap_congr fun o mem => ?_
    rw [Function.comp_apply, Function.comp_apply, h.isPlan.recorded.made o mem, Option.map_some]
  have told' : objects'.map f =
      (objects'.map Object.id).filterMap fun x => (r.object? x).map f := by
    rw [List.filterMap_map, ← List.filterMap_eq_map]
    refine List.filterMap_congr fun o' mem => ?_
    obtain ⟨o, listed, eq⟩ := List.mem_map.1 (perm.mem_iff.1 (List.mem_map_of_mem mem))
    have made := h.isPlan.recorded.made o listed
    have inside := h.object_mem_closure.2 ⟨o, listed, rfl⟩
    rw [Function.comp_apply, Function.comp_apply, ← eq, made, Option.map_some,
      same inside made (eq ▸ h.isPlan'.recorded.made o' mem)]
  rw [told, told']
  exact perm.filterMap _

/-- But for the outcomes of calls, everything is used as often as it was. -/
theorem count_steadyUses (h : Replans r s c objects objects' effects effects' plan plan')
    (calls : List.Forall₂ r.CallContinues earlier earlier') (x : ObjectId) :
    (steadyUses earlier' objects' effects').count x =
      (steadyUses earlier objects effects).count x := by
  have starts : earlier'.flatMap startUses = earlier.flatMap startUses := by
    rw [List.flatMap_def, List.flatMap_def, map_eq_of_callContinues calls fun same => ?_]
    rw [startUses, startUses, same.input, Call.receiver, Call.receiver, same.kind]
  have parts : (objects'.flatMap usesOfObject).Perm (objects.flatMap usesOfObject) := by
    rw [List.flatMap_def, List.flatMap_def]
    refine (h.map_perm fun inside made made' => ?_).flatten
    exact usesOfObject_eq_of_continues h.past h.goes made made' (h.stay _ _ _ inside made made')
  have referenced := h.effects_perm.flatMap_right Effect.referenced
  rw [steadyUses, steadyUses, List.count_append, List.count_append, List.count_append,
    List.count_append, starts, parts.count_eq, referenced.count_eq]

end Replans

/-! ## Names -/

/-- The objects that get a name when the uses are these. -/
def namedBy (uses : List ObjectId) (earlier : List Call) (objects : List Object)
    (effects : List Effect) : List ObjectId :=
  (objects.filter (deservesName uses (effects.flatMap Effect.affected)
    (earlier.filterMap Call.receiver))).map Object.id

/-- How often objects are used is all that counts of the uses. -/
theorem namedBy_congr {uses uses' : List ObjectId}
    (same : ∀ o ∈ objects, uses'.count o.id = uses.count o.id) :
    namedBy uses' earlier objects effects = namedBy uses earlier objects effects := by
  rw [namedBy, namedBy]
  refine congrArg _ (List.filter_congr fun o mem => ?_)
  rw [deservesName, deservesName, same o mem]

/-- By the same uses the same objects get a name. -/
theorem Replans.mem_namedBy (h : Replans r s c objects objects' effects effects' plan plan')
    (calls : List.Forall₂ r.CallContinues earlier earlier') (uses : List ObjectId) {x : ObjectId} :
    x ∈ namedBy uses earlier' objects' effects' ↔ x ∈ namedBy uses earlier objects effects := by
  have receivers : earlier'.filterMap Call.receiver = earlier.filterMap Call.receiver := by
    rw [List.filterMap_eq_flatMap_toList, List.filterMap_eq_flatMap_toList, List.flatMap_def,
      List.flatMap_def, map_eq_of_callContinues calls fun same => ?_]
    rw [Call.receiver, Call.receiver, same.kind]
  have affected (x : ObjectId) : (effects'.flatMap Effect.affected).contains x =
      (effects.flatMap Effect.affected).contains x :=
    (h.effects_perm.flatMap_right _).contains_eq
  let judged (o : Object) : Bool × ObjectId :=
    (deservesName uses (effects.flatMap Effect.affected) (earlier.filterMap Call.receiver) o, o.id)
  have perm : (objects'.map judged).Perm (objects.map judged) := by
    refine h.map_perm fun {o o'} inside made made' => ?_
    obtain ⟨o'', made'', number, -, -, becomes⟩ := exists_object_of_continues h.goes made
    rw [made'] at made''
    obtain rfl := Option.some.inj made''
    simp only [judged, deservesName, number, becomes.isImmutable]
  have told : x ∈ namedBy uses earlier objects effects ↔ (true, x) ∈ objects.map judged := by
    simp only [namedBy, judged, List.mem_map, List.mem_filter, Prod.mk.injEq, and_assoc]
  have told' : x ∈ namedBy uses earlier' objects' effects' ↔ (true, x) ∈ objects'.map judged := by
    simp only [namedBy, judged, List.mem_map, List.mem_filter, Prod.mk.injEq, and_assoc, deservesName,
      receivers, affected]
  rw [told, told']
  exact perm.mem_iff

/-! ## Putting entries together -/

/-- Whether two entries make one is decided by what never changes. -/
theorem joinPair_eq_of_continues (goes : r.Continues s) {first second : Entry}
    (front : first.IsSound r) (back : second.IsSound r) :
    joinPair s first second = joinPair r first second := by
  cases second with
  | object => rfl
  | grown => rfl
  | effect id =>
    obtain ⟨e, found⟩ := back
    rw [joinPair, joinPair, effect_eq_ok.2 found, effect_eq_ok.2 (goes.effects found)]
    cases first with
    | effect => rfl
    | grown => rfl
    | object list =>
      obtain ⟨o, there⟩ := front
      obtain ⟨kind, there', becomes⟩ := goes.objects there
      simp only [object_eq_ok.2 there, object_eq_ok.2 there']
      obtain ⟨_, _, _, _, _, before⟩ := o
      -- an instance or a generator is no list, before or after
      cases becomes <;> rfl

theorem foldFrom_eq_of_continues (past : r.Sound) (goes : r.Continues s) {first : Entry}
    {rest : List Entry} (front : first.IsSound r) (others : ∀ e ∈ rest, e.IsSound r) :
    foldFrom s first rest = foldFrom r first rest := by
  induction rest generalizing first with
  | nil => rfl
  | cons second rest ih =>
    obtain ⟨back, others⟩ := List.forall_mem_cons.1 others
    obtain ⟨pair, answer, together⟩ := joinPair_sound past.numbersEffects front back
    rw [foldFrom, foldFrom, joinPair_eq_of_continues goes front back, answer]
    cases pair with
    | some joined => exact ih (together joined rfl).1 others
    | none => exact congrArg (· >>= fun out => pure (first :: out)) (ih back others)

/-- Entries are put together as they were. -/
theorem fold_eq_of_continues (past : r.Sound) (goes : r.Continues s) {entries : List Entry}
    (sound : ∀ e ∈ entries, e.IsSound r) : fold s entries = fold r entries := by
  cases entries with
  | nil => rfl
  | cons first rest =>
    obtain ⟨front, others⟩ := List.forall_mem_cons.1 sound
    exact foldFrom_eq_of_continues past goes front others

/-! ## Later plans -/

/-- A plan in a later recording, told by objects, side effects and calls of the earlier one and by what
the calls have ended with since. -/
structure IsLaterPlan (r s : Recording) (objects : List Object) (effects : List Effect)
    (earlier : List Call) (plan plan' : Plan) : Prop where
  closure : plan'.closure = plan.closure
  all : fold r (plan.closure.filter (isKept (namedBy plan'.uses earlier objects effects))) =
    .ok plan'.all
  named : plan'.named = plan'.all.filterMap Entry.object?
  listed : ∀ o ∈ objects, .object o.id ∈ plan.closure
  counted : ∀ x, .object x ∈ plan.closure → plan'.useCount x =
    (steadyUses earlier objects effects).count x + (outcomesBefore s r.lastMoment).count x
  uncounted : ∀ x, .object x ∉ plan.closure → plan'.useCount x = 0

/-- A plan of a call in a later recording is told by the earlier one. -/
theorem Replans.isLaterPlan (h : Replans r s c objects objects' effects effects' plan plan') :
    IsLaterPlan r s objects effects (capturedBefore r r.lastMoment) plan plan' := by
  obtain ⟨earlier, earlier_eq, uses, all⟩ := h.isPlan'.counted
  rw [horizon, h.ended] at earlier_eq
  have calls := capturedBefore_of_continues h.past h.goes
  rw [← callsBefore_eq earlier_eq] at calls
  have members (x : ObjectId) : (∃ o ∈ objects', o.id = x) ↔ .object x ∈ plan.closure := by
    rw [h.object_mem_closure]
    exact Set.ext_iff.1 h.sets_eq.1 x
  have named : namedAmong earlier objects' effects' =
      namedBy plan'.uses earlier objects' effects' := by
    rw [uses]
    rfl
  have kept : isKept (namedAmong earlier objects' effects') =
      isKept (namedBy plan'.uses (capturedBefore r r.lastMoment) objects effects) := by
    rw [named]
    funext entry
    cases entry with
    | object x =>
      rw [isKept, isKept, Bool.eq_iff_iff, List.contains_iff_mem, List.contains_iff_mem]
      exact h.mem_namedBy calls plan'.uses
    | effect => rfl
    | grown => rfl
  have sound (e : Entry) (mem : e ∈ plan.closure) : e.IsSound r := by
    rw [h.isPlan.closure] at mem
    exact (single_of_mem_orderedEntries h.isPlan.recorded mem).1
  refine ⟨h.closure_eq, ?_, h.isPlan'.named, ?_, ?_, ?_⟩
  · rw [h.closure_eq, kept] at all
    rw [← all]
    exact (fold_eq_of_continues h.past h.goes fun e mem => sound e (List.mem_filter.1 mem).1).symm
  · exact fun o mem => h.object_mem_closure.2 ⟨o, mem, rfl⟩
  · intro x mem
    rw [Plan.useCount, uses, count_allUses_of_mem ((members x).2 mem), h.count_steadyUses calls,
      outcomesBefore, callsBefore_eq earlier_eq]
  · intro x missing
    rw [Plan.useCount, uses]
    exact count_allUses_of_not_mem fun mem => missing ((members x).1 mem)

/-- Two later plans agree when the calls captured before have ended in both with the same objects of the
closure. -/
theorem IsLaterPlan.agrees_iff {t : Recording} {plan'' : Plan}
    (first : IsLaterPlan r s objects effects earlier plan plan')
    (second : IsLaterPlan r t objects effects earlier plan plan'') :
    plan'.Agrees plan'' ↔ ∀ x, .object x ∈ plan.closure →
      (outcomesBefore s r.lastMoment).count x = (outcomesBefore t r.lastMoment).count x := by
  constructor
  · intro agrees x mem
    have same := agrees.useCount x
    rw [first.counted x mem, second.counted x mem] at same
    exact Nat.add_left_cancel same
  · intro same
    have useCount (x : ObjectId) : plan'.useCount x = plan''.useCount x := by
      by_cases mem : .object x ∈ plan.closure
      · rw [first.counted x mem, second.counted x mem, same x mem]
      · rw [first.uncounted x mem, second.uncounted x mem]
    have all : plan'.all = plan''.all := by
      refine Except.ok.inj (first.all.symm.trans ?_)
      rw [namedBy_congr fun o _ => useCount o.id]
      exact second.all
    refine ⟨first.closure.trans second.closure.symm, all, ?_, useCount⟩
    rw [first.named, second.named, all]

end Setup

end Reenact
