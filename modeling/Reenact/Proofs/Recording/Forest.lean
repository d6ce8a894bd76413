import Reenact.Proofs.Recording.Calling

/-!
# Forests of calls

A `Forest` is a plan for the calls of a recording: which calls there are, how they are nested, which
side effects each of them owns, and at which events each was entered and left. `Recording.Matches`
says that a recording has these calls. `Recording.Adds` says that one recording came from another by
adding a forest of calls and a list of side effects under one owner: the innermost call while they
were added, or no call at all.

What two stretches add one after the other is the two forests side by side (`Adds.append`), and what
is added under a call that was itself just added goes inside its tree (`Adds.inside`).
-/

namespace Reenact

/-- Calls side by side, each with what happened inside it. -/
inductive Forest where
  | nil
  /-- A call, the events at which it was entered and left, its own side effects, the calls inside it,
  and the calls after it. -/
  | node (id : CallId) (entered left : Nat) (effects : List EffectId) (inside rest : Forest)

namespace Forest

/-- The outermost calls. -/
def roots : Forest → List CallId
  | nil => []
  | node id _ _ _ _ rest => id :: rest.roots

/-- All calls, each before those inside it. -/
def preorder : Forest → List CallId
  | nil => []
  | node id _ _ _ inside rest => id :: (inside.preorder ++ rest.preorder)

/-- The events at which the calls were entered, in the same order. -/
def entrances : Forest → List Nat
  | nil => []
  | node _ entered _ _ inside rest => entered :: (inside.entrances ++ rest.entrances)

/-- The side effects of all calls. -/
def allEffects : Forest → List EffectId
  | nil => []
  | node _ _ _ effects inside rest => effects ++ inside.allEffects ++ rest.allEffects

def append : Forest → Forest → Forest
  | nil, other => other
  | node id entered left effects inside rest, other =>
    node id entered left effects inside (rest.append other)

theorem append_nil (f : Forest) : f.append .nil = f := by
  induction f with
  | nil => rfl
  | node id _ _ _ inside rest _ ih => rw [append, ih]

@[simp] theorem roots_append (f g : Forest) : (f.append g).roots = f.roots ++ g.roots := by
  induction f with
  | nil => rfl
  | node id _ _ _ inside rest _ ih => simp only [append, roots, ih, List.cons_append]

@[simp] theorem preorder_append (f g : Forest) :
    (f.append g).preorder = f.preorder ++ g.preorder := by
  induction f with
  | nil => rfl
  | node id _ _ _ inside rest _ ih =>
    simp only [append, preorder, ih, List.cons_append, List.append_assoc]

@[simp] theorem entrances_append (f g : Forest) :
    (f.append g).entrances = f.entrances ++ g.entrances := by
  induction f with
  | nil => rfl
  | node _ entered _ _ inside rest _ ih =>
    simp only [append, entrances, ih, List.cons_append, List.append_assoc]

@[simp] theorem allEffects_append (f g : Forest) :
    (f.append g).allEffects = f.allEffects ++ g.allEffects := by
  induction f with
  | nil => rfl
  | node _ _ _ effects inside rest _ ih =>
    simp only [append, allEffects, ih, List.append_assoc]

end Forest

namespace Recording

/-- The recording has the calls of the forest, nested in the same way and with the same side effects;
the outermost ones were made from `parent`. -/
def Matches (r : Recording) (parent : Option CallId) : Forest → Prop
  | .nil => True
  | .node id _ _ effects inside rest =>
    (∃ c, r.call? id = some c ∧ c.caller = parent ∧ c.subcalls = inside.roots ∧
      c.effects = effects) ∧ r.Matches (some id) inside ∧ r.Matches parent rest

/-- The calls met on a walk from the given ones through subcalls, each before those inside it. -/
inductive Walk (r : Recording) : List CallId → List CallId → Prop
  | nil : Walk r [] []
  | cons {id : CallId} {c : Call} {rest inside after : List CallId} (found : r.call? id = some c)
      (inner : Walk r c.subcalls inside) (others : Walk r rest after) :
      Walk r (id :: rest) (id :: (inside ++ after))

variable {r s t : Recording} {parent owner : Option CallId} {f g : Forest}

theorem matches_append : r.Matches parent (f.append g) ↔ r.Matches parent f ∧ r.Matches parent g := by
  induction f with
  | nil => simp only [Forest.append, Matches, true_and]
  | node id _ _ _ inside rest _ ih => simp only [Forest.append, Matches, ih, and_assoc]

/-- A forest of calls that stay as they are stays matched. -/
theorem Matches.mono (h : r.Matches parent f)
    (same : ∀ id ∈ f.preorder, ∀ c, r.call? id = some c → s.call? id = some c) :
    s.Matches parent f := by
  induction f generalizing parent with
  | nil => trivial
  | node id _ _ _ inside rest inside_ih rest_ih =>
    obtain ⟨⟨c, found, facts⟩, inner, others⟩ := h
    simp only [Forest.preorder, List.mem_cons, List.mem_append] at same
    exact ⟨⟨c, same id (.inl rfl) c found, facts⟩,
      inside_ih inner fun x mem => same x (.inr (.inl mem)),
      rest_ih others fun x mem => same x (.inr (.inr mem))⟩

/-- The walk through the calls of a forest meets them in the order of the forest. -/
theorem Matches.walk (h : r.Matches parent f) : r.Walk f.roots f.preorder := by
  induction f generalizing parent with
  | nil => exact .nil
  | node id _ _ _ inside rest inside_ih rest_ih =>
    obtain ⟨⟨c, found, -, subcalls, -⟩, inner, others⟩ := h
    exact .cons found (subcalls ▸ inside_ih inner) (rest_ih others)

/-- The recording `s` came from `r` by adding a forest of calls and some side effects, made and seen
while `owner` was the innermost call. Calls other than the owner stay as they are. -/
structure Adds (r s : Recording) (owner : Option CallId) (forest : Forest)
    (effects : List EffectId) : Prop where
  size : s.calls.size = r.calls.size + forest.preorder.length
  numbers : forest.preorder = (List.range' r.calls.size forest.preorder.length).map CallId.mk
  captured : s.captured = r.captured ++ forest.preorder
  roots : s.roots = r.roots ++ if owner = none then forest.roots else []
  rootEffects : s.rootEffects = r.rootEffects ++ if owner = none then effects else []
  others : ∀ id c, r.call? id = some c → owner ≠ some id → s.call? id = some c
  owned : ∀ id c, r.call? id = some c → owner = some id → ∃ c', s.call? id = some c' ∧
    c'.caller = c.caller ∧ c'.subcalls = c.subcalls ++ forest.roots ∧
    c'.effects = c.effects ++ effects
  trees : s.Matches owner forest
  sizeEffects : r.effects.size ≤ s.effects.size
  counted : ∀ id : EffectId, id ∈ effects ++ forest.allEffects ↔
    r.effects.size ≤ id.index ∧ id.index < s.effects.size

/-- A call of the forest is not one of the older calls. -/
theorem Adds.le_of_mem {effects : List EffectId} (h : r.Adds s owner f effects) {id : CallId}
    (mem : id ∈ f.preorder) : r.calls.size ≤ id.index := by
  rw [h.numbers] at mem
  obtain ⟨n, inside, rfl⟩ := List.mem_map.1 mem
  exact (List.mem_range'_1.1 inside).1

/-- The calls of the forest are part of the recording afterwards. -/
theorem Adds.hasCall_of_mem {effects : List EffectId} (h : r.Adds s owner f effects)
    {id : CallId} (mem : id ∈ f.preorder) : s.HasCall id := by
  rw [hasCall_iff, h.size]
  rw [h.numbers] at mem
  obtain ⟨n, inside, rfl⟩ := List.mem_map.1 mem
  exact (List.mem_range'_1.1 inside).2

/-- The calls of the forest are those that the recording did not have before. -/
theorem Adds.mem_iff {effects : List EffectId} (h : r.Adds s owner f effects) {id : CallId} :
    id ∈ f.preorder ↔ s.HasCall id ∧ ¬r.HasCall id := by
  rw [hasCall_iff, hasCall_iff, h.size]
  constructor
  · intro mem
    have new := h.le_of_mem mem
    have known := hasCall_iff.1 (h.hasCall_of_mem mem)
    rw [h.size] at known
    omega
  · rintro ⟨known, new⟩
    rw [h.numbers]
    exact List.mem_map.2 ⟨id.index, List.mem_range'_1.2 (by omega), rfl⟩

/-- What is added first and what is added then stand side by side. -/
theorem Adds.append {effects more : List EffectId} (first : r.Adds s owner f effects)
    (second : s.Adds t owner g more) (known : ∀ id, owner = some id → r.HasCall id) :
    r.Adds t owner (f.append g) (effects ++ more) where
  size := by
    rw [second.size, first.size, Forest.preorder_append, List.length_append, Nat.add_assoc]
  numbers := by
    rw [Forest.preorder_append, List.length_append, ← List.range'_append_1, List.map_append,
      ← first.numbers, ← first.size, ← second.numbers]
  captured := by
    rw [second.captured, first.captured, Forest.preorder_append, List.append_assoc]
  roots := by
    rw [second.roots, first.roots, Forest.roots_append, List.append_assoc]
    split <;> rfl
  rootEffects := by
    rw [second.rootEffects, first.rootEffects, List.append_assoc]
    split <;> rfl
  others id c found out := second.others id c (first.others id c found out) out
  owned id c found eq := by
    obtain ⟨c', found', caller, subcalls, owns⟩ := first.owned id c found eq
    obtain ⟨c'', found'', caller', subcalls', owns'⟩ := second.owned id c' found' eq
    refine ⟨c'', found'', caller'.trans caller, ?_, ?_⟩
    · rw [subcalls', subcalls, Forest.roots_append, List.append_assoc]
    · rw [owns', owns, List.append_assoc]
  trees := by
    refine matches_append.2 ⟨first.trees.mono fun id mem c found => ?_, second.trees⟩
    refine second.others id c found fun eq => ?_
    -- the owner was there before, the calls of the first forest were not
    exact Nat.not_lt.2 (first.le_of_mem mem) (hasCall_iff.1 (known id eq))
  sizeEffects := Nat.le_trans first.sizeEffects second.sizeEffects
  counted id := by
    have one := first.counted id
    have two := second.counted id
    have le := first.sizeEffects
    have le' := second.sizeEffects
    simp only [Forest.allEffects_append, List.mem_append] at one two ⊢
    constructor
    · rintro ((mem | mem) | mem | mem)
      · have := one.1 (.inl mem)
        omega
      · have := two.1 (.inl mem)
        omega
      · have := one.1 (.inr mem)
        omega
      · have := two.1 (.inr mem)
        omega
    · rintro ⟨lower, upper⟩
      by_cases old : id.index < s.effects.size
      · rcases one.2 ⟨lower, old⟩ with mem | mem
        · exact .inl (.inl mem)
        · exact .inr (.inl mem)
      · rcases two.2 ⟨Nat.not_lt.1 old, upper⟩ with mem | mem
        · exact .inl (.inr mem)
        · exact .inr (.inr mem)

/-- What is added inside something that adds no calls itself stands beside what is added then. -/
theorem Adds.through {u v : Recording} {entering within leaving others : List EffectId}
    (first : r.Adds s owner .nil entering) (inner : s.Adds t owner f within)
    (last : t.Adds u owner .nil leaving) (rest : u.Adds v owner g others)
    (known : ∀ id, owner = some id → r.HasCall id) :
    r.Adds v owner (f.append g) (entering ++ within ++ leaving ++ others) := by
  have all := ((first.append inner known).append last known).append rest known
  rw [Forest.append_nil] at all
  exact all

/-- What is added under a call that was just added goes inside its tree. -/
theorem Adds.inside {id : CallId} {entered left : Nat} {effects : List EffectId}
    (first : r.Adds s owner (.node id entered left [] .nil .nil) [])
    (second : s.Adds t (some id) f effects) :
    r.Adds t owner (.node id entered left effects f .nil) [] := by
  have newest : r.calls.size ≤ id.index := first.le_of_mem List.mem_cons_self
  have older (x : CallId) (mem : r.HasCall x) : some id ≠ some x := by
    rintro ⟨⟩
    exact Nat.not_lt.2 newest (hasCall_iff.1 mem)
  have number := first.numbers
  have size := first.size
  simp only [Forest.preorder, List.append_nil, List.length_singleton, List.range'_one,
    List.map_cons, List.map_nil, List.cons.injEq, and_true] at number size
  refine
    { size := ?_
      numbers := ?_
      captured := ?_
      roots := ?_
      rootEffects := ?_
      others := fun x c found out =>
        second.others x c (first.others x c found out) (older x (.of_call? found))
      owned := fun x c found eq => ?_
      trees := ⟨?_, second.trees, trivial⟩
      sizeEffects := Nat.le_trans first.sizeEffects second.sizeEffects
      counted := fun x => ?_ }
  · rw [second.size, size]
    simp only [Forest.preorder, List.append_nil, List.length_cons]
    omega
  · simp only [Forest.preorder, List.append_nil, List.length_cons, List.range'_succ, List.map_cons]
    rw [← size, ← second.numbers, ← number]
  · rw [second.captured, first.captured]
    simp only [Forest.preorder, List.append_nil, List.append_assoc, List.singleton_append]
  · rw [second.roots, first.roots]
    simp only [Forest.roots, reduceCtorEq, if_false, List.append_nil]
  · rw [second.rootEffects, first.rootEffects]
    simp only [reduceCtorEq, if_false, List.append_nil]
  · obtain ⟨c', found', caller, subcalls, owns⟩ := first.owned x c found eq
    refine ⟨c', second.others x c' found' (older x (.of_call? found)), caller, ?_, owns⟩
    simpa only [Forest.roots] using subcalls
  · obtain ⟨⟨c, found, caller, subcalls, owns⟩, -⟩ := first.trees
    obtain ⟨c', found', caller', subcalls', owns'⟩ := second.owned id c found rfl
    refine ⟨c', found', caller'.trans caller, ?_, ?_⟩
    · rw [subcalls', subcalls, Forest.roots, List.nil_append]
    · rw [owns', owns, List.nil_append]
  · have one := first.counted x
    have two := second.counted x
    have le := first.sizeEffects
    have le' := second.sizeEffects
    simp only [Forest.allEffects, List.append_nil, List.nil_append, List.not_mem_nil,
      false_iff, not_and] at one two ⊢
    rw [two]
    omega

/-! ## What each change adds -/

/-- The side effects that the second recording has and the first has not. -/
def effectsSince (r s : Recording) : List EffectId :=
  (List.range' r.effects.size (s.effects.size - r.effects.size)).map EffectId.mk

theorem effectsSince_eq_nil (same : s.effects.size = r.effects.size) : r.effectsSince s = [] := by
  simp only [effectsSince, same, Nat.sub_self, List.range'_zero, List.map_nil]

/-- A change that adds no side effects adds those of the meantime. -/
theorem Adds.since (h : r.Adds s owner f []) (same : s.effects = r.effects) :
    r.Adds s owner f (r.effectsSince s) := by
  rw [effectsSince_eq_nil (by rw [same])]
  exact h

/-- A change that leaves all lists alone, and all calls but for how the owner ended. -/
theorem adds_nothing (size : s.calls.size = r.calls.size) (captured : s.captured = r.captured)
    (roots : s.roots = r.roots) (rootEffects : s.rootEffects = r.rootEffects)
    (effects : s.effects.size = r.effects.size)
    (others : ∀ id c, r.call? id = some c → owner ≠ some id → s.call? id = some c)
    (owned : ∀ id c, r.call? id = some c → owner = some id → ∃ c', s.call? id = some c' ∧
      c'.caller = c.caller ∧ c'.subcalls = c.subcalls ∧ c'.effects = c.effects) :
    r.Adds s owner .nil [] where
  size := size
  numbers := rfl
  captured := by rw [captured, Forest.preorder, List.append_nil]
  roots := by rw [roots, Forest.roots, ite_self, List.append_nil]
  rootEffects := by rw [rootEffects, ite_self, List.append_nil]
  others := others
  owned id c found eq := by
    obtain ⟨c', found', caller, subcalls, owns⟩ := owned id c found eq
    refine ⟨c', found', caller, ?_, ?_⟩
    · rw [subcalls, Forest.roots, List.append_nil]
    · rw [owns, List.append_nil]
  trees := trivial
  sizeEffects := Nat.le_of_eq effects.symm
  counted id := by
    simp only [Forest.allEffects, List.append_nil, List.not_mem_nil, effects, false_iff]
    omega

/-- A change of how the owner ended. -/
theorem adds_modifyCall (r : Recording) (id : CallId) {f : Call → Call}
    (caller : ∀ c, (f c).caller = c.caller) (subcalls : ∀ c, (f c).subcalls = c.subcalls)
    (effects : ∀ c, (f c).effects = c.effects) :
    r.Adds (r.modifyCall id f) (some id) .nil [] := by
  refine adds_nothing (size_calls_modifyCall ..) rfl rfl rfl rfl (fun x c found out => ?_)
    fun x c found eq => ?_
  · rw [call?_modifyCall, if_neg fun eq => out (by rw [eq]), found]
  · cases eq
    exact ⟨f c, by rw [call?_modifyCall, if_pos rfl, found]; rfl, caller c, subcalls c, effects c⟩

/-- The end of the owner. -/
theorem adds_endCall (r : Recording) (id : CallId) : r.Adds (r.endCall id) (some id) .nil [] := by
  refine adds_nothing (size_calls_endCall ..) rfl rfl rfl rfl (fun x c found out => ?_)
    fun x c found eq => ?_
  · rw [call?_endCall, if_neg fun eq => out (by rw [eq]), found]
  · cases eq
    exact ⟨withEnd r.nextMoment c, by rw [call?_endCall, if_pos rfl, found]; rfl, rfl, rfl, rfl⟩

/-- Whether a caller counts depends on whether the recording has it. -/
theorem filter_known {owner : Option CallId} (known : ∀ id, owner = some id → r.HasCall id) :
    (owner.filter fun c => decide (c.index < r.calls.size)) = owner := by
  cases owner with
  | none => rfl
  | some id =>
    simp only [Option.filter_some, decide_eq_true (hasCall_iff.1 (known id rfl)), if_true]

/-- A side effect of the owner. -/
theorem adds_pushEffect (change : Change) (known : ∀ id, owner = some id → r.HasCall id) :
    r.Adds (r.pushEffect change owner).1 owner .nil [⟨r.effects.size⟩] where
  size := by rw [size_calls_pushEffect]; rfl
  numbers := rfl
  captured := by rw [captured_pushEffect, Forest.preorder, List.append_nil]
  roots := by rw [roots_pushEffect, Forest.roots, ite_self, List.append_nil]
  rootEffects := by
    rw [rootEffects_pushEffect, filter_known known]
    split
    · rfl
    · rw [List.append_nil]
  others id c found out := by
    rw [call?_pushEffect, found, Option.map_some, if_neg out]
  owned id c found eq := by
    refine ⟨withEffect ⟨r.effects.size⟩ c, ?_, rfl, ?_, rfl⟩
    · rw [call?_pushEffect, found, Option.map_some, if_pos eq]
    · rw [Forest.roots, List.append_nil]
      rfl
  trees := trivial
  sizeEffects := by
    rw [size_effects_pushEffect]
    exact Nat.le_succ _
  counted id := by
    obtain ⟨n⟩ := id
    simp only [Forest.allEffects, List.append_nil, List.mem_singleton, EffectId.mk.injEq,
      size_effects_pushEffect]
    omega

theorem effectsSince_pushEffect (r : Recording) (change : Change) (owner : Option CallId) :
    r.effectsSince (r.pushEffect change owner).1 = [⟨r.effects.size⟩] := by
  simp [effectsSince]

/-- A call made from the owner. -/
theorem adds_pushCall (kind : CallKind) (definition : Definition) (input : Arguments)
    (known : ∀ id, owner = some id → r.HasCall id) (entered left : Nat) :
    r.Adds (r.pushCall kind definition input owner).1 owner
      (.node ⟨r.calls.size⟩ entered left [] .nil .nil) [] where
  size := size_calls_pushCall ..
  numbers := rfl
  captured := captured_pushCall ..
  roots := by
    have caller : (r.newCall kind definition input owner).caller = owner := filter_known known
    rw [roots_pushCall, caller]
    split
    · rfl
    · rw [List.append_nil]
  rootEffects := by rw [rootEffects_pushCall, ite_self, List.append_nil]
  others id c found out := by
    have lt := hasCall_iff.1 (.of_call? found)
    rw [call?_pushCall, if_neg (Nat.ne_of_lt lt), found, Option.map_some, if_neg out]
  owned id c found eq := by
    have lt := hasCall_iff.1 (.of_call? found)
    refine ⟨withSubcall ⟨r.calls.size⟩ c, ?_, rfl, rfl, ?_⟩
    · rw [call?_pushCall, if_neg (Nat.ne_of_lt lt), found, Option.map_some, if_pos eq]
    · rw [List.append_nil]
      rfl
  trees := by
    refine ⟨⟨r.newCall kind definition input owner, ?_, filter_known known, rfl, rfl⟩, trivial,
      trivial⟩
    rw [call?_pushCall, if_pos rfl]
  sizeEffects := by simp only [effects_pushCall, Nat.le_refl]
  counted id := by
    simp only [Forest.allEffects, List.append_nil, List.not_mem_nil, effects_pushCall, false_iff]
    omega

end Recording

/-- Noting values adds neither calls nor side effects. -/
theorem Session.Notes.adds {s t : Session} (h : s.Notes t) (owner : Option CallId) :
    s.recording.Adds t.recording owner .nil [] := by
  have same := h.sameCalls
  have call? (id : CallId) (c : Call) (found : s.recording.call? id = some c) :
      t.recording.call? id = some c := by rw [h.call?, found]
  exact Recording.adds_nothing (by rw [same.calls]) same.captured same.roots same.rootEffects
    (by rw [same.effects]) (fun id c found _ => call? id c found)
    fun id c found _ => ⟨c, call? id c found, rfl, rfl, rfl⟩

end Reenact
