import Reenact.Proofs.Recording.CrossReference

/-!
# What was recorded stays

An object shows its value as it was when it was recorded, and a call what it was when it started.
Operations add to a recording, and change of an object only what was done with it later: an instance
learns of the calls and generators made on it, and a generator of its resumptions
(`ObjectKind.Gains`). The end of a recording takes a last resumption back (`ObjectKind.Drops`), and
from one generator no more than one, because no generator is kept twice.

**The law** (`keepsSnapshots_perform`): this holds of every operation but the one that erases the
recording, refused or not, in every session that operations lead to. Side effects never change.
-/

namespace Reenact

namespace ObjectKind

/-- More was done with an object: an instance has its constructor call and its uses, and maybe more of
them, and a generator its activation and its resumptions. Other objects stay the same. -/
inductive Gains : ObjectKind → ObjectKind → Prop
  | same (kind : ObjectKind) : Gains kind kind
  | user {cls : ClassId} {init init' : Option CallId} {uses : List Use}
    (kept : ∀ id, init = some id → init' = some id) (late : List Use) :
    Gains (.user cls init uses) (.user cls init' (uses ++ late))
  | generator {activation activation' : Option Activation} {calls : List CallId}
    (kept : ∀ a, activation = some a → activation' = some a) (late : List CallId) :
    Gains (.generator activation calls) (.generator activation' (calls ++ late))

/-- An object is the same, or is a generator without its last resumption. -/
inductive Drops : ObjectKind → ObjectKind → Prop
  | same (kind : ObjectKind) : Drops kind kind
  | last (activation : Option Activation) (calls : List CallId) :
    Drops (.generator activation calls) (.generator activation calls.dropLast)

theorem Gains.trans {a b c : ObjectKind} (first : a.Gains b) (second : b.Gains c) : a.Gains c := by
  cases first with
  | same => exact second
  | user kept late =>
    cases second with
    | same => exact .user kept late
    | user kept' late' =>
      rw [List.append_assoc]
      exact .user (fun id eq => kept' id (kept id eq)) (late ++ late')
  | generator kept late =>
    cases second with
    | same => exact .generator kept late
    | generator kept' late' =>
      rw [List.append_assoc]
      exact .generator (fun id eq => kept' id (kept id eq)) (late ++ late')

theorem gains_addCall (kind : ObjectKind) (id : CallId) (isConstructor : Bool) :
    kind.Gains (kind.addCall id isConstructor) := by
  cases kind with
  | user cls init uses =>
    refine .user (fun first eq => ?_) [.call id]
    rw [eq, Option.isNone_some, Bool.and_false]
    rfl
  | _ => exact .same _

theorem gains_addGenerator (kind : ObjectKind) (id : ObjectId) :
    kind.Gains (kind.addGenerator id) := by
  cases kind with
  | user cls init uses => exact .user (fun _ eq => eq) [.generator id]
  | _ => exact .same _

theorem gains_addResumption (kind : ObjectKind) (id : CallId) :
    kind.Gains (kind.addResumption id) := by
  cases kind with
  | generator activation calls => exact .generator (fun _ eq => eq) [id]
  | _ => exact .same _

/-- A generator that was not made yet is made. -/
theorem gains_activate {kind : ObjectKind} {calls : List CallId}
    (unmade : kind = .generator none calls) (activation : Activation) :
    kind.Gains (kind.activate activation) := by
  have made : Gains (.generator none calls) (.generator (some activation) (calls ++ [])) :=
    .generator (fun _ eq => by cases eq) []
  rw [List.append_nil] at made
  rw [unmade]
  exact made

theorem drops_dropResumption (kind : ObjectKind) : kind.Drops kind.dropResumption := by
  cases kind with
  | generator activation calls => exact .last activation calls
  | _ => exact .same _

end ObjectKind

namespace Recording

open ObjectKind (Gains Drops)

variable {r s t : Recording} {P Q R : ObjectId → ObjectKind → ObjectKind → Prop}

/-- All that was recorded is still there. Of an object only what was done with it later may have
changed, in the given way, and of a call only how it went. -/
structure KeepsSnapshots (becomes : ObjectId → ObjectKind → ObjectKind → Prop) (r s : Recording) :
    Prop where
  objects : ∀ {id o}, r.object? id = some o →
    ∃ kind, s.object? id = some { o with kind := kind } ∧ becomes id o.kind kind
  calls : ∀ {id c}, r.call? id = some c → ∃ d, s.call? id = some d ∧ d.opening = c.opening
  effects : ∀ {id e}, r.effect? id = some e → s.effect? id = some e

/-- A recording never gets smaller. -/
theorem KeepsSnapshots.size_le (h : r.KeepsSnapshots P s) :
    r.objects.size ≤ s.objects.size ∧ r.calls.size ≤ s.calls.size ∧
      r.effects.size ≤ s.effects.size := by
  refine ⟨?_, ?_, ?_⟩
  · by_contra less
    obtain ⟨o, found⟩ : r.HasObject ⟨s.objects.size⟩ := hasObject_iff.2 (Nat.lt_of_not_le less)
    obtain ⟨kind, kept, -⟩ := h.objects found
    exact Nat.lt_irrefl _ (hasObject_iff.1 (.of_object? kept))
  · by_contra less
    obtain ⟨c, found⟩ : r.HasCall ⟨s.calls.size⟩ := hasCall_iff.2 (Nat.lt_of_not_le less)
    obtain ⟨d, kept, -⟩ := h.calls found
    exact Nat.lt_irrefl _ (hasCall_iff.1 (.of_call? kept))
  · by_contra less
    obtain ⟨e, found⟩ : r.HasEffect ⟨s.effects.size⟩ := hasEffect_iff.2 (Nat.lt_of_not_le less)
    exact Nat.lt_irrefl _ (hasEffect_iff.1 (.of_effect? (h.effects found)))

theorem KeepsSnapshots.refl (r : Recording) (stays : ∀ id kind, P id kind kind) :
    r.KeepsSnapshots P r :=
  ⟨fun found => ⟨_, found, stays ..⟩, fun found => ⟨_, found, rfl⟩, fun found => found⟩

theorem KeepsSnapshots.trans (first : r.KeepsSnapshots P s) (second : s.KeepsSnapshots Q t)
    (both : ∀ {id a b c}, P id a b → Q id b c → R id a c) : r.KeepsSnapshots R t where
  objects found := by
    obtain ⟨kind, kept, made⟩ := first.objects found
    obtain ⟨kind', kept', made'⟩ := second.objects kept
    exact ⟨kind', kept', both made made'⟩
  calls found := by
    obtain ⟨d, kept, opening⟩ := first.calls found
    obtain ⟨d', kept', opening'⟩ := second.calls kept
    exact ⟨d', kept', opening'.trans opening⟩
  effects found := second.effects (first.effects found)

theorem KeepsSnapshots.mono (h : r.KeepsSnapshots P s) (imp : ∀ {id a b}, P id a b → Q id a b) :
    r.KeepsSnapshots Q s where
  objects found := by
    obtain ⟨kind, kept, made⟩ := h.objects found
    exact ⟨kind, kept, imp made⟩
  calls := h.calls
  effects := h.effects

/-! ## Changes -/

/-- A change of how calls went. -/
theorem SameHeads.keepsSnapshots (h : r.SameHeads s) (stays : ∀ id kind, P id kind kind) :
    r.KeepsSnapshots P s where
  objects {id o} found := by
    rw [object?, h.objects]
    exact ⟨_, found, stays ..⟩
  calls {id c} found := by
    have same := h.openings id
    rw [found] at same
    exact Option.map_eq_some_iff.1 same
  effects := h.effects

/-- One more call. -/
theorem keepsSnapshots_pushCall (r : Recording) (kind : CallKind) (definition : Definition)
    (input : Arguments) (caller : Option CallId) :
    r.KeepsSnapshots (fun _ => Gains) (r.pushCall kind definition input caller).1 where
  objects found := by
    rw [object?, objects_pushCall]
    exact ⟨_, found, .same _⟩
  calls {id c} found := by
    have lt := hasCall_iff.1 (.of_call? found)
    rw [call?_pushCall, if_neg (Nat.ne_of_lt lt), found]
    refine ⟨_, rfl, ?_⟩
    dsimp only
    split <;> rfl
  effects found := by
    rw [effect?, effects_pushCall]
    exact found

/-- A change of one object. -/
theorem keepsSnapshots_modifyKind (r : Recording) (id : ObjectId) {f : ObjectKind → ObjectKind}
    (changes : ∀ o, r.object? id = some o → P id o.kind (f o.kind))
    (stays : ∀ id kind, P id kind kind) : r.KeepsSnapshots P (r.modifyKind id f) where
  objects {other o} found := by
    rw [object?_modifyKind]
    by_cases same : other = id
    · subst same
      rw [if_pos rfl, found]
      exact ⟨_, rfl, changes o found⟩
    · rw [if_neg same]
      exact ⟨_, found, stays ..⟩
  calls found := ⟨_, found, rfl⟩
  effects found := found

/-! ## The end of a recording -/

/-- What the end makes of an object, if it goes through the generators `ids`. -/
def DropsAmong (ids : List ObjectId) (id : ObjectId) (a b : ObjectKind) : Prop :=
  b = a ∨ id ∈ ids ∧ b = a.dropResumption

theorem keepsSnapshots_dropTrailing (r : Recording) (x : ObjectId) :
    r.KeepsSnapshots (DropsAmong [x]) (r.dropTrailing x) := by
  cases trailing : r.trailingResumption? x with
  | none =>
    unfold dropTrailing
    rw [trailing]
    exact .refl r fun _ _ => .inl rfl
  | some last =>
    obtain ⟨d, same, dropped⟩ := dropTrailing_sameHeads trailing
    have first : r.KeepsSnapshots (DropsAmong [x]) (r.modifyKind x (·.dropResumption)) :=
      keepsSnapshots_modifyKind r x (fun o _ => .inr ⟨List.mem_cons_self, rfl⟩) fun _ _ => .inl rfl
    have second : (r.modifyKind x (·.dropResumption)).KeepsSnapshots (fun _ a b => b = a) d :=
      same.keepsSnapshots fun _ _ => rfl
    rw [dropped]
    obtain ⟨objects, calls, effects⟩ := first.trans (R := DropsAmong [x]) second
      fun made same => same ▸ made
    exact ⟨objects, calls, effects⟩

/-- From a generator that is met once, no more than one resumption is taken. -/
theorem keepsSnapshots_dropAll {ids : List ObjectId} (once : ids.Nodup) (r : Recording) :
    r.KeepsSnapshots (DropsAmong ids) (ids.foldl dropTrailing r) := by
  induction ids generalizing r with
  | nil => exact .refl r fun _ _ => .inl rfl
  | cons x rest ih =>
    obtain ⟨new, once⟩ := List.nodup_cons.1 once
    refine (keepsSnapshots_dropTrailing r x).trans (ih once _) fun {id a b c} first second => ?_
    rcases first with rfl | ⟨mem, rfl⟩
    · rcases second with rfl | ⟨mem, rfl⟩
      · exact .inl rfl
      · exact .inr ⟨List.mem_cons_of_mem _ mem, rfl⟩
    · obtain rfl := List.mem_singleton.1 mem
      rcases second with rfl | ⟨again, -⟩
      · exact .inr ⟨List.mem_cons_self, rfl⟩
      · exact absurd again new

/-- Each generator is kept once, and is an object of the recording. -/
structure KeepsGeneratorsOnce (r : Recording) : Prop where
  once : (r.generators.map Prod.fst).Nodup
  known : ∀ entry ∈ r.generators, r.HasObject entry.1

/-- A change that keeps no more generators. -/
theorem KeepsGeneratorsOnce.congr (h : r.KeepsGeneratorsOnce)
    (generators : s.generators = r.generators) (grows : r.objects.size ≤ s.objects.size) :
    s.KeepsGeneratorsOnce where
  once := by
    rw [generators]
    exact h.once
  known entry mem := by
    rw [generators] at mem
    exact hasObject_iff.2 (Nat.lt_of_lt_of_le (hasObject_iff.1 (h.known entry mem)) grows)

theorem keepsGeneratorsOnce_of_nil (none : r.generators = []) : r.KeepsGeneratorsOnce := by
  constructor
  · rw [none]
    exact List.nodup_nil
  · rw [none]
    exact fun _ mem => (List.not_mem_nil mem).elim

theorem KeepsGeneratorsOnce.finish (h : r.KeepsGeneratorsOnce) (isExhausted : Value → Bool) :
    (r.finish isExhausted).KeepsGeneratorsOnce := by
  unfold Recording.finish
  split
  · exact h
  · exact keepsGeneratorsOnce_of_nil rfl

theorem keepsSnapshots_finish (h : r.KeepsGeneratorsOnce) (isExhausted : Value → Bool) :
    r.KeepsSnapshots (fun _ => Drops) (r.finish isExhausted) := by
  unfold finish
  split
  · exact .refl r fun _ => .same
  · have once : (r.exhausted isExhausted).Nodup :=
      h.once.sublist (List.filter_sublist.map Prod.fst)
    obtain ⟨objects, calls, effects⟩ :=
      (keepsSnapshots_dropAll once r).mono (Q := fun _ => Drops) fun {id a b} made => by
        rcases made with rfl | ⟨-, rfl⟩
        · exact .same _
        · exact ObjectKind.drops_dropResumption _
    exact ⟨objects, calls, effects⟩

end Recording

namespace Session

open ObjectKind (Gains Drops)
open Recording (KeepsGeneratorsOnce keepsSnapshots_pushCall keepsSnapshots_modifyKind)

variable {s t : Session} {op : Operation}

/-! ## Operations -/

theorem Takes.keepsSnapshots {around : List Handle} (h : s.Takes around t) :
    s.recording.KeepsSnapshots (fun _ => Gains) t.recording where
  objects found := ⟨_, h.object? found, .same _⟩
  calls {id c} found := by
    rw [Recording.call?, h.sameCalls.calls]
    exact ⟨c, found, rfl⟩
  effects found := by
    rw [Recording.effect?, h.sameCalls.effects]
    exact found

/-- Every change that an operation is made of keeps what was recorded. -/
theorem keepsSnapshots_of_does (h : op.Does s t) :
    s.recording.KeepsSnapshots (fun _ => Gains) t.recording := by
  have stays : ∀ (_ : ObjectId) kind, Gains kind kind := fun _ => .same
  cases h with
  | takes taken => exact taken.keepsSnapshots
  | links same => exact .refl _ stays
  | amends same => exact same.keepsSnapshots stays
  | calls => exact keepsSnapshots_pushCall ..
  | callsMethod =>
    exact (keepsSnapshots_pushCall ..).trans
      (keepsSnapshots_modifyKind _ _ (fun o _ => ObjectKind.gains_addCall ..) stays) .trans
  | activates found unmade =>
    refine keepsSnapshots_modifyKind _ _ (fun o there => ?_) stays
    cases there.symm.trans found
    exact ObjectKind.gains_activate unmade _
  | activatesOn found unmade =>
    refine (keepsSnapshots_modifyKind _ _ (fun o there => ?_) stays).trans
      (keepsSnapshots_modifyKind _ _ (fun o _ => ObjectKind.gains_addGenerator ..) stays) .trans
    cases there.symm.trans found
    exact ObjectKind.gains_activate unmade _
  | resumes =>
    exact (keepsSnapshots_pushCall ..).trans
      (keepsSnapshots_modifyKind _ _ (fun o _ => ObjectKind.gains_addResumption ..) stays) .trans

theorem keepsSnapshots_of_doesAll (h : DoesAll op s t) :
    s.recording.KeepsSnapshots (fun _ => Gains) t.recording := by
  induction h with
  | refl => exact .refl _ fun _ => .same
  | tail _ step ih => exact ih.trans (keepsSnapshots_of_does step) .trans

/-- A generator that is taken in has a number that none had. -/
theorem keepsGeneratorsOnce_pushKnown (h : s.recording.KeepsGeneratorsOnce) (v : Value)
    (kind : ObjectKind) : (s.pushKnown v kind).1.recording.KeepsGeneratorsOnce := by
  have size := Recording.size_objects_pushObject s.recording v kind
  rcases pushKnown_recording s v kind with eq | eq
  · rw [eq]
    exact h.congr rfl (size ▸ Nat.le_succ _)
  · rw [eq]
    have new : (⟨s.recording.objects.size⟩ : ObjectId) ∉ s.recording.generators.map Prod.fst := by
      intro mem
      obtain ⟨entry, listed, same⟩ := List.mem_map.1 mem
      have lt := Recording.hasObject_iff.1 (h.known entry listed)
      rw [same] at lt
      exact Nat.lt_irrefl _ lt
    constructor
    · show ((s.recording.generators ++
        [((⟨s.recording.objects.size⟩ : ObjectId), v)]).map Prod.fst).Nodup
      rw [List.map_append, List.map_singleton, ← List.concat_eq_append]
      exact h.once.concat new
    · intro entry mem
      rw [Recording.hasObject_iff]
      show entry.1.index < (s.recording.pushObject v kind).1.objects.size
      rw [size]
      rcases List.mem_append.1 mem with old | last
      · exact Nat.lt_succ_of_lt (Recording.hasObject_iff.1 (h.known entry old))
      · rw [List.mem_singleton.1 last]
        exact Nat.lt_succ_self _

theorem Takes.keepsGeneratorsOnce {around : List Handle} (h : s.Takes around t)
    (once : s.recording.KeepsGeneratorsOnce) : t.recording.KeepsGeneratorsOnce := by
  induction h with
  | refl => exact once
  | stray _ v ih =>
    refine ih.congr rfl ?_
    rw [size_objects_pushStray]
    exact Nat.le_succ _
  | known _ v _ _ _ ih => exact keepsGeneratorsOnce_pushKnown ih v _

theorem keepsGeneratorsOnce_of_doesAll (h : DoesAll op s t) (once : s.recording.KeepsGeneratorsOnce) :
    t.recording.KeepsGeneratorsOnce := by
  induction h with
  | refl => exact once
  | tail _ step ih =>
    have grows := (keepsSnapshots_of_does step).size_le.1
    cases step with
    | takes taken => exact taken.keepsGeneratorsOnce ih
    | links same => exact ih
    | amends same => exact ih.congr same.generators grows
    | calls | callsMethod | activates | activatesOn | resumes =>
      refine ih.congr ?_ grows
      simp only [record, Recording.generators_modifyKind, Recording.generators_pushCall]

theorem keepsGeneratorsOnce_perform (h : s.recording.KeepsGeneratorsOnce) (op : Operation) :
    (s.perform op).recording.KeepsGeneratorsOnce := by
  have changes (keeps : op.keepsHandles) : (s.perform op).recording.KeepsGeneratorsOnce :=
    keepsGeneratorsOnce_of_doesAll (perform_does s op keeps) h
  cases op with
  | finish isExhausted => exact h.finish isExhausted
  | erase => exact Recording.keepsGeneratorsOnce_of_nil rfl
  | _ => exact changes rfl

end Session

/-- What an operation may make of an object: the end of a recording takes resumptions back, all other
operations only add. -/
def Operation.Alters : Operation → ObjectKind → ObjectKind → Prop
  | .finish _ => ObjectKind.Drops
  | _ => ObjectKind.Gains

/-- All that was recorded is still there after an operation, as it was recorded, and no part of the
recording gets smaller. -/
structure Operation.KeepsRecorded (op : Operation) (before after : Recording) : Prop where
  snapshots : before.KeepsSnapshots (fun _ => op.Alters) after
  objects : before.objects.size ≤ after.objects.size
  calls : before.calls.size ≤ after.calls.size
  effects : before.effects.size ≤ after.effects.size

namespace Session

/-- In every session that operations lead to, an operation that leaves the objects in place keeps all
that was recorded. -/
theorem keepsSnapshots_perform (project : Project) (run : RunId) (ops : List Operation)
    (op : Operation) (keeps : op.keepsObjects) :
    op.KeepsRecorded ((start project run).performAll ops).recording
      (((start project run).performAll ops).perform op).recording := by
  have once : ((start project run).performAll ops).recording.KeepsGeneratorsOnce :=
    performAll_induction (P := (·.recording.KeepsGeneratorsOnce))
      (Recording.keepsGeneratorsOnce_of_nil rfl) fun op _ _ h => keepsGeneratorsOnce_perform h op
  have kept : ((start project run).performAll ops).recording.KeepsSnapshots (fun _ => op.Alters)
      (((start project run).performAll ops).perform op).recording := by
    cases op with
    | finish isExhausted => exact Recording.keepsSnapshots_finish once isExhausted
    | erase => cases keeps
    | _ => exact keepsSnapshots_of_doesAll (perform_does _ _ rfl)
  obtain ⟨objects, calls, effects⟩ := kept.size_le
  exact ⟨kept, objects, calls, effects⟩

theorem keepsSnapshots_perform_counted : (Operation.finish fun _ => true).keepsObjects = true ∧
    (Operation.finish fun _ => true).KeepsRecorded
      ((start Counted.project ⟨0⟩).performAll (Counted.ops.take 4)).recording
      (((start Counted.project ⟨0⟩).performAll (Counted.ops.take 4)).perform
        (.finish fun _ => true)).recording :=
  ⟨rfl, keepsSnapshots_perform Counted.project ⟨0⟩ (Counted.ops.take 4) (.finish fun _ => true) rfl⟩

/-- The end takes the resumption back that the generator had. -/
example : (((start Counted.project ⟨0⟩).performAll (Counted.ops.take 4)).recording.resumptionsOf ⟨1⟩,
    ((start Counted.project ⟨0⟩).performAll Counted.ops).recording.resumptionsOf ⟨1⟩) =
      ([⟨1⟩], []) := by
  decide +kernel

end Session

end Reenact
