import Reenact.Proofs.Recording.Reachable
import Reenact.Proofs.Refusal
import Reenact.Setup.Entry

/-!
# Putting entries together

A list with the appends right behind it becomes one entry. Where side effects carry their own numbers
this always succeeds, and taking the entries apart again gives what there was before, in the same
order (`fold_sound`).
-/

namespace Reenact

namespace Setup

open Recording (effect_eq_ok object_eq_ok)

variable {r : Recording}

/-! ## Taking an entry apart -/

/-- The first of the entries that an entry was put together from was recorded with it. -/
theorem exists_unfold_eq (r : Recording) (entry : Entry) :
    ∃ first others, entry.unfold = first :: others ∧ first.moment r = entry.moment r := by
  cases entry with
  | object => exact ⟨_, _, rfl, rfl⟩
  | effect => exact ⟨_, _, rfl, rfl⟩
  | grown => exact ⟨_, _, rfl, rfl⟩

/-- Entries that were not put together are all their own parts. -/
theorem flatMap_unfold_of_single {entries : List Entry} (h : ∀ e ∈ entries, e.unfold = [e]) :
    entries.flatMap Entry.unfold = entries := by
  induction entries with
  | nil => rfl
  | cons e rest ih =>
    obtain ⟨first, others⟩ := List.forall_mem_cons.1 h
    rw [List.flatMap_cons, first, ih others, List.singleton_append]

/-- An entry was put together from the object that it makes and from no other object. -/
theorem object_mem_unfold {entry : Entry} {x : ObjectId} :
    .object x ∈ entry.unfold ↔ entry.object? = some x := by
  cases entry with
  | object id => simp only [Entry.unfold, Entry.object?, List.mem_singleton, Entry.object.injEq,
      Option.some.injEq, eq_comm]
  | effect id => simp only [Entry.unfold, Entry.object?, List.mem_singleton, reduceCtorEq]
  | grown list => simp only [Entry.unfold, Entry.object?, List.mem_cons, List.mem_map,
      Entry.object.injEq, reduceCtorEq, and_false, exists_false, or_false, Option.some.injEq, eq_comm]

/-- The side effects that an entry repeats: the one that it stands for, or those that were put into
its list. -/
def Entry.repeats : Entry → List EffectId
  | object _ => []
  | effect id => [id]
  | grown list => list.appends

/-- Taking an entry apart tells the side effects that it repeats. -/
theorem filterMap_effect?_unfold (entry : Entry) :
    entry.unfold.filterMap Entry.effect? = entry.repeats := by
  cases entry with
  | object => rfl
  | effect => rfl
  | grown list =>
    have head : Entry.effect? (.object list.object) = none := rfl
    rw [Entry.unfold, List.filterMap_cons_none head, List.filterMap_map]
    exact List.filterMap_some

/-! ## Appends -/

/-- The side effect appends `value` to `list`. -/
def IsAppend (r : Recording) (list : ObjectId) (id : EffectId) (value : ObjectId) : Prop :=
  ∃ e, r.effect? id = some e ∧ e.change = .mutation .listAppend list [value]

/-- Every appended value was appended by one of the appends. -/
theorem exists_isAppend_of_mem {list : ObjectId} {appends : List EffectId} {values : List ObjectId}
    (h : List.Forall₂ (IsAppend r list) appends values) {value : ObjectId} (mem : value ∈ values) :
    ∃ id ∈ appends, IsAppend r list id value := by
  induction h with
  | nil => cases mem
  | cons first _ ih =>
    rcases List.mem_cons.1 mem with rfl | mem
    · exact ⟨_, List.mem_cons_self, first⟩
    · obtain ⟨id, listed, append⟩ := ih mem
      exact ⟨id, List.mem_cons_of_mem _ listed, append⟩

/-- The list holds what it held when it was recorded, and then what its appends appended. -/
def GrownList.IsSound (r : Recording) (l : GrownList) : Prop :=
  ∃ o contained appended, r.object? l.object = some o ∧ o.kind = .sequence .list contained ∧
    l.contained = contained ++ appended ∧ List.Forall₂ (IsAppend r l.object) l.appends appended

namespace Entry

/-- What the entry stands for is part of the recording. -/
def IsSound (r : Recording) : Entry → Prop
  | object id => r.HasObject id
  | effect id => r.HasEffect id
  | grown list => list.IsSound r

end Entry

theorem appendedTo?_eq_some {e : Effect} {list value : ObjectId} :
    e.appendedTo? list = some value ↔ e.change = .mutation .listAppend list [value] := by
  unfold Effect.appendedTo?
  split
  · rename_i receiver arg change
    rw [change]
    constructor
    · intro h
      split at h
      · rename_i same
        cases h
        rw [same]
      · cases h
    · intro h
      cases h
      rw [if_pos rfl]
  · rename_i other
    constructor
    · rintro ⟨⟩
    · intro h
      exact absurd h (other list value)

/-! ## Putting entries together -/

/-- The outcome of putting two entries together: when they make one, it stands for both. -/
def JoinsTo (r : Recording) (first second : Entry) (out : Option Entry) : Prop :=
  ∀ joined, out = some joined →
    joined.IsSound r ∧ joined.unfold = first.unfold ++ second.unfold

theorem joinsTo_none {first second : Entry} : JoinsTo r first second none :=
  fun _ eq => nomatch eq

/-- A list and the append right behind it make one entry. -/
theorem joinPair_object (numbers : r.NumbersEffects) {list : ObjectId} {o : Object} {id : EffectId}
    {e : Effect} (there : r.object? list = some o) (found : r.effect? id = some e) :
    ∃ out, joinPair r (.object list) (.effect id) = .ok out ∧
      JoinsTo r (.object list) (.effect id) out := by
  have answer := effect_eq_ok.2 found
  have number : e.id = id := numbers id e found
  by_cases appends : ∃ contained value, o.kind = .sequence .list contained ∧
      e.appendedTo? list = some value
  · obtain ⟨contained, value, kind, appended⟩ := appends
    refine ⟨some (.grown ⟨list, .list, contained ++ [value], [e.id]⟩),
      bind_eq_ok.2 ⟨e, answer, bind_eq_ok.2 ⟨o, object_eq_ok.2 there, ?_⟩⟩, ?_⟩
    · simp only [kind, appended]
      rfl
    · rintro joined ⟨⟩
      rw [number]
      exact ⟨⟨o, contained, [value], there, kind, rfl,
        .cons ⟨e, found, appendedTo?_eq_some.1 appended⟩ .nil⟩, rfl⟩
  · refine ⟨none, bind_eq_ok.2 ⟨e, answer, bind_eq_ok.2 ⟨o, object_eq_ok.2 there, ?_⟩⟩,
      joinsTo_none⟩
    split
    · rename_i contained kind
      split
      · rename_i value appended
        exact absurd ⟨contained, value, kind, appended⟩ appends
      · rfl
    · rfl

/-- A list that was put together takes in one more append. -/
theorem joinPair_grown (numbers : r.NumbersEffects) {list : GrownList} {id : EffectId} {e : Effect}
    (front : list.IsSound r) (found : r.effect? id = some e) :
    ∃ out, joinPair r (.grown list) (.effect id) = .ok out ∧
      JoinsTo r (.grown list) (.effect id) out := by
  have answer := effect_eq_ok.2 found
  have number : e.id = id := numbers id e found
  cases appended : e.appendedTo? list.object with
  | none =>
    refine ⟨none, bind_eq_ok.2 ⟨e, answer, ?_⟩, joinsTo_none⟩
    simp only [appended]
    rfl
  | some value =>
    refine ⟨some (.grown { list with
      contained := list.contained ++ [value], appends := list.appends ++ [e.id] }),
      bind_eq_ok.2 ⟨e, answer, ?_⟩, ?_⟩
    · simp only [appended]
      rfl
    · rintro joined ⟨⟩
      obtain ⟨o, contained, values, there, kind, holds, all⟩ := front
      rw [number]
      refine ⟨⟨o, contained, values ++ [value], there, kind, ?_, ?_⟩, ?_⟩
      · simp only [holds, List.append_assoc]
      · exact List.rel_append all (.cons ⟨e, found, appendedTo?_eq_some.1 appended⟩ .nil)
      · simp only [Entry.unfold, List.map_append, List.map_cons, List.map_nil, List.cons_append]

/-- It can be told whether two entries make one. -/
theorem joinPair_sound (numbers : r.NumbersEffects) {first second : Entry} (front : first.IsSound r)
    (back : second.IsSound r) :
    ∃ out, joinPair r first second = .ok out ∧ JoinsTo r first second out := by
  cases second with
  | object => exact ⟨none, rfl, joinsTo_none⟩
  | grown => exact ⟨none, rfl, joinsTo_none⟩
  | effect id =>
    obtain ⟨e, found⟩ := back
    cases first with
    | effect => exact ⟨none, bind_eq_ok.2 ⟨e, effect_eq_ok.2 found, rfl⟩, joinsTo_none⟩
    | object list =>
      obtain ⟨o, there⟩ := front
      exact joinPair_object numbers there found
    | grown list => exact joinPair_grown numbers front found

theorem foldFrom_sound (numbers : r.NumbersEffects) {first : Entry} {rest : List Entry}
    (front : first.IsSound r)
    (others : ∀ e ∈ rest, e.IsSound r) :
    ∃ out, foldFrom r first rest = .ok out ∧ (∀ e ∈ out, e.IsSound r) ∧
      out.flatMap Entry.unfold = first.unfold ++ rest.flatMap Entry.unfold := by
  induction rest generalizing first with
  | nil =>
    refine ⟨[first], rfl, fun e mem => ?_, ?_⟩
    · rw [List.mem_singleton.1 mem]
      exact front
    · simp only [List.flatMap_cons, List.flatMap_nil]
  | cons second rest ih =>
    obtain ⟨back, others⟩ := List.forall_mem_cons.1 others
    obtain ⟨pair, answer, together⟩ := joinPair_sound numbers front back
    cases pair with
    | some joined =>
      obtain ⟨sound, unfolds⟩ := together joined rfl
      obtain ⟨out, rest_eq, allSound, taken⟩ := ih sound others
      refine ⟨out, bind_eq_ok.2 ⟨some joined, answer, rest_eq⟩, allSound, ?_⟩
      rw [taken, unfolds, List.flatMap_cons, List.append_assoc]
    | none =>
      obtain ⟨out, rest_eq, allSound, taken⟩ := ih back others
      refine ⟨first :: out, bind_eq_ok.2 ⟨none, answer, bind_eq_ok.2 ⟨out, rest_eq, rfl⟩⟩,
        List.forall_mem_cons.2 ⟨front, allSound⟩, ?_⟩
      rw [List.flatMap_cons, taken, List.flatMap_cons]

/-- Entries of the recording can always be put together. The result stands for the same entries
in the same order, and every list in it holds what was appended to it. -/
theorem fold_sound (numbers : r.NumbersEffects) {entries : List Entry}
    (sound : ∀ e ∈ entries, e.IsSound r) :
    ∃ out, fold r entries = .ok out ∧ (∀ e ∈ out, e.IsSound r) ∧
      out.flatMap Entry.unfold = entries.flatMap Entry.unfold := by
  cases entries with
  | nil => exact ⟨[], rfl, fun _ mem => (List.not_mem_nil mem).elim, rfl⟩
  | cons first rest =>
    obtain ⟨front, others⟩ := List.forall_mem_cons.1 sound
    exact foldFrom_sound numbers front others

end Setup

end Reenact
