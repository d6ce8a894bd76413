import Mathlib.Data.List.Nodup
import Mathlib.Data.List.Perm.Subperm
import Reenact.Proofs.Setup.Candidates

/-!
# The closure of a working set

On a sound recording the closure of calls can always be told (`closure_sound`). It holds objects of
the recording, none twice, and candidate side effects, none twice.

**The law** (`Settled`): the closure is settled. Every candidate that affects an object of the
working set is included. The search gives up after a number of rounds, and the law is that it never
does so early: a round that is not the last includes a candidate, and no candidate is included twice.
-/

namespace Reenact

namespace Setup

open Recording

variable {r : Recording}

/-! ## What objects need -/

/-- On a sound recording what an object needs can be told, and is part of the recording. -/
theorem needs_sound (h : r.Sound) {id : ObjectId} {o : Object} (found : r.object? id = some o) :
    ∃ ids, needs r o = .ok ids ∧ ∀ x ∈ ids, r.HasObject x := by
  have sound := (h.objects found).2
  have parts : ∀ x ∈ o.kind.parts, r.HasObject x := fun x mem => (sound.parts x mem).hasObject
  have callRefs := sound.callRefs
  have objectRefs := sound.objectRefs
  unfold needs
  split
  · rename_i cls init uses kind
    rw [kind] at callRefs
    obtain ⟨c, known⟩ := callRefs init
      (List.mem_append_left _ (Option.mem_toList.2 rfl))
    refine ⟨c.input.values, bind_eq_ok.2 ⟨c, call_eq_ok.2 known, rfl⟩, fun x mem => ?_⟩
    exact ((h.calls known).2.starts x
      (List.mem_append_left _ (List.mem_append_left _ mem))).hasObject
  · rename_i activation calls kind
    rw [kind] at objectRefs
    cases maker : activation.maker with
    | userObject owner =>
      refine ⟨_, rfl, fun x mem => objectRefs x ?_⟩
      simp only [ObjectKind.objectRefs, maker]
      exact mem
    | function _ =>
      refine ⟨_, rfl, fun x mem => objectRefs x ?_⟩
      simp only [ObjectKind.objectRefs, maker]
      exact List.mem_append_left _ mem
  · exact ⟨_, rfl, parts⟩

/-- A set of objects of the recording, none twice. -/
structure IsObjectSet (r : Recording) (objects : List Nat) : Prop where
  known : ∀ n ∈ objects, r.HasObject ⟨n⟩
  nodup : objects.Nodup

theorem isObjectSet_nil : IsObjectSet r [] := ⟨fun _ mem => (List.not_mem_nil mem).elim, .nil⟩

/-- One step of the walk through what objects need. -/
def nextNeeded (r : Recording) (n : Nat) : Except Fault (List Nat) := do
  let o ← r.object ⟨n⟩
  return indices (← needs r o)

theorem nextNeeded_sound (h : r.Sound) {n : Nat} (known : r.HasObject ⟨n⟩) :
    n < r.objects.size ∧ ∃ successors, nextNeeded r n = .ok successors ∧
      ∀ m ∈ successors, r.HasObject ⟨m⟩ := by
  obtain ⟨o, found⟩ := known
  obtain ⟨ids, answer, there⟩ := needs_sound h found
  refine ⟨hasObject_iff.1 (.of_object? found), indices ids,
    bind_eq_ok.2 ⟨o, object_eq_ok.2 found, bind_eq_ok.2 ⟨ids, answer, rfl⟩⟩, fun m mem => ?_⟩
  obtain ⟨x, inside, rfl⟩ := List.mem_map.1 mem
  exact there x inside

/-- Adding objects of the recording with all that they need answers, and loses nothing. -/
theorem addNeeded_sound (h : r.Sound) {objects : List Nat} {pending : List ObjectId}
    (old : IsObjectSet r objects) (new : ∀ x ∈ pending, r.HasObject x) :
    ∃ result, addNeeded r objects pending = .ok result ∧ IsObjectSet r result ∧
      objects ⊆ result ∧ indices pending ⊆ result := by
  have start : ∀ n ∈ indices pending, r.HasObject ⟨n⟩ := by
    intro n mem
    obtain ⟨x, inside, rfl⟩ := List.mem_map.1 mem
    exact new x inside
  obtain ⟨result, walk⟩ : ∃ result, Graph.reach r.objects.size (nextNeeded r) missingObject objects
      (indices pending) = .ok result :=
    Graph.exists_reach (fun n => nextNeeded_sound h) start
  refine ⟨result, walk, ⟨?_, Graph.reach_nodup walk old.nodup⟩, Graph.subset_reach walk⟩
  refine Graph.reach_induction walk (fun n m known edge => ?_) start old.known
  obtain ⟨successors, answer, mem⟩ := edge
  obtain ⟨-, others, answer', there⟩ := nextNeeded_sound h known
  rw [answer] at answer'
  cases answer'
  exact there m mem

/-- The search for what is older than a call answers, with objects of the recording. -/
theorem olderParts_sound (h : r.Sound) {id : ObjectId} (known : r.HasObject id) (started : Moment) :
    ∃ ids, olderParts r id started = .ok ids ∧ ∀ x ∈ ids, r.HasObject x := by
  have step (n : Nat) (known : r.HasObject ⟨n⟩) : n < r.objects.size ∧ ∃ successors,
      (do let o ← r.object ⟨n⟩
          return if o.moment.before started then [] else indices o.parts) = .ok successors ∧
        ∀ m ∈ successors, r.HasObject ⟨m⟩ := by
    obtain ⟨o, found⟩ := known
    refine ⟨hasObject_iff.1 (.of_object? found), _,
      bind_eq_ok.2 ⟨o, object_eq_ok.2 found, rfl⟩, fun m mem => ?_⟩
    split at mem
    · cases mem
    · obtain ⟨x, inside, rfl⟩ := List.mem_map.1 mem
      exact ((h.objects found).2.parts x inside).hasObject
  obtain ⟨met, walk⟩ : ∃ met, Graph.reach r.objects.size (fun n => do
      let o ← r.object ⟨n⟩
      return if o.moment.before started then [] else indices o.parts) missingObject []
      [id.index] = .ok met :=
    Graph.exists_reach step fun n mem => by
      rw [List.mem_singleton.1 mem]
      exact known
  refine ⟨_, bind_eq_ok.2 ⟨met, walk, rfl⟩, fun x mem => ?_⟩
  obtain ⟨o, found, -⟩ := (Option.any_eq_true _ _).1 (List.mem_filter.1 mem).2
  exact ⟨o, found⟩

/-- The working set of a call starts with what the call starts from, and with what of its outcome is
older; all of it is part of the recording. -/
theorem seeds_sound (h : r.Sound) {id : CallId} {c : Call} (found : r.call? id = some c) :
    ∃ ids, seeds r c = .ok ids ∧ c.startsFrom ⊆ ids ∧ ∀ x ∈ ids, r.HasObject x := by
  have sound := (h.calls found).2
  have starts : ∀ x ∈ c.startsFrom, r.HasObject x := fun x mem => (sound.starts x mem).hasObject
  unfold seeds
  cases ended : c.outcome with
  | none => exact ⟨_, rfl, List.Subset.refl _, starts⟩
  | some outcome =>
    obtain ⟨older, answer, there⟩ := olderParts_sound h (sound.outcome outcome ended).1 c.moment
    refine ⟨_, bind_eq_ok.2 ⟨older, answer, rfl⟩, List.subset_append_left _ _, fun x mem => ?_⟩
    rcases List.mem_append.1 mem with mem | mem
    · exact starts x mem
    · exact there x mem

/-- What all calls start from can be put into one working set. -/
theorem seeded_sound (h : r.Sound) {subjects : List Call}
    (known : ∀ c ∈ subjects, r.call? c.id = some c) {start : List Nat}
    (isSet : IsObjectSet r start) :
    ∃ seeded, subjects.foldlM (fun set c => do addNeeded r set (← seeds r c)) start = .ok seeded ∧
      IsObjectSet r seeded ∧ start ⊆ seeded ∧
      ∀ c ∈ subjects, indices c.startsFrom ⊆ seeded := by
  induction subjects generalizing start with
  | nil => exact ⟨start, rfl, isSet, List.Subset.refl _, fun _ mem => (List.not_mem_nil mem).elim⟩
  | cons c rest ih =>
    obtain ⟨found, others⟩ := List.forall_mem_cons.1 known
    obtain ⟨ids, ids_eq, starts, there⟩ := seeds_sound h found
    obtain ⟨next, next_eq, isSet, old, new⟩ := addNeeded_sound h isSet there
    obtain ⟨seeded, seeded_eq, isSet, kept, all⟩ := ih others isSet
    refine ⟨seeded, ?_, isSet, List.Subset.trans old kept, List.forall_mem_cons.2 ⟨?_, all⟩⟩
    · rw [List.foldlM_cons]
      exact bind_eq_ok.2 ⟨next, bind_eq_ok.2 ⟨ids, ids_eq, next_eq⟩, seeded_eq⟩
    · exact List.Subset.trans (List.map_subset _ starts) (List.Subset.trans new kept)

/-! ## Including candidates -/

namespace Closure

variable {candidates : List Effect} {c d : Closure}

/-- What the search keeps: objects of the recording, and candidates, none of them twice. -/
structure Within (r : Recording) (candidates : List Effect) (c : Closure) : Prop where
  objects : IsObjectSet r c.objects
  effects : c.effects ⊆ candidates
  nodup : (c.effects.map Effect.id).Nodup

/-- Every candidate that affects an object of the working set is included. -/
def Settled (candidates : List Effect) (c : Closure) : Prop :=
  ∀ e ∈ candidates, c.concerns e = true → c.includes e = true

/-- The candidates are side effects of the recording. -/
def AreCandidates (r : Recording) (candidates : List Effect) : Prop :=
  ∀ e ∈ candidates, r.effect? e.id = some e

/-- Candidates have numbers of their own, so no more of them are included than there are. -/
theorem Within.length_le (h : Within r candidates c) : c.effects.length ≤ candidates.length :=
  (List.subperm_of_subset (List.Nodup.of_map _ h.nodup) h.effects).length_le

/-- Considering a candidate either changes nothing, and then it need not be included, or includes
it. -/
theorem consider_sound (h : r.Sound) (known : AreCandidates r candidates)
    (old : Within r candidates c) {e : Effect} (mem : e ∈ candidates) :
    ∃ next, consider r c e = .ok next ∧ Within r candidates next ∧ c.objects ⊆ next.objects ∧
      (next = c ∧ (c.concerns e = true → c.includes e = true) ∨
        next.effects = e :: c.effects) := by
  unfold consider
  by_cases settled : (c.includes e || !c.concerns e) = true
  · rw [if_pos settled]
    refine ⟨c, rfl, old, List.Subset.refl _, .inl ⟨rfl, fun concerned => ?_⟩⟩
    simpa only [concerned, Bool.not_true, Bool.or_false] using settled
  · rw [if_neg settled]
    have referenced : ∀ x ∈ e.referenced, r.HasObject x := fun x inside =>
      ((h.effects (known e mem)).2.referenced x inside).hasObject
    obtain ⟨objects, answer, there, kept, -⟩ := addNeeded_sound h old.objects referenced
    refine ⟨⟨objects, e :: c.effects⟩, bind_eq_ok.2 ⟨objects, answer, rfl⟩,
      ⟨there, List.cons_subset.2 ⟨mem, old.effects⟩, ?_⟩, kept, .inr rfl⟩
    refine List.nodup_cons.2 ⟨fun twice => settled ?_, old.nodup⟩
    obtain ⟨f, included, same⟩ := List.mem_map.1 twice
    have isIncluded : c.includes e = true :=
      List.any_eq_true.2 ⟨f, included, beq_iff_eq.2 same⟩
    rw [isIncluded, Bool.true_or]

/-- A round includes candidates, or leaves everything as it was because all is settled. -/
theorem round_sound (h : r.Sound) (known : AreCandidates r candidates)
    {chosen : List Effect} (sub : chosen ⊆ candidates) (old : Within r candidates c) :
    ∃ next, chosen.foldlM (consider r) c = .ok next ∧ Within r candidates next ∧
      c.objects ⊆ next.objects ∧
      (next = c ∧ Settled chosen c ∨ c.effects.length < next.effects.length) := by
  induction chosen generalizing c with
  | nil =>
    exact ⟨c, rfl, old, List.Subset.refl _, .inl ⟨rfl, fun e mem => (List.not_mem_nil mem).elim⟩⟩
  | cons e rest ih =>
    obtain ⟨mem, others⟩ := List.cons_subset.1 sub
    obtain ⟨first, answer, within, kept, outcome⟩ := consider_sound h known old mem
    obtain ⟨next, answers, within', kept', outcome'⟩ := ih others within
    refine ⟨next, ?_, within', List.Subset.trans kept kept', ?_⟩
    · rw [List.foldlM_cons]
      exact bind_eq_ok.2 ⟨first, answer, answers⟩
    · rcases outcome with ⟨rfl, settled⟩ | included
      · rcases outcome' with ⟨same, all⟩ | more
        · refine .inl ⟨same, fun f there => ?_⟩
          rcases List.mem_cons.1 there with rfl | there
          · exact settled
          · exact all f there
        · exact .inr more
      · refine .inr ?_
        have grown : first.effects.length = c.effects.length + 1 := by
          rw [included, List.length_cons]
        rcases outcome' with ⟨rfl, -⟩ | more
        · omega
        · omega

/-- With a round for each candidate that is not included, and one more, the search settles. -/
theorem rounds_sound (h : r.Sound) (known : AreCandidates r candidates) {n : Nat}
    (old : Within r candidates c) (enough : candidates.length < n + c.effects.length) :
    ∃ final, rounds r candidates n c = .ok final ∧ Within r candidates final ∧
      c.objects ⊆ final.objects ∧ Settled candidates final := by
  induction n generalizing c with
  | zero =>
    have := old.length_le
    omega
  | succ n ih =>
    obtain ⟨next, answer, within, kept, outcome⟩ :=
      round_sound h known (List.Subset.refl candidates) old
    rcases outcome with ⟨rfl, settled⟩ | more
    · refine ⟨next, bind_eq_ok.2 ⟨next, answer, ?_⟩, within, kept, settled⟩
      rw [if_pos rfl]
      rfl
    · obtain ⟨final, answers, within', kept', settled⟩ := ih within (by omega)
      refine ⟨final, bind_eq_ok.2 ⟨next, answer, ?_⟩, within', List.Subset.trans kept kept',
        settled⟩
      rw [if_neg (Nat.ne_of_gt more)]
      exact answers

end Closure

/-- On a sound recording the candidates of calls can be told. -/
theorem allCandidates_sound (h : r.Sound) {subjects : List Call}
    (known : ∀ c ∈ subjects, r.call? c.id = some c) :
    ∃ found, subjects.mapM (candidates r) = .ok found ∧
      ∀ e, e ∈ found.flatten ↔ ∃ c ∈ subjects, IsCandidate r c.id c e := by
  obtain ⟨found, found_eq⟩ := mapM_answers (f := candidates r) (l := subjects) fun c mem => by
    obtain ⟨effects, answer, -⟩ := candidates_sound h (known c mem)
    exact ⟨effects, answer⟩
  refine ⟨found, found_eq, fun e => ?_⟩
  constructor
  · intro mem
    obtain ⟨effects, listed, mem⟩ := List.mem_flatten.1 mem
    obtain ⟨c, subject, answer⟩ := mem_of_mapM_eq_ok found_eq listed
    obtain ⟨effects', answer', mem_effects⟩ := candidates_sound h (known c subject)
    rw [answer] at answer'
    cases answer'
    exact ⟨c, subject, (mem_effects e).1 mem⟩
  · rintro ⟨c, subject, candidate⟩
    obtain ⟨effects, listed, answer⟩ := exists_of_mapM_eq_ok found_eq subject
    obtain ⟨effects', answer', mem_effects⟩ := candidates_sound h (known c subject)
    rw [answer] at answer'
    cases answer'
    exact List.mem_flatten.2 ⟨effects, listed, (mem_effects e).2 candidate⟩

/-- On a sound recording the closure of calls and further objects can be told. It holds what the calls
start from, it is settled, and the side effects in it are candidates of these calls. -/
theorem closure_sound (h : r.Sound) {subjects : List Call}
    (known : ∀ c ∈ subjects, r.call? c.id = some c) {objects : List ObjectId}
    (there : ∀ x ∈ objects, r.HasObject x) :
    ∃ found final, closure r subjects objects = .ok final ∧
      Closure.Within r found final ∧ (∀ c ∈ subjects, indices c.startsFrom ⊆ final.objects) ∧
      Closure.Settled found final ∧
      ∀ e, e ∈ found ↔ ∃ c ∈ subjects, IsCandidate r c.id c e := by
  obtain ⟨start, start_eq, isSet, -⟩ := addNeeded_sound h isObjectSet_nil there
  obtain ⟨seeded, seeded_eq, isSet, -, starts⟩ := seeded_sound h known isSet
  obtain ⟨found, found_eq, mem_found⟩ := allCandidates_sound h known
  have areCandidates : Closure.AreCandidates r found.flatten := by
    intro e mem
    obtain ⟨c, -, candidate⟩ := (mem_found e).1 mem
    exact candidate.1
  obtain ⟨final, answer, within, kept, settled⟩ :=
    Closure.rounds_sound h areCandidates (c := ⟨seeded, []⟩)
      (n := found.flatten.length + 1) ⟨isSet, List.nil_subset _, List.nodup_nil⟩
      (Nat.lt_succ_self _)
  refine ⟨found.flatten, final, ?_, within, fun c mem => List.Subset.trans (starts c mem) kept,
    settled, mem_found⟩
  exact bind_eq_ok.2 ⟨start, start_eq, bind_eq_ok.2 ⟨seeded, seeded_eq,
    bind_eq_ok.2 ⟨found, found_eq, answer⟩⟩⟩

end Setup

end Reenact
