import Reenact.Proofs.Setup.Entry

/-!
# Folding appends

Entries can be put together in place. The loop looks at two neighbours at a time; where they make
one entry it stays there and looks at what comes next, and otherwise it goes on by one
(`foldInPlace`). What is in front of its place is settled and never looked at again, so the loop is
the recursion `foldFrom` with the settled entries in front (`foldInPlace_append`).

**The law** (`fold_isExact`): entries for objects and side effects of a reachable recording can
always be folded. Taking the result apart gives the entries back, and no neighbours in it make one
entry; it is the only list of that kind (`IsFolded.fold_eq`), and folding it once more changes
nothing.
-/

namespace Reenact.Setup

open Recording (effect_eq_ok object_eq_ok)

variable {r : Recording} {first second : Entry} {rest out : List Entry}

/-! ## Entries -/

namespace Entry

/-- The entry stands for one object or one side effect of the recording. -/
def IsSingle (r : Recording) : Entry → Prop
  | object id => r.HasObject id
  | effect id => r.HasEffect id
  | grown _ => False

/-- The entry makes that list. -/
def MakesList (r : Recording) (list : ObjectId) : Entry → Prop
  | object id =>
    id = list ∧ ∃ o contained, r.object? id = some o ∧ o.kind = .sequence .list contained
  | effect _ => False
  | grown l => l.object = list

/-- The entry appends one object to that list. -/
def AppendsTo (r : Recording) (list : ObjectId) : Entry → Prop
  | effect id => ∃ value, IsAppend r list id value
  | object _ | grown _ => False

/-- A list that was put together is a list, and something was appended to it. -/
def IsGrown : Entry → Prop
  | grown l => l.shape = .list ∧ l.appends ≠ []
  | object _ | effect _ => True

variable {entry : Entry}

theorem IsSingle.isSound (h : entry.IsSingle r) : entry.IsSound r := by
  cases entry with
  | object | effect => exact h
  | grown => exact h.elim

theorem IsSingle.unfold_eq (h : entry.IsSingle r) : entry.unfold = [entry] := by
  cases entry with
  | object | effect => rfl
  | grown => exact h.elim

theorem IsSingle.isGrown (h : entry.IsSingle r) : entry.IsGrown := by
  cases entry with
  | object | effect => trivial
  | grown => exact h.elim

end Entry

/-! ## Neighbours -/

/-- The second entry appends to the list that the first one makes. -/
def Joins (r : Recording) (first second : Entry) : Prop :=
  ∃ list, first.MakesList r list ∧ second.AppendsTo r list

theorem Joins.mono {head : Entry} (h : Joins r first head)
    (starts : ∀ list, head.AppendsTo r list → second.AppendsTo r list) : Joins r first second := by
  obtain ⟨list, makes, appends⟩ := h
  exact ⟨list, makes, starts list appends⟩

/-- The first part of an entry is an append only if it is all of the entry. -/
theorem exists_sound_head {entry : Entry} (sound : entry.IsSound r) :
    ∃ head tail, entry.unfold = head :: tail ∧ head.IsSound r ∧
      ∀ list, head.AppendsTo r list → entry.AppendsTo r list := by
  cases entry with
  | object | effect => exact ⟨_, _, rfl, sound, fun _ appends => appends⟩
  | grown l =>
    obtain ⟨o, _, _, there, -⟩ := sound
    exact ⟨_, _, rfl, .of_object? there, fun _ appends => appends.elim⟩

theorem appendsTo_effect (list : ObjectId) {id : EffectId} {e : Effect}
    (found : r.effect? id = some e) :
    (Entry.effect id).AppendsTo r list ↔ ∃ value, e.appendedTo? list = some value := by
  refine exists_congr fun value => ?_
  rw [appendedTo?_eq_some, IsAppend, found]
  simp only [Option.some.injEq, exists_eq_left']

/-- What becomes of two entries: they stay apart, or the second one appends to the list that the
first one makes, and that list takes it in. -/
def IsOutcome (r : Recording) (first second : Entry) (out : Option Entry) : Prop :=
  (out = none ∧ ¬Joins r first second) ∨ ∃ l, out = some (.grown l) ∧ Joins r first second ∧
    l.appends ≠ [] ∧ (first.IsGrown → l.shape = .list)

theorem isOutcome_object {list : ObjectId} {id : EffectId} {out : Option Entry}
    (answer : joinPair r (.object list) (.effect id) = .ok out) :
    IsOutcome r (.object list) (.effect id) out := by
  obtain ⟨e, found, answer⟩ := bind_eq_ok.1 answer
  obtain ⟨o, there, answer⟩ := bind_eq_ok.1 answer
  have there := object_eq_ok.1 there
  have appends := appendsTo_effect list (effect_eq_ok.1 found)
  split at answer
  · rename_i contained kind
    split at answer
    · rename_i value appended
      cases answer
      exact .inr ⟨_, rfl, ⟨list, ⟨rfl, o, contained, there, kind⟩, appends.2 ⟨value, appended⟩⟩,
        List.cons_ne_nil _ _, fun _ => rfl⟩
    · rename_i none
      cases answer
      refine .inl ⟨rfl, ?_⟩
      rintro ⟨_, ⟨rfl, -⟩, second⟩
      obtain ⟨value, other⟩ := appends.1 second
      cases none.symm.trans other
  · rename_i other
    cases answer
    refine .inl ⟨rfl, ?_⟩
    rintro ⟨_, ⟨rfl, o', contained, there', kind⟩, -⟩
    cases there.symm.trans there'
    exact other contained kind

theorem isOutcome_grown {l : GrownList} {id : EffectId} {out : Option Entry}
    (answer : joinPair r (.grown l) (.effect id) = .ok out) :
    IsOutcome r (.grown l) (.effect id) out := by
  obtain ⟨e, found, answer⟩ := bind_eq_ok.1 answer
  have appends := appendsTo_effect l.object (effect_eq_ok.1 found)
  dsimp only at answer
  cases appended : e.appendedTo? l.object with
  | some value =>
    rw [appended] at answer
    cases answer
    refine .inr ⟨_, rfl, ⟨l.object, rfl, appends.2 ⟨value, appended⟩⟩, ?_, fun grown => grown.1⟩
    exact List.append_ne_nil_of_right_ne_nil _ (List.cons_ne_nil _ _)
  | none =>
    rw [appended] at answer
    cases answer
    refine .inl ⟨rfl, ?_⟩
    rintro ⟨_, rfl, second⟩
    obtain ⟨value, other⟩ := appends.1 second
    cases appended.symm.trans other

/-- Two entries make one exactly when the second appends to the list that the first makes. -/
theorem isOutcome_of_joinPair {out : Option Entry} (answer : joinPair r first second = .ok out) :
    IsOutcome r first second out := by
  cases second with
  | object | grown =>
    cases answer
    exact .inl ⟨rfl, fun ⟨_, _, appends⟩ => appends⟩
  | effect id =>
    cases first with
    | object list => exact isOutcome_object answer
    | grown l => exact isOutcome_grown answer
    | effect =>
      obtain ⟨e, found, ⟨⟩⟩ := bind_eq_ok.1 answer
      exact .inl ⟨rfl, fun ⟨_, makes, _⟩ => makes⟩

/-! ## Folding -/

/-- One step of folding: the first entry is settled, or it takes in the second. -/
theorem foldFrom_cons_cases (answer : foldFrom r first (second :: rest) = .ok out) :
    (∃ tail, out = first :: tail ∧ ¬Joins r first second ∧ foldFrom r second rest = .ok tail) ∨
      ∃ l, foldFrom r (.grown l) rest = .ok out ∧ l.appends ≠ [] ∧
        (first.IsGrown → l.shape = .list) := by
  obtain ⟨pair, joined, answer⟩ := bind_eq_ok.1 answer
  rcases isOutcome_of_joinPair joined with ⟨rfl, apart⟩ | ⟨l, rfl, -, appends, shape⟩
  · obtain ⟨tail, below, ⟨⟩⟩ := bind_eq_ok.1 answer
    exact .inl ⟨tail, rfl, apart, below⟩
  · exact .inr ⟨l, answer, appends, shape⟩

/-- Every list in the result is one that was put together. -/
theorem isGrown_of_foldFrom (answer : foldFrom r first rest = .ok out) (front : first.IsGrown)
    (others : ∀ e ∈ rest, e.IsGrown) : ∀ e ∈ out, e.IsGrown := by
  induction rest generalizing first out with
  | nil =>
    cases answer
    exact List.forall_mem_singleton.2 front
  | cons second rest ih =>
    obtain ⟨back, others⟩ := List.forall_mem_cons.1 others
    rcases foldFrom_cons_cases answer with ⟨tail, rfl, -, below⟩ | ⟨l, below, appends, shape⟩
    · exact List.forall_mem_cons.2 ⟨front, ih below back others⟩
    · exact ih below ⟨shape front, appends⟩ others

/-- No neighbours in the result make one entry. An entry that takes in others is no append, so what
stands in front of the first entry joins to the first of the result only if it joins to that
entry. -/
theorem isChain_of_foldFrom (answer : foldFrom r first rest = .ok out) :
    out.IsChain (fun a b => ¬Joins r a b) ∧ ∃ head tail, out = head :: tail ∧
      ∀ list, head.AppendsTo r list → first.AppendsTo r list := by
  induction rest generalizing first out with
  | nil =>
    cases answer
    exact ⟨.singleton _, _, _, rfl, fun _ appends => appends⟩
  | cons second rest ih =>
    rcases foldFrom_cons_cases answer with ⟨tail, rfl, apart, below⟩ | ⟨l, below, -⟩
    · obtain ⟨chain, head, tail, rfl, starts⟩ := ih below
      exact ⟨.cons_cons (fun joins => apart (joins.mono starts)) chain, _, _, rfl,
        fun _ appends => appends⟩
    · obtain ⟨chain, head, tail, split, starts⟩ := ih below
      exact ⟨chain, head, tail, split, fun list appends => (starts list appends).elim⟩

/-- Where no neighbours make one entry, there is nothing to fold. -/
theorem foldFrom_of_isChain (numbers : r.NumbersEffects) (front : first.IsSound r)
    (others : ∀ e ∈ rest, e.IsSound r)
    (settled : (first :: rest).IsChain fun a b => ¬Joins r a b) :
    foldFrom r first rest = .ok (first :: rest) := by
  induction rest generalizing first with
  | nil => rfl
  | cons second rest ih =>
    obtain ⟨back, others⟩ := List.forall_mem_cons.1 others
    obtain ⟨apart, settled⟩ := List.isChain_cons_cons.1 settled
    obtain ⟨pair, joined, -⟩ := joinPair_sound numbers front back
    rcases isOutcome_of_joinPair joined with ⟨rfl, -⟩ | ⟨l, -, joins, -⟩
    · exact bind_eq_ok.2 ⟨none, joined, bind_eq_ok.2 ⟨_, ih back others settled, rfl⟩⟩
    · exact absurd joins apart

theorem fold_of_isChain (numbers : r.NumbersEffects) {entries : List Entry}
    (sound : ∀ e ∈ entries, e.IsSound r) (settled : entries.IsChain fun a b => ¬Joins r a b) :
    fold r entries = .ok entries := by
  cases entries with
  | nil => rfl
  | cons first rest =>
    obtain ⟨front, others⟩ := List.forall_mem_cons.1 sound
    exact foldFrom_of_isChain numbers front others settled

/-! ## The loop -/

/-- Puts entries together in place, from a place on: two neighbours that make one entry are replaced
by it, and the loop looks at the same place again. -/
def foldInPlace (r : Recording) (entries : List Entry) (place : Nat) : Except Fault (List Entry) :=
  if within : place + 1 < entries.length then do
    match ← joinPair r (entries.get ⟨place, Nat.lt_of_succ_lt within⟩)
        (entries.get ⟨place + 1, within⟩) with
    | some joined => foldInPlace r ((entries.set place joined).eraseIdx (place + 1)) place
    | none => foldInPlace r entries (place + 1)
  else .ok entries
termination_by entries.length - place
decreasing_by
  · rw [List.length_eraseIdx_of_lt (by simpa using within), List.length_set]
    omega
  · omega

/-- The loop folds what is behind its place and leaves what is in front. -/
theorem foldInPlace_append (settled : List Entry) (first : Entry) (rest : List Entry) :
    foldInPlace r (settled ++ first :: rest) settled.length =
      (foldFrom r first rest).map (settled ++ ·) := by
  induction rest generalizing settled first with
  | nil =>
    unfold foldInPlace
    rw [dif_neg (by simp)]
    rfl
  | cons second rest ih =>
    have within : settled.length + 1 < (settled ++ first :: second :: rest).length := by simp
    have here : (settled ++ first :: second :: rest).get
        ⟨settled.length, Nat.lt_of_succ_lt within⟩ = first := by simp
    have next : (settled ++ first :: second :: rest).get ⟨settled.length + 1, within⟩ = second := by
      simp
    unfold foldInPlace
    rw [dif_pos within, here, next, foldFrom]
    cases joinPair r first second with
    | error => rfl
    | ok pair =>
      cases pair with
      | some joined =>
        have replaced : ((settled ++ first :: second :: rest).set settled.length joined).eraseIdx
            (settled.length + 1) = settled ++ joined :: rest := by
          simp [List.eraseIdx_append]
        show foldInPlace r _ _ = (foldFrom r joined rest).map _
        rw [replaced, ih]
      | none =>
        have moved := ih (settled ++ [first]) second
        rw [List.append_assoc, List.length_append] at moved
        show foldInPlace r _ _ = (foldFrom r second rest >>= fun out => pure (first :: out)).map _
        refine moved.trans ?_
        cases foldFrom r second rest <;> simp [Except.map, bind, Except.bind, pure, Except.pure]

theorem foldInPlace_zero (entries : List Entry) : foldInPlace r entries 0 = fold r entries := by
  cases entries with
  | nil =>
    unfold foldInPlace
    rfl
  | cons first rest =>
    have all := foldInPlace_append (r := r) [] first rest
    refine all.trans ?_
    rw [fold]
    cases foldFrom r first rest <;> rfl

/-! ## Taking apart and folding again -/

/-- A list takes in appends one after the other. -/
theorem foldFrom_appends (numbers : r.NumbersEffects) {list : ObjectId} {ids : List EffectId}
    {values : List ObjectId} (all : List.Forall₂ (IsAppend r list) ids values) (l : GrownList)
    (same : l.object = list) (rest : List Entry) :
    foldFrom r (.grown l) (ids.map .effect ++ rest) =
      foldFrom r (.grown { l with contained := l.contained ++ values
                                  appends := l.appends ++ ids }) rest := by
  induction all generalizing l with
  | nil => simp only [List.map_nil, List.nil_append, List.append_nil]
  | @cons id value ids values append _ ih =>
    obtain ⟨e, found, change⟩ := append
    have appended : e.appendedTo? l.object = some value := appendedTo?_eq_some.2 (same ▸ change)
    have joined : joinPair r (.grown l) (.effect id) = .ok (some (.grown { l with
        contained := l.contained ++ [value], appends := l.appends ++ [id] })) := by
      refine bind_eq_ok.2 ⟨e, effect_eq_ok.2 found, ?_⟩
      simp only [appended, numbers id e found]
      rfl
    rw [List.map_cons, List.cons_append, foldFrom, joined]
    have others :=
      ih { l with contained := l.contained ++ [value], appends := l.appends ++ [id] } same
    simp only [List.append_assoc, List.cons_append, List.nil_append] at others
    exact others

/-- A list that was put together is put together again from the list and its appends. -/
theorem foldFrom_unfold (numbers : r.NumbersEffects) {entry head : Entry} {tail : List Entry}
    (sound : entry.IsSound r) (grown : entry.IsGrown) (parts : entry.unfold = head :: tail)
    (rest : List Entry) : foldFrom r head (tail ++ rest) = foldFrom r entry rest := by
  cases entry with
  | object | effect =>
    cases parts
    rfl
  | grown l =>
    cases parts
    obtain ⟨o, contained, appended, there, kind, holds, all⟩ := sound
    obtain ⟨list, shape, held, appends⟩ := l
    obtain ⟨rfl, nonempty⟩ := grown
    cases all with
    | nil => exact absurd rfl nonempty
    | @cons id value ids values append all =>
      obtain ⟨e, found, change⟩ := append
      have joined : joinPair r (.object list) (.effect id) =
          .ok (some (.grown ⟨list, .list, contained ++ [value], [id]⟩)) := by
        refine bind_eq_ok.2 ⟨e, effect_eq_ok.2 found, bind_eq_ok.2 ⟨o, object_eq_ok.2 there, ?_⟩⟩
        simp only [kind, appendedTo?_eq_some.2 change, numbers id e found]
        rfl
      rw [List.map_cons, List.cons_append, foldFrom, joined]
      have others := foldFrom_appends numbers all ⟨list, .list, contained ++ [value], [id]⟩ rfl rest
      obtain rfl : held = contained ++ value :: values := holds
      simp only [List.append_assoc, List.cons_append, List.nil_append] at others
      exact others

/-- Settled entries that were taken apart are folded to what they were. -/
theorem foldFrom_flatMap_unfold (numbers : r.NumbersEffects) (others : ∀ e ∈ rest, e.IsSound r)
    (grown : ∀ e ∈ rest, e.IsGrown) (front : first.IsSound r)
    (settled : (first :: rest).IsChain fun a b => ¬Joins r a b) :
    foldFrom r first (rest.flatMap Entry.unfold) = .ok (first :: rest) := by
  induction rest generalizing first with
  | nil => rfl
  | cons second rest ih =>
    obtain ⟨back, others⟩ := List.forall_mem_cons.1 others
    obtain ⟨backGrown, grown⟩ := List.forall_mem_cons.1 grown
    obtain ⟨apart, settled⟩ := List.isChain_cons_cons.1 settled
    obtain ⟨head, tail, parts, headSound, starts⟩ := exists_sound_head back
    obtain ⟨pair, joined, -⟩ := joinPair_sound numbers front headSound
    rcases isOutcome_of_joinPair joined with ⟨rfl, -⟩ | ⟨l, -, joins, -⟩
    · rw [List.flatMap_cons, parts, List.cons_append]
      refine bind_eq_ok.2 ⟨none, joined, bind_eq_ok.2 ⟨second :: rest, ?_, rfl⟩⟩
      rw [foldFrom_unfold numbers back backGrown parts]
      exact ih others grown back settled
    · exact absurd (joins.mono starts) apart

/-- A list of entries is folded from others: it stands for them, and nothing is left to fold. -/
structure IsFolded (r : Recording) (entries out : List Entry) : Prop where
  /-- Taking lists apart gives the entries back, in their order. -/
  unfolds : out.flatMap Entry.unfold = entries
  /-- A list that was put together is a recorded list; it holds what that held and then what was
  appended, and something was. -/
  grown : ∀ l, .grown l ∈ out → l.IsSound r ∧ l.shape = .list ∧ l.appends ≠ []
  /-- No entry appends to the list that the entry right in front of it makes. -/
  settled : out.IsChain fun first second => ¬Joins r first second

/-- Entries are folded in one way only. -/
theorem IsFolded.fold_eq (numbers : r.NumbersEffects) {entries : List Entry}
    (single : ∀ e ∈ entries, e.IsSingle r) (h : IsFolded r entries out) :
    fold r entries = .ok out := by
  have sound : ∀ e ∈ out, e.IsSound r := by
    intro e mem
    cases e with
    | grown l => exact (h.grown l mem).1
    | object | effect =>
      refine (single _ ?_).isSound
      rw [← h.unfolds]
      exact List.mem_flatMap.2 ⟨_, mem, List.mem_cons_self⟩
  have grown : ∀ e ∈ out, e.IsGrown := by
    intro e mem
    cases e with
    | grown l => exact (h.grown l mem).2
    | object | effect => trivial
  obtain ⟨rfl, -, settled⟩ := h
  cases out with
  | nil => rfl
  | cons first rest =>
    obtain ⟨front, others⟩ := List.forall_mem_cons.1 sound
    obtain ⟨frontGrown, othersGrown⟩ := List.forall_mem_cons.1 grown
    obtain ⟨head, tail, parts, -⟩ := exists_sound_head front
    rw [List.flatMap_cons, parts, List.cons_append]
    refine (foldFrom_unfold numbers front frontGrown parts _).trans ?_
    exact foldFrom_flatMap_unfold numbers others othersGrown front settled

/-- What the fold answers is folded from the entries. -/
theorem isFolded_of_fold (numbers : r.NumbersEffects) {entries : List Entry}
    (single : ∀ e ∈ entries, e.IsSingle r) :
    ∃ out, fold r entries = .ok out ∧ (∀ e ∈ out, e.IsSound r) ∧ IsFolded r entries out := by
  obtain ⟨out, answer, sound, unfolds⟩ := fold_sound numbers fun e mem => (single e mem).isSound
  have apart := flatMap_unfold_of_single fun e mem => (single e mem).unfold_eq
  have settled : (∀ e ∈ out, e.IsGrown) ∧ out.IsChain fun a b => ¬Joins r a b := by
    cases entries with
    | nil =>
      cases answer
      exact ⟨fun _ mem => (List.not_mem_nil mem).elim, .nil⟩
    | cons first rest =>
      obtain ⟨front, others⟩ := List.forall_mem_cons.1 single
      have grown := isGrown_of_foldFrom answer front.isGrown fun e mem => (others e mem).isGrown
      exact ⟨grown, (isChain_of_foldFrom answer).1⟩
  exact ⟨out, answer, sound, unfolds.trans apart, fun l mem => ⟨sound _ mem, settled.1 _ mem⟩,
    settled.2⟩

/-- Entries for objects and side effects of a recording that operations lead to can always be
folded, in place and in one way only. Folding them once more changes nothing. -/
theorem fold_isExact {r : Recording} (reached : r.IsReachable) {entries : List Entry}
    (single : ∀ e ∈ entries, e.IsSingle r) :
    ∃ out, fold r entries = .ok out ∧ foldInPlace r entries 0 = .ok out ∧ IsFolded r entries out ∧
      (∀ other, IsFolded r entries other → other = out) ∧ fold r out = .ok out := by
  have numbers := reached.numbersEffects
  obtain ⟨out, answer, sound, folded⟩ := isFolded_of_fold numbers single
  refine ⟨out, answer, (foldInPlace_zero entries).trans answer, folded, ?_, ?_⟩
  · intro other same
    exact Except.ok.inj ((same.fold_eq numbers single).symm.trans answer)
  · exact fold_of_isChain numbers sound folded.settled

/-! A list that a number is appended to twice, and a third time after it was sorted. -/

namespace Appends

def number (handle : Nat) : Value :=
  .literal ⟨.observed handle, "int", builtinModule, []⟩ (.int handle)

def append : Operation := .addEffect (.mutation .listAppend ⟨1⟩ [⟨2⟩]) none

def recording : Recording :=
  ((Session.start (.empty "/p") ⟨0⟩).performAll
    [.serialize (.sequence ⟨.observed 1, "list", builtinModule, []⟩ .list [number 2]),
      .serialize (number 3), append, append, .addEffect (.mutation .listSort ⟨1⟩ []) none,
      append]).recording

def entries : List Entry :=
  [.object ⟨2⟩, .object ⟨1⟩, .effect ⟨0⟩, .effect ⟨1⟩, .effect ⟨2⟩, .effect ⟨3⟩]

theorem isSingle : ∀ e ∈ entries, e.IsSingle recording := by
  have objects : recording.objects.size = 3 := by decide +kernel
  have effects : recording.effects.size = 4 := by decide +kernel
  simp [entries, Entry.IsSingle, Recording.hasObject_iff, Recording.hasEffect_iff, objects, effects]

end Appends

theorem fold_isExact_appends :
    Appends.recording.IsReachable ∧ (∀ e ∈ Appends.entries, e.IsSingle Appends.recording) ∧
      ∃ out, fold Appends.recording Appends.entries = .ok out ∧
        foldInPlace Appends.recording Appends.entries 0 = .ok out ∧
        IsFolded Appends.recording Appends.entries out ∧
        (∀ other, IsFolded Appends.recording Appends.entries other → other = out) ∧
        fold Appends.recording out = .ok out := by
  have reached : Appends.recording.IsReachable := Recording.isReachable_performAll ..
  exact ⟨reached, Appends.isSingle, fold_isExact reached Appends.isSingle⟩

example : (fold Appends.recording Appends.entries).toOption =
    some [.object ⟨2⟩, .grown ⟨⟨1⟩, .list, [⟨0⟩, ⟨2⟩, ⟨2⟩], [⟨0⟩, ⟨1⟩]⟩, .effect ⟨2⟩,
      .effect ⟨3⟩] := by decide +kernel

end Reenact.Setup
