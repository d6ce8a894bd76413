import Mathlib.Data.List.Permutation
import Reenact.Proofs.Setup.Mention
import Reenact.Proofs.Setup.Naming
import Reenact.Proofs.Setup.Plan
import Reenact.Proofs.Trace.Bracket
import Reenact.Proofs.Trace.Watch

/-!
# Definition before use

The lines of a setup are run in order, so a line may only mention names that earlier lines assign to.
What a line mentions is all that its code depends on (`code_eq_of_agree`).

**The law** (`definesBeforeUse_iff`): the lines of a plan do so except in two cases. The arguments of a
constructor, and the arguments and the receiver that a generator was made with, may have been recorded
after the instance or the generator (`InputsAreOlder` excludes this). A list that was appended to is
made with the appended values at once, which puts a list that was appended to itself, directly or
inside another value, into its own definition (`NoListHoldsItself` excludes this). Nothing else can
go wrong: parts are older than the whole, and what a side effect refers to is older than the effect.
-/

namespace Reenact

namespace Setup

open Recording (effect_eq_ok object_eq_ok)

variable {p : Project} {r : Recording} {names : Naming} {entries front rest : List Entry}
  {entry : Entry} {x : ObjectId}

/-- Every name that a line mentions is the one that an earlier line assigns to. -/
def Script.DefinesBeforeUse (p : Project) (r : Recording) (s : Script) : Prop :=
  ∀ front line rest, s.lines = front ++ line :: rest →
    ∀ x, line.entry.Mentions r s.names (operands p r) x →
      ∃ l ∈ front, l.entry.object? = some x ∧ l.name = s.names.get? x

/-- The names that entries mention by way of arguments alone belong to older objects. -/
def InputsAreOlder (p : Project) (r : Recording) (names : Naming) (entries : List Entry) : Prop :=
  ∀ entry ∈ entries, ∀ x, entry.Mentions r names (operands p r) x →
    ¬entry.Mentions r names Object.parts x → Precedes r (.object x) entry

/-- No list is made with a value that mentions the list. -/
def NoListHoldsItself (r : Recording) (names : Naming) (entries : List Entry) : Prop :=
  ∀ list, .grown list ∈ entries → ¬(Entry.grown list).Mentions r names Object.parts list.object

/-! ## Parts are older -/

theorem Mentions.mono {below above : Object → List ObjectId} (sub : ∀ o, below o ⊆ above o)
    {x y : ObjectId} (h : Mentions r names below x y) : Mentions r names above x y := by
  induction h with
  | named hasName => exact .named hasName
  | inside unnamed found operand _ ih => exact .inside unnamed found (sub _ operand) ih

theorem parts_subset_operands (o : Object) : o.parts ⊆ operands p r o := List.subset_append_left _ _

/-- What is mentioned by way of parts is not newer. -/
theorem Mentions.hasOlder (h : r.Sound) {x y : ObjectId} (mention : Mentions r names Object.parts x y)
    {m : Moment} (older : r.HasOlder x m) : r.HasOlder y m := by
  induction mention with
  | named => exact older
  | inside _ found operand _ ih =>
    obtain ⟨o, found', before⟩ := older
    rw [found] at found'
    cases found'
    obtain ⟨part, there, before'⟩ := (h.objects found).2.parts _ operand
    refine ih ⟨part, there, ?_⟩
    rw [Moment.before_iff] at before before' ⊢
    exact Nat.lt_trans before' before

theorem Precedes.of_hasOlder {m : Moment} (older : r.HasOlder x m) (moment : entry.moment r = .ok m) :
    Precedes r (.object x) entry := by
  obtain ⟨o, found, before⟩ := older
  exact ⟨o.moment, m, map_eq_ok.2 ⟨o, object_eq_ok.2 found, rfl⟩, moment, before⟩

/-- What an entry mentions by way of parts is older than one of the entries that it was put together
from. -/
theorem exists_precedes_of_mentions (h : r.Sound) (sound : entry.IsSound r)
    (mention : entry.Mentions r names Object.parts x) :
    ∃ e ∈ entry.unfold, Precedes r (.object x) e := by
  obtain ⟨y, written, inner⟩ := mention
  cases entry with
  | object z =>
    obtain ⟨o, found⟩ := sound
    simp only [Entry.written, found] at written
    have older := (h.objects found).2.parts y written
    exact ⟨.object z, List.mem_singleton.2 rfl,
      .of_hasOlder (inner.hasOlder h older) (map_eq_ok.2 ⟨o, object_eq_ok.2 found, rfl⟩)⟩
  | effect z =>
    obtain ⟨e, found⟩ := sound
    simp only [Entry.written, found] at written
    have effectSound := (h.effects found).2
    have referenced : y ∈ e.referenced := by
      rw [effectSound.ofChange.2]
      exact e.change.written_subset_referenced written
    exact ⟨.effect z, List.mem_singleton.2 rfl,
      .of_hasOlder (inner.hasOlder h (effectSound.referenced y referenced))
        (map_eq_ok.2 ⟨e, effect_eq_ok.2 found, rfl⟩)⟩
  | grown list =>
    obtain ⟨o, contained, appended, found, kind, holds, appends⟩ := sound
    rw [Entry.written, holds] at written
    rcases List.mem_append.1 written with old | new
    · have part : y ∈ o.parts := by
        rw [Object.parts, kind]
        exact old
      have older := (h.objects found).2.parts y part
      exact ⟨.object list.object, List.mem_cons_self,
        .of_hasOlder (inner.hasOlder h older) (map_eq_ok.2 ⟨o, object_eq_ok.2 found, rfl⟩)⟩
    · obtain ⟨id, listed, e, there, change⟩ := exists_isAppend_of_mem appends new
      have effectSound := (h.effects there).2
      have referenced : y ∈ e.referenced := by
        rw [effectSound.ofChange.2, change]
        exact List.mem_cons_of_mem _ (List.mem_singleton.2 rfl)
      exact ⟨.effect id, List.mem_cons_of_mem _ (List.mem_map_of_mem listed),
        .of_hasOlder (inner.hasOlder h (effectSound.referenced y referenced))
          (map_eq_ok.2 ⟨e, effect_eq_ok.2 there, rfl⟩)⟩

/-! ## The order of the entries -/

/-- An entry that makes an object is not newer than the object. -/
theorem not_precedes_of_object? (made : entry.object? = some x) :
    ¬Precedes r (.object x) entry := by
  intro older
  cases entry with
  | object =>
    cases made
    exact older.irrefl
  | effect => cases made
  | grown list =>
    cases made
    have same : (Entry.grown list).moment r = (Entry.object list.object).moment r := rfl
    obtain ⟨m, n, first, second, before⟩ := older
    exact Precedes.irrefl ⟨m, n, first, same ▸ second, before⟩

/-- An entry in front was recorded earlier. -/
theorem precedes_of_mem_front
    (ordered : ((front ++ entry :: rest).flatMap Entry.unfold).Pairwise (Precedes r))
    {e : Entry} (mem : e ∈ front) (made : e.object? = some x) : Precedes r (.object x) entry := by
  obtain ⟨first, others, unfold_eq, moment⟩ := exists_unfold_eq r entry
  rw [List.flatMap_append] at ordered
  have first_mem : first ∈ (entry :: rest).flatMap Entry.unfold :=
    List.mem_flatMap.2 ⟨entry, List.mem_cons_self, unfold_eq ▸ List.mem_cons_self⟩
  obtain ⟨m, n, older, newer, before⟩ := (List.pairwise_append.1 ordered).2.2 _
    (List.mem_flatMap.2 ⟨e, mem, object_mem_unfold.2 made⟩) first first_mem
  exact ⟨m, n, older, moment ▸ newer, before⟩

/-- An entry that makes an object older than a part of another entry is in front of that entry, or is
that entry. -/
theorem mem_front_of_precedes
    (ordered : ((front ++ entry :: rest).flatMap Entry.unfold).Pairwise (Precedes r))
    {e s : Entry} (mem : e ∈ front ++ entry :: rest) (made : e.object? = some x)
    (inside : s ∈ entry.unfold) (older : Precedes r (.object x) s) : e ∈ front ∨ e = entry := by
  rcases List.mem_append.1 mem with mem | mem
  · exact .inl mem
  · rcases List.mem_cons.1 mem with same | behind
    · exact .inr same
    · rw [List.flatMap_append, List.flatMap_cons] at ordered
      have later := (List.pairwise_append.1 (List.pairwise_append.1 ordered).2.1).2.2 s inside _
        (List.mem_flatMap.2 ⟨e, behind, object_mem_unfold.2 made⟩)
      exact (older.asymm later).elim

/-! ## Definition before use -/

/-- In entries in order, the names that an entry mentions are assigned in front of it exactly when the
two exceptions are excluded. -/
theorem assigned_iff (h : r.Sound) (sound : ∀ e ∈ entries, e.IsSound r)
    (ordered : (entries.flatMap Entry.unfold).Pairwise (Precedes r))
    (named : ∀ x, (names.get? x).isSome = true → ∃ e ∈ entries, e.object? = some x) :
    (∀ front entry rest, entries = front ++ entry :: rest →
      ∀ x, entry.Mentions r names (operands p r) x → ∃ e ∈ front, e.object? = some x) ↔
      InputsAreOlder p r names entries ∧ NoListHoldsItself r names entries := by
  constructor
  · intro assigned
    constructor
    · intro entry mem x mention _
      obtain ⟨front, rest, rfl⟩ := List.append_of_mem mem
      obtain ⟨e, inside, made⟩ := assigned front entry rest rfl x mention
      exact precedes_of_mem_front ordered inside made
    · rintro list mem ⟨y, written, inner⟩
      obtain ⟨front, rest, rfl⟩ := List.append_of_mem mem
      obtain ⟨e, inside, made⟩ := assigned front (.grown list) rest rfl list.object
        ⟨y, written, inner.mono parts_subset_operands⟩
      exact not_precedes_of_object? rfl (precedes_of_mem_front ordered inside made)
  · rintro ⟨inputs, lists⟩ front entry rest rfl x mention
    have mem : entry ∈ front ++ entry :: rest := List.mem_append_right _ List.mem_cons_self
    obtain ⟨e, listed, made⟩ := named x mention.hasName
    by_cases byParts : entry.Mentions r names Object.parts x
    · obtain ⟨s, inside, older⟩ := exists_precedes_of_mentions h (sound entry mem) byParts
      rcases mem_front_of_precedes ordered listed made inside older with ahead | rfl
      · exact ⟨e, ahead, made⟩
      · cases e with
        | object =>
          cases made
          rw [List.mem_singleton.1 inside] at older
          exact older.irrefl.elim
        | effect => cases made
        | grown list =>
          cases made
          exact (lists list mem byParts).elim
    · obtain ⟨first, others, unfold_eq, moment⟩ := exists_unfold_eq r entry
      obtain ⟨m, n, started, later, before⟩ := inputs entry mem x mention byParts
      have inside : first ∈ entry.unfold := unfold_eq ▸ List.mem_cons_self
      rcases mem_front_of_precedes ordered listed made inside
        ⟨m, n, started, moment.trans later, before⟩ with ahead | rfl
      · exact ⟨e, ahead, made⟩
      · exact (not_precedes_of_object? made ⟨m, n, started, later, before⟩).elim

theorem lineOf_eq_ok {line : Line} (h : lineOf p r names entry = .ok line) :
    line.entry = entry ∧ line.name = entry.object?.bind names.get? := by
  cases entry with
  | object =>
    obtain ⟨code, -, made⟩ := bind_eq_ok.1 h
    cases made
    exact ⟨rfl, rfl⟩
  | effect =>
    obtain ⟨code, -, made⟩ := bind_eq_ok.1 h
    cases made
    exact ⟨rfl, rfl⟩
  | grown =>
    obtain ⟨code, -, made⟩ := bind_eq_ok.1 h
    cases made
    exact ⟨rfl, rfl⟩

theorem entries_of_mapM {lines : List Line} (h : entries.mapM (lineOf p r names) = .ok lines) :
    lines.map Line.entry = entries := by
  induction mapM_eq_ok.1 h with
  | nil => rfl
  | cons first others ih =>
    rw [List.map_cons, (lineOf_eq_ok first).1, ih (mapM_eq_ok.2 others)]

/-- Lines assign before use when the entries do. -/
theorem definesBeforeUse_iff_entries {script : Script}
    (lines_eq : entries.mapM (lineOf p r script.names) = .ok script.lines) :
    script.DefinesBeforeUse p r ↔ ∀ front entry rest, entries = front ++ entry :: rest →
      ∀ x, entry.Mentions r script.names (operands p r) x → ∃ e ∈ front, e.object? = some x := by
  have all := entries_of_mapM lines_eq
  constructor
  · intro defines front entry rest split x mention
    rw [split] at all
    obtain ⟨front', others, lines_split, rfl, back⟩ := List.map_eq_append_iff.1 all
    obtain ⟨line, rest', rfl, rfl, rfl⟩ := List.map_eq_cons_iff.1 back
    obtain ⟨l, ahead, made, -⟩ := defines front' line rest' lines_split x mention
    exact ⟨l.entry, List.mem_map_of_mem ahead, made⟩
  · intro assigned front line rest split x mention
    have split' : entries = front.map Line.entry ++ line.entry :: rest.map Line.entry := by
      rw [← all, split, List.map_append, List.map_cons]
    obtain ⟨e, ahead, made⟩ := assigned _ _ _ split' x mention
    obtain ⟨l, inside, rfl⟩ := List.mem_map.1 ahead
    obtain ⟨e', -, line_eq⟩ := mem_of_mapM_eq_ok lines_eq
      (split ▸ List.mem_append_left _ inside : l ∈ script.lines)
    obtain ⟨rfl, name⟩ := lineOf_eq_ok line_eq
    refine ⟨l, inside, made, ?_⟩
    rw [name, made, Option.bind_some]

theorem scriptOf_eq_ok {plan : Plan} {script : Script} (h : scriptOf p r plan = .ok script) :
    Naming.assign r plan.named = .ok script.names ∧
      plan.all.mapM (lineOf p r script.names) = .ok script.lines := by
  unfold scriptOf at h
  obtain ⟨names, names_eq, h⟩ := bind_eq_ok.1 h
  obtain ⟨lines, lines_eq, made⟩ := bind_eq_ok.1 h
  cases made
  exact ⟨names_eq, lines_eq⟩

/-- The lines of a plan of a sound recording define before use, apart from the two exceptions. -/
theorem IsPlanOf.definesBeforeUse_script (h : r.Sound) {calls : List Call} {objects : List Object}
    {effects : List Effect} {plan : Plan} (isPlan : IsPlanOf r calls objects effects plan)
    {script : Script} (written : scriptOf p r plan = .ok script) :
    script.DefinesBeforeUse p r ↔ InputsAreOlder p r script.names plan.all ∧
      NoListHoldsItself r script.names plan.all := by
  obtain ⟨names_eq, lines_eq⟩ := scriptOf_eq_ok written
  rw [definesBeforeUse_iff_entries lines_eq]
  refine assigned_iff h isPlan.sound ?_ fun x hasName => ?_
  · obtain ⟨named, taken⟩ := isPlan.taken
    rw [taken, isPlan.closure]
    exact (orderedEntries_ordered h isPlan.recorded).filter _
  · have named := (Naming.isSome_get?_assign h names_eq).1 hasName
    rw [isPlan.named] at named
    exact List.mem_filterMap.1 named

end Setup

open Setup

namespace Watch

/-! ## A list that is appended to itself -/

namespace Knot

/-- A project with a function of one parameter. -/
def project : Project where
  root := "/p"
  functions := #[⟨"f", "m", ["x"], false, []⟩]
  classes := #[]

/-- A watch of the project with nothing patched. -/
def watch : Watch := ⟨project, ⟨0⟩, .standard, .default, .empty, []⟩

/-- An empty list. -/
def list : Value := .sequence ⟨.observed 1, "list", "builtins", []⟩ .list []

def null : Value := .literal ⟨.observed 2, "NoneType", "builtins", []⟩ .none

/-- The function appends its argument to its argument. -/
def stream : Bracketed :=
  .frame ⟨⟨⟨10⟩, "f", "/p/m.py", false, false⟩, ⟨[("x", list)], none, none⟩, none⟩
    (.foreign ⟨"append", some list, [list], [], []⟩ .done (some null) .done) null none .done

/-- What was recorded of it. -/
def recording : Recording := (watch.recording stream.events).finish fun _ => false

/-- The call of the function. -/
def call : Call where
  id := ⟨0⟩
  kind := .function
  definition := .function ⟨0⟩
  input := .ofList [("x", ⟨0⟩)]
  outcome := some (.returned ⟨1⟩)
  effects := [⟨0⟩]
  caller := none
  subcalls := []
  moment := ⟨2⟩
  completedAt := some ⟨5⟩

/-- The same recording, written out. -/
def written : Recording where
  id := ⟨0⟩
  clock := ⟨⟨5⟩⟩
  known := []
  generators := []
  objects := #[
    ⟨⟨0⟩, ⟨1⟩, "list", "list", "builtins", .sequence .list []⟩,
    ⟨⟨1⟩, ⟨4⟩, "None", "NoneType", "builtins", .immutable "None" .empty⟩]
  calls := #[call]
  effects := #[.ofChange ⟨0⟩ ⟨3⟩ (.mutation .listAppend ⟨0⟩ [⟨0⟩])]
  captured := [⟨0⟩]
  roots := [⟨0⟩]
  rootEffects := []
  isFinished := true

theorem records : watch.Records stream.events recording := ⟨fun _ => false, .inr rfl⟩

theorem recording_eq : recording = written := by
  have generators : recording.generators = written.generators :=
    List.isEmpty_iff.1 (by decide +kernel)
  exact Recording.ext (by decide +kernel) (by decide +kernel) (by decide +kernel) generators
    (by decide +kernel) (by decide +kernel) (by decide +kernel) (by decide +kernel)
    (by decide +kernel) (by decide +kernel) (by decide +kernel)

/-- The only line of its setup: `alist = [alist]`. -/
def line : Line := ⟨.grown ⟨⟨0⟩, .list, [⟨0⟩], [⟨0⟩]⟩, some "alist", .plain "[alist]"⟩

/-- The plan of the call. The append is folded into the list. -/
def plan : Plan where
  closure := [.object ⟨0⟩, .effect ⟨0⟩]
  all := [line.entry]
  named := [⟨0⟩]
  uses := [⟨0⟩, ⟨0⟩, ⟨0⟩]

/-- The setup of the call. -/
def script : Script := ⟨⟨[(⟨0⟩, "alist")]⟩, [line]⟩

theorem planForCalls_written : planForCalls written [⟨0⟩] = .ok plan := by cbv

theorem scriptOf_written : scriptOf project written plan = .ok script := by decide +kernel

end Knot

/-- For all calls of a recording there is a plan. When it can be written, its lines define every name
before it is used exactly when no line mentions a newer object by way of arguments, and no list is made
with a value that mentions the list. -/
theorem definesBeforeUse_iff (w : Watch) (events : List Event) (r : Recording)
    (recorded : w.Records events r) (ids : List CallId) (known : ∀ id ∈ ids, r.HasCall id) :
    ∃ plan, planForCalls r ids = .ok plan ∧ ∀ p script, scriptOf p r plan = .ok script →
      (script.DefinesBeforeUse p r ↔ InputsAreOlder p r script.names plan.all ∧
        NoListHoldsItself r script.names plan.all) := by
  obtain ⟨calls, plan, objects, effects, -, plan_eq, isPlan⟩ :=
    planForCalls_sound recorded.sound known
  refine ⟨plan, plan_eq, fun p script written => ?_⟩
  exact IsPlanOf.definesBeforeUse_script recorded.sound isPlan written

theorem definesBeforeUse_iff_knot : Knot.watch.Records Knot.stream.events Knot.recording ∧
    (∀ id ∈ [⟨0⟩], Knot.recording.HasCall id) ∧
    ∃ plan, planForCalls Knot.recording [⟨0⟩] = .ok plan ∧
      ∀ p script, scriptOf p Knot.recording plan = .ok script →
        (script.DefinesBeforeUse p Knot.recording ↔
          InputsAreOlder p Knot.recording script.names plan.all ∧
            NoListHoldsItself Knot.recording script.names plan.all) :=
  have known : ∀ id ∈ [⟨0⟩], Knot.recording.HasCall id :=
    List.forall_mem_singleton.2 ⟨Knot.call, Knot.recording_eq ▸ rfl⟩
  ⟨Knot.records, known,
    definesBeforeUse_iff Knot.watch Knot.stream.events Knot.recording Knot.records [⟨0⟩] known⟩

/-- Not every setup defines before use: a list that is appended to itself is made by the line
`alist = [alist]`. -/
theorem not_definesBeforeUse : ¬∀ (w : Watch) (b : Bracketed) (r : Recording),
    w.Records b.events r → ∀ ids plan p script,
      (∀ id ∈ ids, id ∈ r.captured ∧ ∃ c done, r.call? id = some c ∧ c.completedAt = some done) →
      planForCalls r ids = .ok plan → scriptOf p r plan = .ok script → script.DefinesBeforeUse p r := by
  intro inOrder
  have completed : ∀ id ∈ [⟨0⟩], id ∈ Knot.written.captured ∧
      ∃ c done, Knot.written.call? id = some c ∧ c.completedAt = some done :=
    List.forall_mem_singleton.2 ⟨List.mem_singleton.2 rfl, Knot.call, ⟨5⟩, rfl, rfl⟩
  have defines := inOrder Knot.watch Knot.stream Knot.written (Knot.recording_eq ▸ Knot.records) [⟨0⟩]
    Knot.plan Knot.project Knot.script completed Knot.planForCalls_written Knot.scriptOf_written
  have mention : Knot.line.entry.Mentions Knot.written Knot.script.names
      (operands Knot.project Knot.written) ⟨0⟩ :=
    ⟨⟨0⟩, List.mem_singleton.2 rfl, .named rfl⟩
  obtain ⟨l, ahead, -⟩ := defines [] Knot.line [] rfl ⟨0⟩ mention
  cases ahead

end Watch

end Reenact
