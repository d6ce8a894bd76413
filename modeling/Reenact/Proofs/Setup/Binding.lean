import Mathlib.Data.List.TakeWhile
import Reenact.Proofs.Recording.Parts
import Reenact.Proofs.Setup.Distributing

/-!
# Calls bind back

The rules of a call give each argument to one parameter: arguments by position fill the plain
parameters in order, and a keyword argument fills the plain parameter of its name; what is left goes to
the parameters that take any number of arguments. `ParamList.bind` follows these rules and refuses a
call that breaks them, and no argument is lost or given twice (`perm_of_bind`).

**The law** (`renderCall_binds`): a rendered call, bound by these rules, gives each parameter the code
of the argument that was recorded for it, and nothing where there was none.
-/

namespace Reenact.Setup

/-- What the parameters receive when a call is bound. -/
structure Bound where
  plain : List (String × Snippet)
  extra : Share Snippet
  keywords : Share (String × Snippet)

/-- The code of all values that parameters receive. -/
def Bound.codes (b : Bound) : List Snippet :=
  b.plain.map Prod.snd ++ (b.extra.single ++ b.extra.whole.toList) ++
    (b.keywords.single.map Prod.snd ++ b.keywords.whole.toList)

/-- Binds the arguments of a call. Refused are a keyword that is repeated, or that is the name of a
plain parameter which is filled already; arguments that no parameter takes; and a sequence that is
spread while plain parameters are not filled. -/
def ParamList.bind (ps : ParamList) (g : Passed) : Option Bound :=
  let further := g.positional.drop ps.plain.length
  let waiting := ps.plain.drop g.positional.length
  let own := g.keyword.filter fun arg => waiting.contains arg.1
  let others := g.keyword.filter fun arg => !waiting.contains arg.1
  if (g.keyword.map Prod.fst).Nodup ∧ (∀ arg ∈ others, arg.1 ∉ ps.plain) ∧
      (ps.extra = none → further = [] ∧ g.starred = none) ∧
      (ps.keywords = none → others = [] ∧ g.doubleStarred = none) ∧
      (g.starred = none ∨ waiting = []) then
    some
      { plain := ps.plain.zip g.positional ++ own
        extra := ⟨further, g.starred⟩
        keywords := ⟨others, g.doubleStarred⟩ }
  else none

theorem map_snd_zip_append_drop (plain : List String) (positional : List Snippet) :
    (plain.zip positional).map Prod.snd ++ positional.drop plain.length = positional := by
  induction plain generalizing positional with
  | nil => rfl
  | cons name rest ih =>
    cases positional with
    | nil => rfl
    | cons code others => exact congrArg (code :: ·) (ih others)

/-- Binding gives each argument to one parameter. -/
theorem perm_of_bind {ps : ParamList} {g : Passed} {b : Bound} (bound : ps.bind g = some b) :
    b.codes.Perm g.codes := by
  unfold ParamList.bind at bound
  dsimp only at bound
  split at bound
  · obtain rfl := Option.some.inj bound
    have keyword := (List.filter_append_perm
      (fun arg => (ps.plain.drop g.positional.length).contains arg.1) g.keyword).map Prod.snd
    rw [List.perm_iff_count] at keyword ⊢
    intro code
    have positional := congrArg (List.count code) (map_snd_zip_append_drop ps.plain g.positional)
    have keyword := keyword code
    simp only [Bound.codes, Passed.codes, List.map_append, List.count_append] at positional keyword ⊢
    omega
  · cases bound

/-! ## What a call gives -/

section Distributed

variable {p : Project} {r : Recording} {names : Naming} {ps : ParamList} {input : Arguments}
  {d : Distribution}

/-- The parameters receive their recorded arguments: each plain one the code of its argument, if it
has one, and the others what is shared of theirs. -/
structure Delivers (p : Project) (r : Recording) (names : Naming) (ps : ParamList)
    (input : Arguments) (b : Bound) : Prop where
  plain : List.Forall₂ (Writes p r names) (given input ps.plain) b.plain
  extra : SharesItems p r names (ps.extra.bind input.get?) b.extra
  keywords : SharesEntries p r names (ps.keywords.bind input.get?) b.keywords

/-- Keys that are parameter names differ from each other and from the plain parameters. -/
def KeysApart (r : Recording) (ps : ParamList) (input : Arguments) : Prop :=
  ∀ id o mapping keys, ps.keywords.bind input.get? = some id → r.object? id = some o →
    o.kind = .map mapping → List.Forall₂ (fun entry key => HoldsKeyword r entry.1 key) mapping keys →
    keys.Nodup ∧ ∀ key ∈ keys, key ∉ ps.plain

/-- No plain parameter is without argument where further positional arguments were recorded. -/
def ReachesExtra (ps : ParamList) (input : Arguments) : Prop :=
  (ps.extra.bind input.get?).isSome → ∀ name ∈ ps.plain, (input.get? name).isSome

theorem map_fst_of_writes {entries : List (String × ObjectId)} {args : List (String × Snippet)}
    (written : List.Forall₂ (Writes p r names) entries args) :
    args.map Prod.fst = entries.map Prod.fst := by
  induction written with
  | nil => rfl
  | cons first _ ih => rw [List.map_cons, List.map_cons, first.1, ih]

/-- The parameters that have an argument. -/
theorem map_fst_given (params : List String) :
    (given input params).map Prod.fst = params.filter fun name => (input.get? name).isSome := by
  induction params with
  | nil => rfl
  | cons name rest ih =>
    cases found : input.get? name with
    | none => rw [given_cons_of_none found, List.filter_cons_of_neg (by simp [found]), ih]
    | some id =>
      rw [given_cons_of_some found, List.filter_cons_of_pos (by simp [found]), List.map_cons, ih]

theorem given_append (front back : List String) :
    given input (front ++ back) = given input front ++ given input back :=
  List.filterMap_append

/-- The plain parameters that have no argument in front of them are those filled in front. -/
theorem Distributes.map_fst_front (h : Distributes p r names ps input d) :
    d.front.map Prod.fst = ps.plain.takeWhile fun name => (input.get? name).isSome := by
  rw [map_fst_of_writes h.front, map_fst_given, List.filter_eq_self]
  intro name mem
  exact List.mem_takeWhile_imp (p := fun name => (input.get? name).isSome) mem

/-- The plain parameters are filled in front, or wait. -/
theorem Distributes.plain_eq (h : Distributes p r names ps input d) : ps.plain =
    d.front.map Prod.fst ++ ps.plain.dropWhile fun name => (input.get? name).isSome := by
  rw [h.map_fst_front, List.takeWhile_append_dropWhile]

theorem Distributes.sublist_back (h : Distributes p r names ps input d) :
    (d.back.map Prod.fst).Sublist (ps.plain.dropWhile fun name => (input.get? name).isSome) := by
  rw [map_fst_of_writes h.back, map_fst_given]
  exact List.filter_sublist

/-- Further positional arguments are passed when no plain parameter waits. -/
theorem Distributes.waiting_or (h : Distributes p r names ps input d)
    (reaches : ReachesExtra ps input) :
    (ps.plain.dropWhile fun name => (input.get? name).isSome) = [] ∨
      d.extra.single = [] ∧ d.extra.whole = none := by
  cases there : ps.extra.bind input.get? with
  | none =>
    have nothing : d.extra = ⟨[], none⟩ := eq_of_sharesItems_none (by simpa [there] using h.extra)
    rw [nothing]
    exact .inr ⟨rfl, rfl⟩
  | some id =>
    refine .inl (List.dropWhile_eq_nil_iff.2 fun name mem => ?_)
    exact reaches (by rw [there]; rfl) name mem

/-- The names of entries are keys, in some order. -/
theorem names_of_sharesEntries {share : Share (String × Snippet)} (apart : KeysApart r ps input)
    (shares : SharesEntries p r names (ps.keywords.bind input.get?) share) :
    (share.single.map Prod.fst).Nodup ∧ ∀ arg ∈ share.single, arg.1 ∉ ps.plain := by
  generalize there : ps.keywords.bind input.get? = id? at shares
  cases shares with
  | nothing => exact ⟨.nil, fun _ mem => (List.not_mem_nil mem).elim⟩
  | whole => exact ⟨.nil, fun _ mem => (List.not_mem_nil mem).elim⟩
  | @entries id o mapping args ordered unnamed found kind written order =>
    have keys : List.Forall₂ (fun entry key => HoldsKeyword r entry.1 key) mapping
        (args.map Prod.fst) :=
      List.forall₂_map_right_iff.2 (written.imp fun _ _ holds => holds.1)
    obtain ⟨once, other⟩ := apart id o mapping _ there found kind keys
    have order := order.map Prod.fst
    refine ⟨order.nodup_iff.1 once, fun arg mem => ?_⟩
    exact other arg.1 (order.mem_iff.2 (List.mem_map_of_mem mem))

section Places

variable {waiting : List String} (plain : ps.plain = d.front.map Prod.fst ++ waiting)

include plain

/-- By position, the parameters in front are filled, the further arguments are left over, and the others
wait. -/
theorem places_of_plain_eq (free : waiting = [] ∨ d.extra.single = [] ∧ d.extra.whole = none) :
    ps.plain.zip d.passed.positional = d.front ∧
      d.passed.positional.drop ps.plain.length = d.extra.single ∧
      ps.plain.drop d.passed.positional.length = waiting := by
  have filled : d.front = (d.front.map Prod.fst).zip (d.front.map Prod.snd) :=
    List.zip_of_prod rfl rfl
  rw [plain, Distribution.passed, List.zip_append (by rw [List.length_map, List.length_map]), ← filled]
  rcases free with none | ⟨none, -⟩ <;> simp [none]

variable (behind : (d.back.map Prod.fst).Sublist waiting)
  (other : ∀ arg ∈ d.keywords.single, arg.1 ∉ ps.plain)

include behind other

/-- The keyword arguments of waiting parameters are those that stand behind. -/
theorem filter_own_keyword :
    (d.passed.keyword.filter fun arg => waiting.contains arg.1) = d.back := by
  rw [Distribution.passed, List.filter_append, List.filter_eq_self.2, List.filter_eq_nil_iff.2,
    List.append_nil]
  · intro arg mem
    have outside := other arg mem
    rw [plain] at outside
    simpa using fun wait => outside (List.mem_append_right _ wait)
  · intro arg mem
    simpa using behind.subset (List.mem_map_of_mem mem)

theorem filter_other_keyword :
    (d.passed.keyword.filter fun arg => !waiting.contains arg.1) = d.keywords.single := by
  rw [Distribution.passed, List.filter_append, List.filter_eq_nil_iff.2, List.filter_eq_self.2,
    List.nil_append]
  · intro arg mem
    have outside := other arg mem
    rw [plain] at outside
    simpa using fun wait => outside (List.mem_append_right _ wait)
  · intro arg mem
    simpa using behind.subset (List.mem_map_of_mem mem)

/-- No keyword is repeated. -/
theorem nodup_keyword (once : (d.keywords.single.map Prod.fst).Nodup) :
    (d.passed.keyword.map Prod.fst).Nodup := by
  have distinct : ps.plain.Nodup := (ps.distinct.sublist (List.sublist_append_left _ _)).sublist
    (List.sublist_append_left _ _)
  rw [plain] at distinct
  rw [Distribution.passed, List.map_append, List.nodup_append]
  refine ⟨(distinct.sublist (List.sublist_append_right _ _)).sublist behind, once, ?_⟩
  rintro name mem _ mem' rfl
  obtain ⟨arg, listed, rfl⟩ := List.mem_map.1 mem'
  refine other arg listed ?_
  rw [plain]
  exact List.mem_append_right _ (behind.subset mem)

end Places

/-- The arguments of a call bind back to what was distributed. -/
theorem bind_passed (h : Distributes p r names ps input d) (apart : KeysApart r ps input)
    (reaches : ReachesExtra ps input) :
    ps.bind d.passed = some ⟨d.front ++ d.back, d.extra, d.keywords⟩ := by
  have plain := h.plain_eq
  have behind := h.sublist_back
  obtain ⟨once, other⟩ := names_of_sharesEntries apart h.keywords
  have free := h.waiting_or reaches
  generalize (ps.plain.dropWhile fun name => (input.get? name).isSome) = waiting at plain behind free
  obtain ⟨filled, further, waits⟩ := places_of_plain_eq plain free
  have extra (missing : ps.extra = none) : d.extra = ⟨[], none⟩ :=
    eq_of_sharesItems_none (by simpa [missing] using h.extra)
  have keywords (missing : ps.keywords = none) : d.keywords = ⟨[], none⟩ :=
    eq_of_sharesEntries_none (by simpa [missing] using h.keywords)
  unfold ParamList.bind
  dsimp only
  rw [filled, further, waits, filter_own_keyword plain behind other,
    filter_other_keyword plain behind other, if_pos]
  · rfl
  · refine ⟨nodup_keyword plain behind other once, other, fun missing => ?_, fun missing => ?_, ?_⟩
    · rw [Distribution.passed, extra missing]
      exact ⟨rfl, rfl⟩
    · rw [Distribution.passed, keywords missing]
      exact ⟨rfl, rfl⟩
    · exact free.symm.imp_left fun none => none.2

end Distributed

/-! ## Rendered calls -/

namespace Mixed

/-- A list, a number, a tuple with the number, and a mapping from a text to the number. -/
def values : List Value :=
  let one : Value := .literal ⟨.observed 1, "int", builtinModule, []⟩ (.int 1)
  let mode : Value := .literal ⟨.observed 2, "str", builtinModule, []⟩ (.text "mode")
  [.sequence ⟨.observed 3, "list", builtinModule, []⟩ .list [],
    .sequence ⟨.observed 4, "tuple", builtinModule, []⟩ .tuple [one],
    .map ⟨.observed 5, "dict", builtinModule, []⟩ [(mode, one)]]

def ops : List Operation := values.map .serialize

def recording : Recording := ((Session.start (.empty "/p") ⟨0⟩).performAll ops).recording

/-- The list has a name. -/
def names : Naming := ⟨[(⟨0⟩, "alist")]⟩

def params : ParamList where
  plain := ["x", "y"]
  extra := some "rest"
  keywords := some "options"
  distinct := by decide
  unstarred := by decide

def input : Arguments := .ofList [("x", ⟨0⟩), ("y", ⟨1⟩), ("rest", ⟨2⟩), ("options", ⟨4⟩)]

def options : Object :=
  ⟨⟨4⟩, ⟨5⟩, "dict", "dict", "builtins", .map [(⟨3⟩, ⟨1⟩)]⟩

theorem options_eq : recording.object? ⟨4⟩ = some options := by decide +kernel

theorem exists_construct {id : ObjectId}
    (written : (construct (.empty "/p") recording names id).isOk = true) :
    ∃ code, construct (.empty "/p") recording names id = .ok code := by
  cases answer : construct (.empty "/p") recording names id with
  | ok code => exact ⟨code, rfl⟩
  | error fault =>
    rw [answer] at written
    cases written

theorem canWrite : CanWrite (.empty "/p") recording names params input where
  known id mem := by
    have all : ∀ id ∈ input.values, id.index < recording.objects.size := by decide +kernel
    exact Recording.hasObject_iff.2 (all id mem)
  each id mem := by
    have all : ∀ id ∈ input.values, (construct (.empty "/p") recording names id).isOk = true := by
      decide +kernel
    exact exists_construct (all id mem)
  entries id found o mapping there kind entry mem := by
    cases found.symm.trans (show params.keywords.bind input.get? = some ⟨4⟩ by decide +kernel)
    cases there.symm.trans options_eq
    cases kind
    obtain rfl := List.mem_singleton.1 mem
    exact exists_construct (by decide +kernel)

theorem keysApart : KeysApart recording params input := by
  intro id o mapping keys found there kind holds
  cases found.symm.trans (show params.keywords.bind input.get? = some ⟨4⟩ by decide +kernel)
  cases there.symm.trans options_eq
  cases kind
  obtain _ | ⟨first, others⟩ := holds
  cases others
  have key : keywordOf recording ⟨3⟩ = .ok (some "mode") := by decide +kernel
  cases key.symm.trans (keywordOf_eq_some_iff.2 first)
  exact ⟨by decide, by decide⟩

theorem reachesExtra : ReachesExtra params input := fun _ => by decide +kernel

end Mixed

/-- A call with recorded arguments that can be written is rendered. What a rendered call gives by
position, by keyword and by spreading binds, each of it once, so that every parameter receives the code
of its recorded argument. -/
theorem renderCall_binds (project : Project) (run : RunId) (ops : List Operation) (p : Project)
    (names : Naming) (callee : String) (ps : ParamList) (input : Arguments)
    (apart : KeysApart ((Session.start project run).performAll ops).recording ps input)
    (reaches : ReachesExtra ps input) :
    (CanWrite p ((Session.start project run).performAll ops).recording names ps input →
      ∃ s, renderCall p ((Session.start project run).performAll ops).recording names callee input
        ps.params = .ok s) ∧
    ∀ s, renderCall p ((Session.start project run).performAll ops).recording names callee input
        ps.params = .ok s →
      ∃ g b, IsCall s (.plain callee) g ∧ ps.bind g = some b ∧ b.codes.Perm g.codes ∧
        Delivers p ((Session.start project run).performAll ops).recording names ps input b := by
  refine ⟨fun can => writeCall_answers (.plain callee) can fun id o found =>
    (Session.hasParts_performAll project run ops).parts found, fun s rendered => ?_⟩
  obtain ⟨d, distributes, rfl⟩ := distributes_of_writeCall rendered
  have bound := bind_passed distributes apart reaches
  refine ⟨d.passed, _, d.passed.isCall_spell _, bound, perm_of_bind bound, ?_⟩
  refine ⟨?_, distributes.extra, distributes.keywords⟩
  rw [← List.takeWhile_append_dropWhile (p := fun name => (input.get? name).isSome) (l := ps.plain),
    given_append]
  exact List.rel_append distributes.front distributes.back

theorem renderCall_binds_mixed :
    KeysApart Mixed.recording Mixed.params Mixed.input ∧ ReachesExtra Mixed.params Mixed.input ∧
    CanWrite (.empty "/p") Mixed.recording Mixed.names Mixed.params Mixed.input ∧
    ∃ s g b,
      renderCall (.empty "/p") Mixed.recording Mixed.names "f" Mixed.input Mixed.params.params =
        .ok s ∧
      IsCall s (.plain "f") g ∧ Mixed.params.bind g = some b ∧ b.codes.Perm g.codes ∧
      Delivers (.empty "/p") Mixed.recording Mixed.names Mixed.params Mixed.input b := by
  obtain ⟨answers, binds⟩ := renderCall_binds (.empty "/p") ⟨0⟩ Mixed.ops (.empty "/p") Mixed.names
    "f" Mixed.params Mixed.input Mixed.keysApart Mixed.reachesExtra
  obtain ⟨s, rendered⟩ := answers Mixed.canWrite
  obtain ⟨g, b, call⟩ := binds s rendered
  exact ⟨Mixed.keysApart, Mixed.reachesExtra, Mixed.canWrite, s, g, b, rendered, call⟩

/-- The tuple is written part by part, the mapping entry by entry, and the list by its name. -/
example : (renderCall (.empty "/p") Mixed.recording Mixed.names "f" Mixed.input
    Mixed.params.params).map Snippet.code = .ok "f(alist, 1, 1, mode=1)" := by
  decide +kernel

end Reenact.Setup
