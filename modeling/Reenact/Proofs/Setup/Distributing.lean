import Mathlib.Data.List.Perm.Basic
import Reenact.Proofs.Setup.Passing
import Reenact.Proofs.Text.Quoted

/-!
# How calls are distributed

A writer goes through the parameters of a call in order and passes the argument of each. The parameters
that take any number of arguments are marked by stars, which are no part of their names; a plain
parameter that has no argument is passed over, and all plain ones behind it are passed by keyword.

**The law** (`distributes_of_writeCall`): a call that is written is the spelling of a distribution of
the recorded arguments. It is written whenever the arguments are (`writeCall_answers`).
-/

namespace Reenact.Setup

/-! ## Stars -/

section Stars

variable {name : String} (unstarred : name.toList.head? ≠ some '*')

include unstarred

theorem paramKind_plain : paramKind name = .plain := by
  unfold paramKind
  split
  · rename_i eq
    exact absurd (by rw [eq]; rfl) unstarred
  · rename_i eq
    exact absurd (by rw [eq]; rfl) unstarred
  · rfl

theorem paramName_plain : paramName name = name := by
  unfold paramName
  cases eq : name.toList with
  | nil => rw [List.dropWhile_nil, ← eq, String.ofList_toList]
  | cons c rest =>
    rw [eq, List.head?_cons] at unstarred
    have other : (c == '*') = false := beq_eq_false_iff_ne.2 fun same => unstarred (congrArg some same)
    rw [List.dropWhile_cons_of_neg (by rw [other]; exact Bool.false_ne_true), ← eq,
      String.ofList_toList]

theorem paramKind_extra : paramKind ("*" ++ name) = .extra := by
  unfold paramKind
  rw [String.toList_append]
  cases eq : name.toList with
  | nil => rfl
  | cons c rest =>
    rw [eq, List.head?_cons] at unstarred
    split
    · rename_i same
      cases same
      exact absurd rfl unstarred
    · rfl
    · rename_i other
      exact absurd rfl (other _)

theorem paramName_extra : paramName ("*" ++ name) = name := by
  have plain := paramName_plain unstarred
  unfold paramName at plain ⊢
  rw [String.toList_append]
  exact plain

omit unstarred in
theorem paramKind_keywords : paramKind ("**" ++ name) = .keywords := by
  unfold paramKind
  rw [String.toList_append]
  rfl

theorem paramName_keywords : paramName ("**" ++ name) = name := by
  have plain := paramName_plain unstarred
  unfold paramName at plain ⊢
  rw [String.toList_append]
  exact plain

end Stars

/-! ## Keys that are parameter names -/

variable {p : Project} {r : Recording} {names : Naming} {write : Writer} {id : ObjectId}

theorem keywordOf_eq_some_iff {name : String} :
    keywordOf r id = .ok (some name) ↔ HoldsKeyword r id name := by
  have text (code : String) : (Text.Quoted.identifier? code.toList).map String.ofList = some name ↔
      (code = "'" ++ name ++ "'" ∨ code = "\"" ++ name ++ "\"") ∧
        Text.Quoted.isIdentifier name.toList := by
    rw [Option.map_eq_some_iff]
    constructor
    · rintro ⟨cs, found, rfl⟩
      simpa [← String.toList_inj] using Text.Quoted.identifier?_eq_some_iff.1 found
    · intro holds
      refine ⟨name.toList, Text.Quoted.identifier?_eq_some_iff.2 ?_, String.ofList_toList⟩
      simpa [← String.toList_inj] using holds
  unfold keywordOf HoldsKeyword
  rw [bind_eq_ok]
  constructor
  · rintro ⟨o, found, answer⟩
    split at answer
    · rename_i code imports kind
      exact ⟨o, code, imports, Recording.object_eq_ok.1 found, kind,
        (text code).1 (pure_eq_ok.1 answer)⟩
    · cases pure_eq_ok.1 answer
  · rintro ⟨o, code, imports, found, kind, holds⟩
    refine ⟨o, Recording.object_eq_ok.2 found, ?_⟩
    rw [kind]
    exact pure_eq_ok.2 ((text code).2 holds)

/-- A mapping whose keys are all parameter names. -/
theorem keywordEntries_eq_some_iff {mapping : List (ObjectId × ObjectId)}
    {entries : List (String × ObjectId)} : keywordEntries r mapping = .ok (some entries) ↔
      List.Forall₂ (fun entry named => HoldsKeyword r entry.1 named.1 ∧ named.2 = entry.2)
        mapping entries := by
  induction mapping generalizing entries with
  | nil => simp [keywordEntries, eq_comm]
  | cons entry rest ih =>
    obtain ⟨key, value⟩ := entry
    simp only [keywordEntries, bind_eq_ok]
    constructor
    · rintro ⟨name?, first, answer⟩
      cases name? with
      | none => cases pure_eq_ok.1 answer
      | some name =>
        obtain ⟨others?, others, answer⟩ := bind_eq_ok.1 answer
        cases others? with
        | none => cases pure_eq_ok.1 answer
        | some others? =>
          obtain rfl := Option.some.inj (pure_eq_ok.1 answer)
          exact .cons ⟨keywordOf_eq_some_iff.1 first, rfl⟩ (ih.1 others)
    · rintro (_ | ⟨⟨first, same⟩, others⟩)
      rename_i named entries
      obtain rfl : named.2 = value := same
      exact ⟨_, keywordOf_eq_some_iff.2 first, bind_eq_ok.2 ⟨_, ih.2 others, rfl⟩⟩

/-- The values are those of the mapping. -/
theorem exists_of_mem_keywordEntries {mapping : List (ObjectId × ObjectId)}
    {entries : List (String × ObjectId)} {named : String × ObjectId}
    (keys : keywordEntries r mapping = .ok (some entries)) (mem : named ∈ entries) :
    ∃ entry ∈ mapping, named.2 = entry.2 := by
  have holds := keywordEntries_eq_some_iff.1 keys
  clear keys
  induction holds with
  | nil => cases mem
  | cons first _ ih =>
    rcases List.mem_cons.1 mem with rfl | mem
    · exact ⟨_, List.mem_cons_self, first.2⟩
    · obtain ⟨entry, inside, same⟩ := ih mem
      exact ⟨entry, List.mem_cons_of_mem _ inside, same⟩

/-- A mapping that cannot be told as keyword arguments has a key that is no parameter name. -/
theorem exists_not_holdsKeyword {mapping : List (ObjectId × ObjectId)}
    (answer : keywordEntries r mapping = .ok none) :
    ∃ entry ∈ mapping, ∀ name, ¬HoldsKeyword r entry.1 name := by
  induction mapping with
  | nil => cases answer
  | cons entry rest ih =>
    obtain ⟨key, value⟩ := entry
    simp only [keywordEntries] at answer
    obtain ⟨name?, first, answer⟩ := bind_eq_ok.1 answer
    cases name? with
    | none =>
      refine ⟨(key, value), List.mem_cons_self, fun name holds => ?_⟩
      cases first.symm.trans (keywordOf_eq_some_iff.2 holds)
    | some name =>
      obtain ⟨others?, others, answer⟩ := bind_eq_ok.1 answer
      cases others? with
      | none =>
        obtain ⟨entry, mem, holds⟩ := ih others
        exact ⟨entry, List.mem_cons_of_mem _ mem, holds⟩
      | some others? => cases pure_eq_ok.1 answer

/-! ## One argument -/

/-- What is done for one parameter of a call. -/
def giveArgument (r : Recording) (names : Naming) (write : Writer) (input : Arguments)
    (a : ArgumentList) (param : String) : Except Fault ArgumentList :=
  match input.get? (paramName param) with
  | none => .ok { a with hasSkipped := true }
  | some value => addArgument r names write a param value

theorem writeArguments_eq (input : Arguments) (params : List String) :
    writeArguments r names write input params =
      params.foldlM (giveArgument r names write input) ArgumentList.empty := rfl

variable {input : Arguments} {g : Passed} {hasSkipped : Bool} {name : String} {a b : ArgumentList}

/-- A parameter without argument is passed over. -/
theorem giveArgument_none {param : String} (missing : input.get? (paramName param) = none) :
    giveArgument r names write input (g.written hasSkipped) param = .ok (g.written true) := by
  rw [giveArgument, missing]
  rfl

/-- A plain argument is passed by position, and by keyword once a parameter was passed over. -/
theorem giveArgument_plain (unstarred : name.toList.head? ≠ some '*')
    (found : input.get? name = some id)
    (answer : giveArgument r names (construct p r names) input (g.written hasSkipped) name = .ok b) :
    ∃ code, Writes p r names (name, id) (name, code) ∧ b = if hasSkipped
      then ({ g with keyword := g.keyword ++ [(name, code)] } : Passed).written true
      else ({ g with positional := g.positional ++ [code] } : Passed).written false := by
  rw [giveArgument, paramName_plain unstarred, found] at answer
  simp only [addArgument, paramKind_plain unstarred] at answer
  obtain ⟨code, written, answer⟩ := bind_eq_ok.1 answer
  refine ⟨code, ⟨rfl, written⟩, ?_⟩
  cases hasSkipped with
  | true =>
    rw [← pure_eq_ok.1 answer]
    simp [Passed.written]
  | false =>
    rw [← pure_eq_ok.1 answer]
    rfl

/-- Further positional arguments are passed as their share says. -/
theorem giveArgument_extra (unstarred : name.toList.head? ≠ some '*') (none : g.starred = none)
    (answer : giveArgument r names (construct p r names) input (g.written hasSkipped) ("*" ++ name) =
      .ok b) :
    ∃ share hasSkipped', SharesItems p r names (input.get? name) share ∧
      b = ({ g with positional := g.positional ++ share.single, starred := share.whole } :
        Passed).written hasSkipped' := by
  cases found : input.get? name with
  | none =>
    rw [giveArgument_none (by rw [paramName_extra unstarred, found])] at answer
    refine ⟨_, true, .nothing, ?_⟩
    rw [← Except.ok.inj answer, List.append_nil, ← none]
  | some id =>
    rw [giveArgument, paramName_extra unstarred, found] at answer
    simp only [addArgument, paramKind_extra unstarred] at answer
    obtain ⟨o, there, answer⟩ := bind_eq_ok.1 answer
    have there := Recording.object_eq_ok.1 there
    cases named : names.get? id with
    | some other =>
      rw [named] at answer
      refine ⟨⟨[], some (.plain other)⟩, hasSkipped, .whole there ?_ (construct_of_named named), ?_⟩
      · rw [named]
        rintro ⟨⟩
      · rw [← pure_eq_ok.1 answer]
        simp [Passed.written, Snippet.surround, Snippet.plain]
    | none =>
      rw [named] at answer
      cases kind : o.kind with
      | sequence shape contained =>
        rw [kind] at answer
        obtain ⟨codes, written, answer⟩ := bind_eq_ok.1 answer
        refine ⟨⟨codes, Option.none⟩, hasSkipped, .parts named there kind written, ?_⟩
        rw [← pure_eq_ok.1 answer, ← none]
        rfl
      | _ =>
        rw [kind] at answer
        obtain ⟨code, written, answer⟩ := bind_eq_ok.1 answer
        refine ⟨⟨[], some code⟩, hasSkipped, .whole there (fun _ => ?_) written, ?_⟩
        · rw [kind]
          rintro _ _ ⟨⟩
        · rw [← pure_eq_ok.1 answer]
          simp [Passed.written]

/-- Arguments written by keyword. -/
theorem exists_writes_of_written {named : List (String × ObjectId)} {codes : List Snippet}
    (written : named.mapM (fun entry => do
      return (← construct p r names entry.2).surround (entry.1 ++ "=") "") = .ok codes) :
    ∃ args, List.Forall₂ (Writes p r names) named args ∧
      codes = args.map fun arg => arg.2.surround (arg.1 ++ "=") "" := by
  induction mapM_eq_ok.1 written with
  | nil => exact ⟨[], .nil, rfl⟩
  | @cons entry code rest codes head tail ih =>
    obtain ⟨value, first, head⟩ := bind_eq_ok.1 head
    obtain ⟨args, others, rfl⟩ := ih (mapM_eq_ok.2 tail)
    rw [← pure_eq_ok.1 head]
    exact ⟨(entry.1, value) :: args, .cons ⟨rfl, first⟩ others, rfl⟩

/-- Keyword arguments of an unnamed mapping are its entries in the order of their names. -/
theorem sharesEntries_of_written {o : Object} {mapping : List (ObjectId × ObjectId)}
    {named : List (String × ObjectId)} {codes : List Snippet} (unnamed : names.get? id = none)
    (found : r.object? id = some o) (kind : o.kind = .map mapping)
    (keys : keywordEntries r mapping = .ok (some named))
    (written : (named.mergeSort comesBefore).mapM (fun entry => do
      return (← construct p r names entry.2).surround (entry.1 ++ "=") "") = .ok codes) :
    ∃ ordered, SharesEntries p r names (some id) ⟨ordered, none⟩ ∧
      codes = ordered.map fun arg => arg.2.surround (arg.1 ++ "=") "" := by
  obtain ⟨ordered, same, eq⟩ := exists_writes_of_written written
  obtain ⟨args, inOrder, perm⟩ :=
    List.perm_comp_forall₂ (List.mergeSort_perm named comesBefore).symm same
  refine ⟨ordered, .entries unnamed found kind ?_ perm, eq⟩
  have holds := keywordEntries_eq_some_iff.1 keys
  clear keys written same perm kind
  induction holds generalizing args with
  | nil =>
    cases inOrder
    exact .nil
  | cons first _ ih =>
    obtain _ | ⟨⟨name, code⟩, others⟩ := inOrder
    exact .cons ⟨name ▸ first.1, first.2 ▸ code⟩ (ih _ others)

/-- An object without a name either is told as keyword arguments, which are its entries, or is no mapping
with parameter names as keys. -/
theorem writeKeywords_cases {o : Object} {keywords : Option (List Snippet)}
    (unnamed : names.get? id = none) (there : r.object? id = some o)
    (told : writeKeywords r (construct p r names) id = .ok keywords) :
    (∃ ordered, SharesEntries p r names (some id) ⟨ordered, none⟩ ∧
      keywords = some (ordered.map fun arg => arg.2.surround (arg.1 ++ "=") "")) ∨
    keywords = none ∧ ∀ mapping, o.kind = .map mapping →
      ∃ entry ∈ mapping, ∀ name, ¬HoldsKeyword r entry.1 name := by
  obtain ⟨o', found, told⟩ := bind_eq_ok.1 told
  cases there.symm.trans (Recording.object_eq_ok.1 found)
  cases kind : o.kind with
  | map mapping =>
    rw [kind] at told
    obtain ⟨entries?, keys, told⟩ := bind_eq_ok.1 told
    cases entries? with
    | none =>
      refine .inr ⟨(pure_eq_ok.1 told).symm, fun other same => ?_⟩
      cases same
      exact exists_not_holdsKeyword keys
    | some entries =>
      obtain ⟨codes, written, told⟩ := bind_eq_ok.1 told
      obtain ⟨ordered, shares, rfl⟩ := sharesEntries_of_written unnamed there kind keys written
      exact .inl ⟨ordered, shares, (pure_eq_ok.1 told).symm⟩
  | _ =>
    rw [kind] at told
    refine .inr ⟨(pure_eq_ok.1 told).symm, ?_⟩
    rintro mapping ⟨⟩

/-- Further keyword arguments are passed as their share says. -/
theorem giveArgument_keywords (unstarred : name.toList.head? ≠ some '*')
    (none : g.doubleStarred = none)
    (answer : giveArgument r names (construct p r names) input (g.written hasSkipped) ("**" ++ name) =
      .ok b) :
    ∃ share hasSkipped', SharesEntries p r names (input.get? name) share ∧
      b = ({ g with keyword := g.keyword ++ share.single, doubleStarred := share.whole } :
        Passed).written hasSkipped' := by
  cases found : input.get? name with
  | none =>
    rw [giveArgument_none (by rw [paramName_keywords unstarred, found])] at answer
    refine ⟨_, true, .nothing, ?_⟩
    rw [← Except.ok.inj answer, List.append_nil, ← none]
  | some id =>
    rw [giveArgument, paramName_keywords unstarred, found] at answer
    simp only [addArgument, paramKind_keywords] at answer
    obtain ⟨keywords, told, answer⟩ := bind_eq_ok.1 answer
    obtain ⟨o, there, -⟩ := bind_eq_ok.1 told
    have there := Recording.object_eq_ok.1 there
    cases named : names.get? id with
    | some other =>
      rw [named] at answer
      refine ⟨⟨[], some (.plain other)⟩, hasSkipped, .whole there ?_ (construct_of_named named), ?_⟩
      · rw [named]
        rintro ⟨⟩
      · rw [← pure_eq_ok.1 answer]
        simp [Passed.written, Snippet.surround, Snippet.plain]
    | none =>
      rw [named] at answer
      rcases writeKeywords_cases named there told with ⟨ordered, shares, rfl⟩ | ⟨rfl, closed⟩
      · refine ⟨_, hasSkipped, shares, ?_⟩
        rw [← pure_eq_ok.1 answer]
        simp [Passed.written, none]
      · obtain ⟨code, written, answer⟩ := bind_eq_ok.1 answer
        refine ⟨⟨[], some code⟩, hasSkipped, .whole there (fun _ => closed) written, ?_⟩
        rw [← pure_eq_ok.1 answer]
        simp [Passed.written]

/-! ## All arguments -/

variable {plain : List String}

theorem given_cons_of_none (missing : input.get? name = none) (rest : List String) :
    given input (name :: rest) = given input rest := by
  rw [given, List.filterMap_cons_none (by rw [missing]; rfl), given]

theorem given_cons_of_some (found : input.get? name = some id) (rest : List String) :
    given input (name :: rest) = (name, id) :: given input rest := by
  rw [given, List.filterMap_cons_some (by rw [found]; rfl), given]

/-- Once a parameter was passed over, all plain arguments are passed by keyword. -/
theorem giveAll_skipped (unstarred : ∀ name ∈ plain, name.toList.head? ≠ some '*')
    (answer : plain.foldlM (giveArgument r names (construct p r names) input) (g.written true) =
      .ok b) :
    ∃ args, List.Forall₂ (Writes p r names) (given input plain) args ∧
      b = ({ g with keyword := g.keyword ++ args } : Passed).written true := by
  induction plain generalizing g with
  | nil =>
    refine ⟨[], .nil, ?_⟩
    rw [← pure_eq_ok.1 answer, List.append_nil]
  | cons name rest ih =>
    obtain ⟨first, others⟩ := List.forall_mem_cons.1 unstarred
    rw [List.foldlM_cons] at answer
    obtain ⟨c, step, answer⟩ := bind_eq_ok.1 answer
    cases found : input.get? name with
    | none =>
      rw [giveArgument_none (by rw [paramName_plain first, found])] at step
      rw [← Except.ok.inj step] at answer
      rw [given_cons_of_none found]
      exact ih others answer
    | some id =>
      obtain ⟨code, written, rfl⟩ := giveArgument_plain first found step
      obtain ⟨args, same, rfl⟩ := ih others answer
      rw [given_cons_of_some found]
      refine ⟨(name, code) :: args, .cons written same, ?_⟩
      simp [Passed.written]

/-- Plain arguments are passed by position up to the first parameter without argument. -/
theorem giveAll_plain (unstarred : ∀ name ∈ plain, name.toList.head? ≠ some '*')
    (answer : plain.foldlM (giveArgument r names (construct p r names) input) (g.written false) =
      .ok b) :
    ∃ front back hasSkipped,
      List.Forall₂ (Writes p r names)
        (given input (plain.takeWhile fun name => (input.get? name).isSome)) front ∧
      List.Forall₂ (Writes p r names)
        (given input (plain.dropWhile fun name => (input.get? name).isSome)) back ∧
      b = ({ g with
        positional := g.positional ++ front.map Prod.snd
        keyword := g.keyword ++ back } : Passed).written hasSkipped := by
  induction plain generalizing g with
  | nil =>
    refine ⟨[], [], false, .nil, .nil, ?_⟩
    rw [← pure_eq_ok.1 answer, List.map_nil, List.append_nil, List.append_nil]
  | cons name rest ih =>
    obtain ⟨first, others⟩ := List.forall_mem_cons.1 unstarred
    cases found : input.get? name with
    | none =>
      -- the first parameter without argument
      rw [List.foldlM_cons, giveArgument_none (by rw [paramName_plain first, found])] at answer
      obtain ⟨back, same, rfl⟩ := giveAll_skipped others answer
      rw [List.takeWhile_cons_of_neg (by simp [found]), List.dropWhile_cons_of_neg (by simp [found]),
        given_cons_of_none found]
      refine ⟨[], back, true, .nil, same, ?_⟩
      rw [List.map_nil, List.append_nil]
    | some id =>
      rw [List.foldlM_cons] at answer
      obtain ⟨c, step, answer⟩ := bind_eq_ok.1 answer
      obtain ⟨code, written, rfl⟩ := giveArgument_plain first found step
      obtain ⟨front, back, hasSkipped, same, behind, rfl⟩ := ih others answer
      rw [List.takeWhile_cons_of_pos (by simp [found]), List.dropWhile_cons_of_pos (by simp [found]),
        given_cons_of_some found]
      refine ⟨(name, code) :: front, back, hasSkipped, .cons written same, behind, ?_⟩
      simp [Passed.written]

namespace ParamList

variable (ps : ParamList)

theorem unstarred_plain : ∀ name ∈ ps.plain, name.toList.head? ≠ some '*' := fun name mem =>
  ps.unstarred name (List.mem_append_left _ (List.mem_append_left _ mem))

theorem unstarred_extra {name : String} (eq : ps.extra = some name) :
    name.toList.head? ≠ some '*' :=
  ps.unstarred name (List.mem_append_left _ (List.mem_append_right _ (by simp [eq])))

theorem unstarred_keywords {name : String} (eq : ps.keywords = some name) :
    name.toList.head? ≠ some '*' :=
  ps.unstarred name (List.mem_append_right _ (by simp [eq]))

end ParamList

/-- A call that is written gives the parameters their recorded arguments. -/
theorem distributes_of_writeCall {ps : ParamList} {callee s : Snippet}
    (answer : writeCall r names (construct p r names) callee input ps.params = .ok s) :
    ∃ d, Distributes p r names ps input d ∧ s = d.passed.spell callee := by
  obtain ⟨a, arguments, answer⟩ := bind_eq_ok.1 answer
  obtain rfl := pure_eq_ok.1 answer
  rw [writeArguments_eq, ParamList.params, List.foldlM_append, List.foldlM_append] at arguments
  obtain ⟨b, arguments, last⟩ := bind_eq_ok.1 arguments
  obtain ⟨c, arguments, middle⟩ := bind_eq_ok.1 arguments
  obtain ⟨front, back, hasSkipped, same, behind, rfl⟩ :=
    giveAll_plain (g := ⟨[], [], none, none⟩) ps.unstarred_plain arguments
  have extra : ∃ share hasSkipped, SharesItems p r names (ps.extra.bind input.get?) share ∧
      b = (⟨front.map Prod.snd ++ share.single, back, share.whole, none⟩ : Passed).written
        hasSkipped := by
    cases eq : ps.extra with
    | none =>
      rw [eq] at middle
      refine ⟨_, hasSkipped, .nothing, ?_⟩
      rw [← pure_eq_ok.1 middle, List.append_nil]
      rfl
    | some name =>
      rw [eq, Option.toList_some, List.map_singleton, List.foldlM_cons] at middle
      obtain ⟨b', step, middle⟩ := bind_eq_ok.1 middle
      obtain ⟨share, hasSkipped', shares, rfl⟩ :=
        giveArgument_extra (ps.unstarred_extra eq) rfl step
      exact ⟨share, hasSkipped', shares, (pure_eq_ok.1 middle).symm⟩
  obtain ⟨items, hasSkipped, shares, rfl⟩ := extra
  have keywords : ∃ share hasSkipped, SharesEntries p r names (ps.keywords.bind input.get?) share ∧
      a = (⟨front.map Prod.snd ++ items.single, back ++ share.single, items.whole, share.whole⟩ :
        Passed).written hasSkipped := by
    cases eq : ps.keywords with
    | none =>
      rw [eq] at last
      refine ⟨_, hasSkipped, .nothing, ?_⟩
      rw [← pure_eq_ok.1 last, List.append_nil]
    | some name =>
      rw [eq, Option.toList_some, List.map_singleton, List.foldlM_cons] at last
      obtain ⟨a', step, last⟩ := bind_eq_ok.1 last
      obtain ⟨share, hasSkipped', shares, rfl⟩ :=
        giveArgument_keywords (ps.unstarred_keywords eq) rfl step
      exact ⟨share, hasSkipped', shares, (pure_eq_ok.1 last).symm⟩
  obtain ⟨entries, hasSkipped, spread, rfl⟩ := keywords
  exact ⟨⟨front, back, items, entries⟩, ⟨same, behind, shares, spread⟩, rfl⟩

/-! ## Calls that are written -/

/-- A sequence without a name is written with its parts. -/
theorem exists_parts_of_construct {o : Object} {shape : Shape} {contained : List ObjectId}
    {code : Snippet} (unnamed : names.get? id = none) (found : r.object? id = some o)
    (kind : o.kind = .sequence shape contained) (written : construct p r names id = .ok code) :
    ∃ codes, contained.mapM (construct p r names) = .ok codes := by
  have written := (construct_eq_ok_iff unnamed).1 written
  unfold define writeDefinition at written
  obtain ⟨o', there, written⟩ := bind_eq_ok.1 written
  cases found.symm.trans (Recording.object_eq_ok.1 there)
  rw [kind] at written
  obtain ⟨inner, written, -⟩ := bind_eq_ok.1 written
  obtain ⟨codes, written, -⟩ := bind_eq_ok.1 written
  exact ⟨codes, written⟩

theorem giveArgument_plain_answers (unstarred : name.toList.head? ≠ some '*')
    (written : ∀ id, input.get? name = some id → ∃ code, construct p r names id = .ok code)
    (a : ArgumentList) : ∃ b, giveArgument r names (construct p r names) input a name = .ok b := by
  unfold giveArgument
  rw [paramName_plain unstarred]
  cases found : input.get? name with
  | none => exact ⟨_, rfl⟩
  | some id =>
    simp only [addArgument, paramKind_plain unstarred]
    refine bind_answers (written id found) fun code _ => ?_
    cases a.hasSkipped with
    | true => exact ⟨_, rfl⟩
    | false => exact ⟨_, rfl⟩

theorem giveArgument_extra_answers (unstarred : name.toList.head? ≠ some '*')
    (written : ∀ id, input.get? name = some id →
      r.HasObject id ∧ ∃ code, construct p r names id = .ok code) (a : ArgumentList) :
    ∃ b, giveArgument r names (construct p r names) input a ("*" ++ name) = .ok b := by
  unfold giveArgument
  rw [paramName_extra unstarred]
  cases found : input.get? name with
  | none => exact ⟨_, rfl⟩
  | some id =>
    obtain ⟨⟨o, there⟩, code, written⟩ := written id found
    simp only [addArgument, paramKind_extra unstarred]
    refine bind_answers ⟨o, Recording.object_eq_ok.2 there⟩ fun o' eq => ?_
    cases there.symm.trans (Recording.object_eq_ok.1 eq)
    cases named : names.get? id with
    | some other => exact ⟨_, rfl⟩
    | none =>
      cases kind : o.kind with
      | sequence shape contained =>
        exact bind_answers (exists_parts_of_construct named there kind written) fun _ _ => ⟨_, rfl⟩
      | _ => exact bind_answers ⟨code, written⟩ fun _ _ => ⟨_, rfl⟩

theorem keywordEntries_answers {mapping : List (ObjectId × ObjectId)}
    (known : ∀ entry ∈ mapping, r.HasObject entry.1) :
    ∃ entries?, keywordEntries r mapping = .ok entries? := by
  induction mapping with
  | nil => exact ⟨_, rfl⟩
  | cons entry rest ih =>
    obtain ⟨⟨o, there⟩, others⟩ := List.forall_mem_cons.1 known
    have first : ∃ name?, keywordOf r entry.1 = .ok name? := by
      refine bind_answers ⟨o, Recording.object_eq_ok.2 there⟩ fun o' _ => ?_
      cases o'.kind with
      | _ => exact ⟨_, rfl⟩
    refine bind_answers first fun name? _ => ?_
    cases name? with
    | none => exact ⟨_, rfl⟩
    | some name =>
      refine bind_answers (ih others) fun entries? _ => ?_
      cases entries? with
      | _ => exact ⟨_, rfl⟩

/-- An object whose values can be written, if it is a mapping, can be told as keyword arguments. -/
theorem writeKeywords_answers (known : r.HasObject id)
    (written : ∀ o mapping, r.object? id = some o → o.kind = .map mapping → ∀ entry ∈ mapping,
      r.HasObject entry.1 ∧ ∃ code, construct p r names entry.2 = .ok code) :
    ∃ keywords, writeKeywords r (construct p r names) id = .ok keywords := by
  obtain ⟨o, there⟩ := known
  refine bind_answers ⟨o, Recording.object_eq_ok.2 there⟩ fun o' eq => ?_
  cases there.symm.trans (Recording.object_eq_ok.1 eq)
  cases kind : o.kind with
  | map mapping =>
    have written := written o mapping there kind
    refine bind_answers (keywordEntries_answers fun entry mem => (written entry mem).1)
      fun entries? keys => ?_
    cases entries? with
    | none => exact ⟨_, rfl⟩
    | some entries =>
      refine bind_answers (mapM_answers fun named mem => ?_) fun _ _ => ⟨_, rfl⟩
      obtain ⟨entry, inside, same⟩ :=
        exists_of_mem_keywordEntries keys ((List.mergeSort_perm entries comesBefore).mem_iff.1 mem)
      rw [same]
      exact bind_answers (written entry inside).2 fun _ _ => ⟨_, rfl⟩
  | _ => exact ⟨_, rfl⟩

theorem giveArgument_keywords_answers (unstarred : name.toList.head? ≠ some '*')
    (written : ∀ id, input.get? name = some id → r.HasObject id ∧
      (∃ code, construct p r names id = .ok code) ∧
      ∀ o mapping, r.object? id = some o → o.kind = .map mapping → ∀ entry ∈ mapping,
        r.HasObject entry.1 ∧ ∃ code, construct p r names entry.2 = .ok code) (a : ArgumentList) :
    ∃ b, giveArgument r names (construct p r names) input a ("**" ++ name) = .ok b := by
  unfold giveArgument
  rw [paramName_keywords unstarred]
  cases found : input.get? name with
  | none => exact ⟨_, rfl⟩
  | some id =>
    obtain ⟨known, written, entries⟩ := written id found
    simp only [addArgument, paramKind_keywords]
    refine bind_answers (writeKeywords_answers known entries) fun keywords _ => ?_
    cases names.get? id with
    | some other => exact ⟨_, rfl⟩
    | none =>
      cases keywords with
      | some arguments => exact ⟨_, rfl⟩
      | none => exact bind_answers written fun _ _ => ⟨_, rfl⟩

/-- All arguments of a call can be written: each by itself, and the values of a mapping of further
keyword arguments even where the mapping has a name. -/
structure CanWrite (p : Project) (r : Recording) (names : Naming) (ps : ParamList)
    (input : Arguments) : Prop where
  known : ∀ id ∈ input.values, r.HasObject id
  each : ∀ id ∈ input.values, ∃ code, construct p r names id = .ok code
  entries : ∀ id, ps.keywords.bind input.get? = some id → ∀ o mapping, r.object? id = some o →
    o.kind = .map mapping → ∀ entry ∈ mapping, ∃ code, construct p r names entry.2 = .ok code

theorem mem_values_of_get? (found : input.get? name = some id) : id ∈ input.values := by
  obtain ⟨before, rest, split, -⟩ := List.lookup_eq_some_iff.1 found
  simp [Arguments.values, split]

/-- A call whose arguments can be written is written. -/
theorem writeCall_answers {ps : ParamList} (callee : Snippet) (can : CanWrite p r names ps input)
    (keys : ∀ id o, r.object? id = some o → ∀ part ∈ o.parts, r.HasObject part) :
    ∃ s, writeCall r names (construct p r names) callee input ps.params = .ok s := by
  refine bind_answers (foldlM_answers (fun param mem a => ?_) _) fun _ _ => ⟨_, rfl⟩
  rcases List.mem_append.1 mem with mem | keywords
  · rcases List.mem_append.1 mem with plain | extra
    · exact giveArgument_plain_answers (ps.unstarred_plain param plain)
        (fun id found => can.each id (mem_values_of_get? found)) a
    · obtain ⟨name, eq, rfl⟩ := List.mem_map.1 extra
      have eq := Option.mem_toList.1 eq
      refine giveArgument_extra_answers (ps.unstarred_extra eq) (fun id found => ?_) a
      have mem := mem_values_of_get? found
      exact ⟨can.known id mem, can.each id mem⟩
  · obtain ⟨name, eq, rfl⟩ := List.mem_map.1 keywords
    have eq := Option.mem_toList.1 eq
    refine giveArgument_keywords_answers (ps.unstarred_keywords eq) (fun id found => ?_) a
    have mem := mem_values_of_get? found
    refine ⟨can.known id mem, can.each id mem, fun o mapping there kind entry inside => ⟨?_, ?_⟩⟩
    · refine keys id o there entry.1 ?_
      rw [Object.parts, kind]
      exact List.mem_flatMap.2 ⟨entry, inside, List.mem_cons_self⟩
    · exact can.entries id (by rw [eq]; exact found) o mapping there kind entry inside

end Reenact.Setup
