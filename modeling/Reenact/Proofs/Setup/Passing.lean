import Mathlib.Data.List.Perm.Basic
import Reenact.Proofs.Setup.Nesting

/-!
# How arguments are passed

The text of a call has an order: arguments passed by position, then those passed by keyword, then a
sequence to spread, then a mapping to spread. `Passed` holds the arguments of a call in these four
places, each as the code of its value, and `Passed.spell` writes the call.

What the parameters of a call receive is a `Distribution`: the plain parameters up to the first one
without argument, those behind it, and the shares of the parameters that take any number of arguments.
It tells how each argument is passed (`Distribution.passed`).

**The law** (`isCall_spell`): what is spelled is the call with these arguments. It needs what the callee
and the values need, and has a gap where one of them has.
-/

namespace Reenact

namespace Snippet

variable {separator : String} {s : Snippet} {parts : List Snippet}

/-- A part more at the end of some others. -/
private theorem foldl_followedBy (separator : String) (s : Snippet) (rest : List Snippet) :
    (rest.foldl (fun whole part => whole.followedBy separator part) s).code =
        separator.intercalate (s.code :: rest.map code) ∧
      (∀ i, i ∈ (rest.foldl (fun whole part => whole.followedBy separator part) s).imports ↔
        i ∈ s.imports ∨ ∃ part ∈ rest, i ∈ part.imports) ∧
      (rest.foldl (fun whole part => whole.followedBy separator part) s).hasGap =
        (s.hasGap || rest.any hasGap) := by
  induction rest generalizing s with
  | nil => simp
  | cons part rest ih =>
    obtain ⟨code, imports, gap⟩ := ih (s.followedBy separator part)
    refine ⟨?_, fun i => ?_, ?_⟩
    · rw [List.foldl_cons, code]
      simp only [followedBy, List.map_cons, String.intercalate_cons_append,
        String.intercalate_cons_cons, String.append_assoc]
    · rw [List.foldl_cons, imports]
      simp only [followedBy, ImportSet.mem_union, List.exists_mem_cons_iff, or_assoc]
    · rw [List.foldl_cons, gap]
      simp only [followedBy, List.any_cons, Bool.or_assoc]

theorem code_join : (join separator parts).code = separator.intercalate (parts.map code) := by
  cases parts with
  | nil => rfl
  | cons s rest => exact (foldl_followedBy separator s rest).1

theorem mem_imports_join {i : Import} :
    i ∈ (join separator parts).imports ↔ ∃ part ∈ parts, i ∈ part.imports := by
  cases parts with
  | nil => simp [join, empty, plain]
  | cons s rest =>
    rw [List.exists_mem_cons_iff]
    exact (foldl_followedBy separator s rest).2.1 i

theorem hasGap_join : (join separator parts).hasGap = parts.any hasGap := by
  cases parts with
  | nil => rfl
  | cons s rest => exact (foldl_followedBy separator s rest).2.2

end Snippet

namespace Setup

/-! ## Places of arguments -/

/-- The arguments of a call in the four places that they can be passed in. -/
structure Passed where
  positional : List Snippet
  keyword : List (String × Snippet)
  /-- A sequence to spread. -/
  starred : Option Snippet
  /-- A mapping to spread. -/
  doubleStarred : Option Snippet

namespace Passed

variable (g : Passed)

/-- The code of all values that are passed. -/
def codes : List Snippet :=
  g.positional ++ g.keyword.map Prod.snd ++ g.starred.toList ++ g.doubleStarred.toList

/-- The texts of all arguments in the order of a call. -/
def texts : List String :=
  g.positional.map Snippet.code ++ g.keyword.map (fun arg => arg.1 ++ "=" ++ arg.2.code) ++
    g.starred.toList.map ("*" ++ ·.code) ++ g.doubleStarred.toList.map ("**" ++ ·.code)

/-- The arguments as a writer puts them down. -/
def written (hasSkipped : Bool) : ArgumentList where
  positional := g.positional
  keyword := g.keyword.map fun arg => arg.2.surround (arg.1 ++ "=") ""
  starred := g.starred.map (·.surround "*" "")
  doubleStarred := g.doubleStarred.map (·.surround "**" "")
  hasSkipped := hasSkipped

/-- The call of `callee` with the arguments. -/
def spell (callee : Snippet) : Snippet :=
  (callee.followedBy "(" (.join ", " (g.written false).all)).surround "" ")"

end Passed

/-- The snippet calls `callee` with the arguments: its text is that of the call, it needs what the
callee and the values need, and it has a gap where one of them has. -/
structure IsCall (s callee : Snippet) (g : Passed) : Prop where
  code : s.code = callee.code ++ "(" ++ ", ".intercalate g.texts ++ ")"
  imports : ∀ i, i ∈ s.imports ↔ i ∈ callee.imports ∨ ∃ c ∈ g.codes, i ∈ c.imports
  hasGap : s.hasGap = (callee.hasGap || g.codes.any Snippet.hasGap)

namespace Passed

variable (g : Passed) (hasSkipped : Bool)

theorem map_code_written : (g.written hasSkipped).all.map Snippet.code = g.texts := by
  simp [ArgumentList.all, written, texts, Function.comp_def, Snippet.surround, Option.toList_map]

/-- What stands in front of a value needs no imports. -/
theorem map_imports_written :
    (g.written hasSkipped).all.map Snippet.imports = g.codes.map Snippet.imports := by
  simp [ArgumentList.all, written, codes, Function.comp_def, Snippet.surround, Option.toList_map]

theorem map_hasGap_written :
    (g.written hasSkipped).all.map Snippet.hasGap = g.codes.map Snippet.hasGap := by
  simp [ArgumentList.all, written, codes, Function.comp_def, Snippet.surround, Option.toList_map]

theorem isCall_spell (callee : Snippet) : IsCall (g.spell callee) callee g where
  code := by
    simp only [spell, Snippet.surround, Snippet.followedBy, Snippet.code_join, map_code_written,
      String.empty_append]
  imports i := by
    have told (l : List Snippet) :
        (∃ part ∈ l, i ∈ part.imports) ↔ ∃ imports ∈ l.map Snippet.imports, i ∈ imports := by
      simp
    have same := told (g.written false).all
    rw [map_imports_written, ← told] at same
    simp only [spell, Snippet.surround, Snippet.followedBy, ImportSet.mem_union,
      Snippet.mem_imports_join, same]
  hasGap := by
    have same := congrArg (List.any · id) (map_hasGap_written g false)
    simp only [List.any_map, Function.id_comp] at same
    simp only [spell, Snippet.surround, Snippet.followedBy, Snippet.hasGap_join, same]

end Passed

/-! ## Parameters and what they receive -/

/-- The parameters of a definition: plain ones, then maybe one for further positional arguments, then
maybe one for further keyword arguments. -/
structure ParamList where
  plain : List String
  extra : Option String
  keywords : Option String
  distinct : (plain ++ extra.toList ++ keywords.toList).Nodup
  unstarred : ∀ name ∈ plain ++ extra.toList ++ keywords.toList, name.toList.head? ≠ some '*'

/-- The parameters as a project lists them. -/
def ParamList.params (ps : ParamList) : List String :=
  ps.plain ++ ps.extra.toList.map ("*" ++ ·) ++ ps.keywords.toList.map ("**" ++ ·)

/-- The arguments of some parameters, in the order of the parameters. -/
def given (input : Arguments) (params : List String) : List (String × ObjectId) :=
  params.filterMap fun name => (input.get? name).map (name, ·)

/-- What a parameter that takes any number of arguments receives. -/
structure Share (α : Type) where
  /-- Arguments of its own. -/
  single : List α
  /-- A value that is spread. -/
  whole : Option Snippet

/-- What the parameters of a call receive. -/
structure Distribution where
  /-- The plain parameters in front of the first one without argument. -/
  front : List (String × Snippet)
  /-- The plain parameters behind it. -/
  back : List (String × Snippet)
  extra : Share Snippet
  keywords : Share (String × Snippet)

/-- How the arguments are passed: by position as long as no parameter was passed over. -/
def Distribution.passed (d : Distribution) : Passed where
  positional := d.front.map Prod.snd ++ d.extra.single
  keyword := d.back ++ d.keywords.single
  starred := d.extra.whole
  doubleStarred := d.keywords.whole

/-- The object is a text that is a parameter name, between quotes. -/
def HoldsKeyword (r : Recording) (key : ObjectId) (name : String) : Prop :=
  ∃ o code imports, r.object? key = some o ∧ o.kind = .immutable code imports ∧
    (code = "'" ++ name ++ "'" ∨ code = "\"" ++ name ++ "\"") ∧ Text.Quoted.isIdentifier name.toList

section Shares

variable (p : Project) (r : Recording) (names : Naming)

/-- The argument is the code of the object. -/
def Writes (entry : String × ObjectId) (arg : String × Snippet) : Prop :=
  arg.1 = entry.1 ∧ construct p r names entry.2 = .ok arg.2

/-- What is passed for an object that holds further positional arguments: the parts of a sequence
without a name, and every other object as a whole. -/
inductive SharesItems : Option ObjectId → Share Snippet → Prop
  | nothing : SharesItems none ⟨[], none⟩
  | parts {id : ObjectId} {o : Object} {shape : Shape} {contained : List ObjectId}
      {codes : List Snippet} (unnamed : names.get? id = none) (found : r.object? id = some o)
      (kind : o.kind = .sequence shape contained)
      (written : contained.mapM (construct p r names) = .ok codes) :
      SharesItems (some id) ⟨codes, none⟩
  | whole {id : ObjectId} {o : Object} {code : Snippet} (found : r.object? id = some o)
      (closed : names.get? id = none → ∀ shape contained, o.kind ≠ .sequence shape contained)
      (written : construct p r names id = .ok code) : SharesItems (some id) ⟨[], some code⟩

/-- What is passed for an object that holds further keyword arguments: the entries, in some order, of
a mapping without a name whose keys are parameter names, and every other object as a whole. -/
inductive SharesEntries : Option ObjectId → Share (String × Snippet) → Prop
  | nothing : SharesEntries none ⟨[], none⟩
  | entries {id : ObjectId} {o : Object} {mapping : List (ObjectId × ObjectId)}
      {args ordered : List (String × Snippet)} (unnamed : names.get? id = none)
      (found : r.object? id = some o) (kind : o.kind = .map mapping)
      (written : List.Forall₂ (fun entry arg => HoldsKeyword r entry.1 arg.1 ∧
        construct p r names entry.2 = .ok arg.2) mapping args)
      (order : args.Perm ordered) : SharesEntries (some id) ⟨ordered, none⟩
  | whole {id : ObjectId} {o : Object} {code : Snippet} (found : r.object? id = some o)
      (closed : names.get? id = none → ∀ mapping, o.kind = .map mapping →
        ∃ entry ∈ mapping, ∀ name, ¬HoldsKeyword r entry.1 name)
      (written : construct p r names id = .ok code) : SharesEntries (some id) ⟨[], some code⟩

/-- The distribution gives the parameters their recorded arguments. -/
structure Distributes (ps : ParamList) (input : Arguments) (d : Distribution) : Prop where
  front : List.Forall₂ (Writes p r names)
    (given input (ps.plain.takeWhile fun name => (input.get? name).isSome)) d.front
  back : List.Forall₂ (Writes p r names)
    (given input (ps.plain.dropWhile fun name => (input.get? name).isSome)) d.back
  extra : SharesItems p r names (ps.extra.bind input.get?) d.extra
  keywords : SharesEntries p r names (ps.keywords.bind input.get?) d.keywords

end Shares

section Shares

variable {p : Project} {r : Recording} {names : Naming}

/-- What a missing parameter shares is nothing. -/
theorem eq_of_sharesItems_none {share : Share Snippet} (shares : SharesItems p r names none share) :
    share = ⟨[], none⟩ := by
  cases shares
  rfl

theorem eq_of_sharesEntries_none {share : Share (String × Snippet)}
    (shares : SharesEntries p r names none share) : share = ⟨[], none⟩ := by
  cases shares
  rfl

end Shares

end Setup

end Reenact
